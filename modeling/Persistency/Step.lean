import Persistency.Builder

/-! # What one call can do

Two inversion lemmas, one for `step` and one for `build`, say everything a call does to the
cache and to the builders. Every lemma after them, and every proof about runs, cites them and
never unfolds a call again.
-/

namespace Persistency.World
set_option autoImplicit false

variable {Kvs : Type} {w w' : World Kvs} {c : Call Kvs} {o : Obs}

@[simp] theorem dtor_builders (w : World Kvs) (b : Nat) :
    (w.dtor b).builders = Function.update w.builders b none := by
  unfold dtor; split <;> rfl

@[simp] theorem dtor_latestInstance (w : World Kvs) (b : Nat) :
    (w.dtor b).latestInstance = w.latestInstance := by
  unfold dtor; split <;> rfl

@[simp] theorem dtor_builderCount (w : World Kvs) (b : Nat) :
    (w.dtor b).builderCount = w.builderCount := by
  unfold dtor; split <;> rfl

@[simp] theorem dtor_kvsCount (w : World Kvs) (b : Nat) :
    (w.dtor b).kvsCount = w.kvsCount := by
  unfold dtor; split <;> rfl

@[simp] theorem dtor_kvsObjects (w : World Kvs) (b : Nat) :
    (w.dtor b).kvsObjects = w.kvsObjects := by
  unfold dtor; split <;> rfl

theorem dtor_kvsInstances (w : World Kvs) (b : Nat) :
    (w.dtor b).kvsInstances = if w.latestInstance = some b then fun _ => none else w.kvsInstances := by
  unfold dtor; split <;> rfl

theorem dtor_step {b : Nat} (h : w.step (.dtor b) = some (w', o)) : w' = w.dtor b ∧ o = .unit := by
  obtain ⟨_, -, h⟩ := Option.map_eq_some'.mp h
  exact ⟨(Prod.mk.inj h).1.symm, (Prod.mk.inj h).2.symm⟩

/-- Everything `build` can do: return the cached instance, cache a new one, or pass on the
error of `Kvs::open`, which is called only in the last two cases. -/
theorem build_cases {b : Nat} {kb : KvsBuilder} {kvsOpen : OpenCall → Except MyErrorCode Kvs}
    (h : w.build b kb kvsOpen = (w', o)) :
    (∃ p, w.kvsInstances kb.instanceId.id = some p ∧
      o = .build kb.instanceId none (.ok p) ∧ w' = w.setBuilder b kb.normalize) ∨
    (w.kvsInstances kb.instanceId.id = none ∧ ∃ kvs, kvsOpen kb.normalize.openCall = .ok kvs ∧
      o = .build kb.instanceId (some kb.normalize.openCall) (.ok w.kvsCount) ∧
      w' = (w.setBuilder b kb.normalize).cacheNew kb.instanceId.id kvs) ∨
    (w.kvsInstances kb.instanceId.id = none ∧ ∃ e, kvsOpen kb.normalize.openCall = .error e ∧
      o = .build kb.instanceId (some kb.normalize.openCall) (.error e) ∧
      w' = w.setBuilder b kb.normalize) := by
  unfold build at h
  simp only [setBuilder_kvsInstances, KvsBuilder.normalize_instanceId, setBuilder_kvsCount] at h
  split at h
  · obtain ⟨rfl, rfl⟩ := Prod.mk.inj h
    exact .inl ⟨_, ‹_›, rfl, rfl⟩
  · split at h <;> obtain ⟨rfl, rfl⟩ := Prod.mk.inj h
    · exact .inr (.inl ⟨‹_›, _, ‹_›, rfl, rfl⟩)
    · exact .inr (.inr ⟨‹_›, _, ‹_›, rfl, rfl⟩)

/-- Everything a step can do: leave the cache alone or empty it, as `clearsCache` says, without
allocating, or be a `build` of a live builder. -/
theorem step_cases (h : w.step c = some (w', o)) :
    (o = .unit ∧ w'.kvsCount = w.kvsCount ∧ w'.kvsObjects = w.kvsObjects ∧
      w'.kvsInstances = if w.clearsCache c then fun _ => none else w.kvsInstances) ∨
    (∃ b kb kvsOpen, c = .build b kvsOpen ∧ w.builders b = some kb ∧
      w.build b kb kvsOpen = (w', o)) := by
  cases c with
  | build b kvsOpen =>
    obtain ⟨kb, hkb, h⟩ := Option.map_eq_some'.mp h
    exact .inr ⟨b, kb, kvsOpen, rfl, hkb, h⟩
  | dtor b =>
    obtain ⟨kb, -, h⟩ := Option.map_eq_some'.mp h
    obtain ⟨rfl, rfl⟩ := Prod.mk.inj h
    exact .inl ⟨rfl, by simp, by simp, by simp [clearsCache, dtor_kvsInstances]⟩
  | kvsBuilder | clearCache =>
    obtain ⟨rfl, rfl⟩ := Prod.mk.inj (Option.some.inj h)
    exact .inl ⟨rfl, rfl, rfl, by simp [clearsCache]; rfl⟩
  | needDefaultsFlag b flag | needKvsFlag b flag | dir b dirPath =>
    obtain ⟨kb, -, h⟩ := Option.map_eq_some'.mp h
    obtain ⟨rfl, rfl⟩ := Prod.mk.inj h
    exact .inl ⟨rfl, rfl, rfl, by simp [clearsCache]; rfl⟩

@[simp] theorem clearsCache_build (w : World Kvs) (b : Nat)
    (kvsOpen : OpenCall → Except MyErrorCode Kvs) : w.clearsCache (.build b kvsOpen) = false := rfl

theorem kvsInstances_of_clearsCache (h : w.step c = some (w', o)) (hc : w.clearsCache c = true)
    (i : Nat) : w'.kvsInstances i = none := by
  rcases step_cases h with ⟨-, -, -, hw⟩ | ⟨b, kb, kvsOpen, rfl, -, -⟩
  · simp [hw, hc]
  · cases hc

theorem kvsInstances_of_keep (h : w.step c = some (w', o)) (hc : w.clearsCache c = false)
    {i p : Nat} (hi : w.kvsInstances i = some p) : w'.kvsInstances i = some p := by
  rcases step_cases h with ⟨-, -, -, hw⟩ | ⟨b, kb, kvsOpen, rfl, -, h⟩
  · simp [hw, hc, hi]
  · rcases build_cases h with ⟨p', -, -, rfl⟩ | ⟨hn, kvs, -, -, rfl⟩ | ⟨-, e, -, -, rfl⟩
    · simpa using hi
    · have hne : i ≠ kb.instanceId.id := by rintro rfl; simp [hn] at hi
      simpa [Function.update_noteq hne] using hi
    · simpa using hi

theorem kvsInstances_eq_some (h : w.step c = some (w', o)) {i p : Nat}
    (hi : w'.kvsInstances i = some p) : w.kvsInstances i = some p ∨ o.inserted = some (i, p) := by
  rcases step_cases h with ⟨-, -, -, hw⟩ | ⟨b, kb, kvsOpen, rfl, -, h⟩
  · rw [hw] at hi
    split at hi
    · cases hi
    · exact .inl hi
  · rcases build_cases h with ⟨p', -, rfl, rfl⟩ | ⟨hn, kvs, -, rfl, rfl⟩ | ⟨-, e, -, rfl, rfl⟩
    · exact .inl (by simpa using hi)
    · by_cases he : i = kb.instanceId.id
      · subst he
        simp only [cacheNew_kvsInstances, Function.update_same, Option.some.injEq,
          setBuilder_kvsCount] at hi
        simp [Obs.inserted, hi]
      · exact .inl (by simpa [Function.update_noteq he] using hi)
    · exact .inl (by simpa using hi)

theorem opened_step (h : w.step c = some (w', o)) {oc : OpenCall} (ho : o.opened = some oc) :
    w.kvsInstances oc.instanceId.id = none ∧
      ∃ b kb kvsOpen r, c = .build b kvsOpen ∧ w.builders b = some kb ∧
        oc = kb.normalize.openCall ∧ o = .build kb.instanceId (some oc) r := by
  rcases step_cases h with ⟨rfl, -, -, -⟩ | ⟨b, kb, kvsOpen, rfl, hkb, h⟩
  · cases ho
  · rcases build_cases h with ⟨p, -, rfl, -⟩ | ⟨hn, kvs, -, rfl, -⟩ | ⟨hn, e, -, rfl, -⟩
    · cases ho
    all_goals
      cases ho
      exact ⟨by simpa using hn, b, kb, kvsOpen, _, rfl, hkb, rfl, rfl⟩

theorem inserted_step (h : w.step c = some (w', o)) {i p : Nat}
    (hi : o.inserted = some (i, p)) :
    w.kvsInstances i = none ∧ p = w.kvsCount ∧ w'.kvsInstances i = some p ∧
      w'.kvsCount = w.kvsCount + 1 := by
  rcases step_cases h with ⟨rfl, -, -, -⟩ | ⟨b, kb, kvsOpen, rfl, -, h⟩
  · cases hi
  · rcases build_cases h with ⟨p, -, rfl, -⟩ | ⟨hn, kvs, -, rfl, rfl⟩ | ⟨-, e, -, rfl, -⟩
    · cases hi
    · simp only [Obs.inserted, Option.some.injEq, Prod.mk.injEq] at hi
      obtain ⟨rfl, rfl⟩ := hi
      simp [hn]
    · cases hi

theorem returned_step (h : w.step c = some (w', o)) {i p : Nat}
    (hr : o.returned = some (i, p)) :
    w.kvsInstances i = some p ∨ o.inserted = some (i, p) := by
  rcases step_cases h with ⟨rfl, -, -, -⟩ | ⟨b, kb, kvsOpen, rfl, -, h⟩
  · cases hr
  · rcases build_cases h with ⟨p', hp, rfl, -⟩ | ⟨-, kvs, -, rfl, -⟩ | ⟨-, e, -, rfl, -⟩
    · simp only [Obs.returned, Option.some.injEq, Prod.mk.injEq] at hr
      obtain ⟨rfl, rfl⟩ := hr
      exact .inl hp
    · exact .inr hr
    · cases hr

theorem returned_post (h : w.step c = some (w', o)) {i p : Nat} (hr : o.returned = some (i, p)) :
    w'.kvsInstances i = some p := by
  rcases returned_step h hr with hp | hi
  · rcases step_cases h with ⟨rfl, -, -, -⟩ | ⟨b, kb, kvsOpen, rfl, -, -⟩
    · cases hr
    · exact kvsInstances_of_keep h rfl hp
  · exact (inserted_step h hi).2.2.1

theorem build_obs_of_cached {iid : InstanceId} {oc : Option OpenCall} {r : Except MyErrorCode Nat}
    (h : w.step c = some (w', .build iid oc r)) {p : Nat} (hp : w.kvsInstances iid.id = some p) :
    oc = none ∧ r = .ok p := by
  rcases step_cases h with ⟨ho, -⟩ | ⟨b, kb, kvsOpen, rfl, -, hb⟩
  · cases ho
  · rcases build_cases hb with ⟨p', hp', ho, -⟩ | ⟨hn, _, _, ho, -⟩ | ⟨hn, _, _, ho, -⟩ <;>
      cases ho
    · exact ⟨rfl, by rw [hp'] at hp; cases hp; rfl⟩
    all_goals simp [hn] at hp

theorem kvsCount_step (h : w.step c = some (w', o)) (hi : o.inserted = none) :
    w'.kvsCount = w.kvsCount := by
  rcases step_cases h with ⟨-, hc, -, -⟩ | ⟨b, kb, kvsOpen, rfl, -, h⟩
  · exact hc
  · rcases build_cases h with ⟨p, -, rfl, rfl⟩ | ⟨-, kvs, -, rfl, -⟩ | ⟨-, e, -, rfl, rfl⟩
    · rfl
    · cases hi
    · rfl

theorem kvsObjects_step (h : w.step c = some (w', o)) :
    (o.inserted = none ∧ w'.kvsObjects = w.kvsObjects) ∨
      ∃ b kb kvsOpen kvs, c = .build b kvsOpen ∧ w.builders b = some kb ∧
        kvsOpen kb.normalize.openCall = .ok kvs ∧ o.inserted = some (kb.instanceId.id, w.kvsCount) ∧
        w'.kvsObjects = Function.update w.kvsObjects w.kvsCount (some kvs) := by
  rcases step_cases h with ⟨rfl, -, ho, -⟩ | ⟨b, kb, kvsOpen, rfl, hkb, h⟩
  · exact .inl ⟨rfl, ho⟩
  · rcases build_cases h with ⟨p, -, rfl, rfl⟩ | ⟨-, kvs, hk, rfl, rfl⟩ | ⟨-, e, -, rfl, rfl⟩
    · exact .inl ⟨rfl, rfl⟩
    · exact .inr ⟨b, kb, kvsOpen, kvs, rfl, hkb, hk, rfl, rfl⟩
    · exact .inl ⟨rfl, rfl⟩

theorem kvsInstances_of_open_error (h : w.step c = some (w', o)) {iid : InstanceId}
    {oc : Option OpenCall} {e : MyErrorCode} (ho : o = .build iid oc (.error e)) :
    w'.kvsInstances = w.kvsInstances := by
  subst ho
  rcases step_cases h with ⟨h, -, -, -⟩ | ⟨b, kb, kvsOpen, rfl, -, h⟩
  · cases h
  · rcases build_cases h with ⟨p, -, h, -⟩ | ⟨-, kvs, -, h, -⟩ | ⟨-, e, -, -, rfl⟩
    · cases h
    · cases h
    · rfl

theorem build_builders {b : Nat} {kb : KvsBuilder}
    {kvsOpen : OpenCall → Except MyErrorCode Kvs} (h : w.build b kb kvsOpen = (w', o)) :
    w'.builders = Function.update w.builders b (some kb.normalize) ∧
      w'.latestInstance = w.latestInstance ∧ w'.builderCount = w.builderCount := by
  rcases build_cases h with ⟨-, -, -, rfl⟩ | ⟨-, -, -, -, rfl⟩ | ⟨-, -, -, -, rfl⟩ <;>
    exact ⟨rfl, rfl, rfl⟩

theorem step_builders (h : w.step c = some (w', o)) :
    (∃ iid, c = .kvsBuilder iid ∧ w' = w.kvsBuilder iid) ∨
    (w'.latestInstance = w.latestInstance ∧ w'.builderCount = w.builderCount ∧
      ∀ b, (w'.builders b).isSome ↔ (w.builders b).isSome ∧ c ≠ .dtor b) := by
  have hset : ∀ {b : Nat} {kb kb' : KvsBuilder}, w.builders b = some kb →
      ∀ b', (Function.update w.builders b (some kb') b').isSome ↔ (w.builders b').isSome := by
    intro b kb kb' hkb b'
    by_cases hb : b' = b
    · subst hb; simp [hkb]
    · simp [Function.update_noteq hb]
  cases c with
  | kvsBuilder iid => exact .inl ⟨iid, rfl, (Prod.mk.inj (Option.some.inj h)).1.symm⟩
  | clearCache =>
    obtain ⟨rfl, -⟩ := Prod.mk.inj (Option.some.inj h)
    exact .inr ⟨rfl, rfl, fun b => by simp⟩
  | dtor b =>
    obtain ⟨rfl, -⟩ := dtor_step h
    refine .inr ⟨by simp, by simp, fun b' => ?_⟩
    by_cases hb : b' = b
    · subst hb; simp
    · simp [Function.update_noteq hb, Ne.symm hb]
  | needDefaultsFlag b flag | needKvsFlag b flag | dir b dirPath =>
    obtain ⟨kb, hkb, h⟩ := Option.map_eq_some'.mp h
    obtain ⟨rfl, -⟩ := Prod.mk.inj h
    exact .inr ⟨rfl, rfl, fun b' => by simpa using hset hkb b'⟩
  | build b kvsOpen =>
    obtain ⟨kb, hkb, h⟩ := Option.map_eq_some'.mp h
    obtain ⟨hb, hl, hn⟩ := build_builders h
    exact .inr ⟨hl, hn, fun b' => by simpa [hb] using hset hkb b'⟩

theorem builderCount_le_step (h : w.step c = some (w', o)) : w.builderCount ≤ w'.builderCount := by
  rcases step_builders h with ⟨iid, -, rfl⟩ | ⟨-, hn, -⟩
  · simp
  · exact Nat.le_of_eq hn.symm

theorem builders_none_step (h : w.step c = some (w', o)) {b : Nat} (hb : b < w.builderCount)
    (hdead : w.builders b = none) : b < w'.builderCount ∧ w'.builders b = none := by
  rcases step_builders h with ⟨iid, -, rfl⟩ | ⟨-, hn, halive⟩
  · exact ⟨by simp; omega, by simp [Function.update_noteq (Nat.ne_of_lt hb), hdead]⟩
  · refine ⟨hn ▸ hb, ?_⟩
    cases hpost : w'.builders b with
    | none => rfl
    | some kb => simpa [hdead] using ((halive b).mp (by simp [hpost])).1

end Persistency.World
