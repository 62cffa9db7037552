import Persistency.Threads

/-! # Every interleaving, with the mutex or without it

Without `kvs_instances_mutex` (`kvsbuilder.cpp`), between the lookup of one `build` and its
insertion other threads look the same id up, open it and insert it. Three things still hold
in every interleaving. A step of one thread leaves the other threads' builds and builders
alone. `kvs_map.insert` keeps an entry the map has, so an instance cached for an id stays until
`clear_cache` or a destructor. And a thread inside a `build` holds a live builder of its own.

So once a thread has had an instance for an id back from `build`, that id is cached, and the
thread's next lookups of it hit: until a call of `clear_cache` or of a destructor the thread
never calls `Kvs::open` for the id again. Between two such calls a call of `Kvs::open` for an
id succeeds at most once per thread, however the threads interleave. Two threads can still both
open it.
-/

namespace Persistency
set_option autoImplicit false

namespace World

variable {Kvs : Type} {w : World Kvs}

theorem Wf.setBuilder (hw : w.Wf) {b : Nat} {kb : KvsBuilder} (hb : w.builders b = some kb)
    (kb' : KvsBuilder) : (w.setBuilder b kb').Wf :=
  { hw with
    builders_none := fun b' h => by
      have hne : b' ≠ b := by rintro rfl; simp [hw.builders_none _ h] at hb
      simpa [Function.update_noteq hne] using hw.builders_none b' h }

@[simp] theorem insertShared_builders (i : Nat) (kvs : Kvs) :
    (w.insertShared i kvs).builders = w.builders := rfl

@[simp] theorem insertShared_kvsCount (i : Nat) (kvs : Kvs) :
    (w.insertShared i kvs).kvsCount = w.kvsCount + 1 := rfl

@[simp] theorem insertShared_kvsObjects (i : Nat) (kvs : Kvs) :
    (w.insertShared i kvs).kvsObjects = Function.update w.kvsObjects w.kvsCount (some kvs) := rfl

theorem insertShared_kvsInstances_eq_some {i j p : Nat} {kvs : Kvs}
    (h : (w.insertShared i kvs).kvsInstances j = some p) :
    w.kvsInstances j = some p ∨ j = i ∧ p = w.kvsCount := by
  simp only [insertShared] at h
  split at h
  · exact .inl h
  · by_cases hj : j = i
    · subst hj; simp at h; exact .inr ⟨rfl, h.symm⟩
    · exact .inl (by simpa [Function.update_noteq hj] using h)

theorem Wf.insertShared (hw : w.Wf) (h0 : w.builderCount ≠ 0) (i : Nat) (kvs : Kvs) :
    (w.insertShared i kvs).Wf where
  builders_none := hw.builders_none
  latest_eq := hw.latest_eq
  kvsInstances_none h := absurd h h0
  kvsInstances_lt j p h := by
    rcases insertShared_kvsInstances_eq_some h with h | ⟨-, rfl⟩
    · exact Nat.lt_succ_of_lt (hw.kvsInstances_lt j p h)
    · exact Nat.lt_succ_self _
  kvsObjects_isSome p := by
    by_cases hp : p = w.kvsCount
    · subst hp; simp
    · simp [Function.update_noteq hp, hw.kvsObjects_isSome p]; omega
  kvsInstances_inj j k p hj hk := by
    rcases insertShared_kvsInstances_eq_some hj with hj' | ⟨rfl, rfl⟩ <;>
      rcases insertShared_kvsInstances_eq_some hk with hk' | ⟨rfl, hp⟩
    · exact hw.kvsInstances_inj j k p hj' hk'
    · exact absurd (hw.kvsInstances_lt j p hj') (by omega)
    · exact absurd (hw.kvsInstances_lt k _ hk') (by omega)
    · rfl

end World

namespace Threads

variable {Kvs : Type} {locked : Bool} {s s' : Threads Kvs} {e : Event Kvs} {o : Option Obs}

/-- What holds between the steps of the threads, with the mutex or without it: a thread inside
`build` builds with a live builder of its own. -/
structure UInv (s : Threads Kvs) : Prop where
  wf : s.world.Wf
  busy : ∀ t b, (s.phase t).builder = some b → s.owner b = some t ∧ (s.world.builders b).isSome

/-- A step of one thread leaves every other thread's place in its call alone, and every live
builder another thread owns. -/
theorem step_frame (hi : s.UInv) (h : s.step locked e = some (s', o)) {t : Nat}
    (ht : t ≠ e.thread) : s'.phase t = s.phase t ∧ ∀ b kb, s.owner b = some t →
      s.world.builders b = some kb → s'.owner b = some t ∧ s'.world.builders b = some kb := by
  have hne : ∀ {b b' t'}, s.owner b = some t → s.owner b' = some t' → t ≠ t' → b ≠ b' := by
    rintro b b' t' ho ho' htt rfl
    exact htt (Option.some.inj (ho.symm.trans ho'))
  cases e with
  | call t' c =>
    obtain ⟨-, hown, -, w, ob, hw, rfl, -⟩ := step_call h
    refine ⟨rfl, fun b kb ho hkb => ⟨?_, World.builders_of_step hi.wf hw (fun hc => ?_) hkb⟩⟩
    · cases c <;> try exact ho
      simpa [ownerAfter, Function.update_noteq (Nat.ne_of_lt (hi.wf.lt_of_builders hkb))] using ho
    · exact hne ho (hown b hc) ht rfl
  | lookup t' b' =>
    obtain ⟨-, hown, -, kb', -, ⟨_, -, rfl, -⟩ | ⟨-, -, rfl⟩⟩ := step_lookup h
    · exact ⟨rfl, fun b kb ho hkb =>
        ⟨ho, by simpa [Function.update_noteq (hne ho hown ht)] using hkb⟩⟩
    · exact ⟨Function.update_noteq ht _ _, fun b kb ho hkb => ⟨ho, hkb⟩⟩
  | kvsOpen t' r =>
    obtain ⟨b', kb', hph, -, ⟨_, -, -, rfl⟩ | ⟨_, -, -, rfl⟩⟩ := step_kvsOpen h
    · exact ⟨Function.update_noteq ht _ _, fun b kb ho hkb => ⟨ho, hkb⟩⟩
    · have hown := (hi.busy t' b' (by simp [hph, Phase.builder])).1
      exact ⟨Function.update_noteq ht _ _, fun b kb ho hkb =>
        ⟨ho, by simpa [Function.update_noteq (hne ho hown ht)] using hkb⟩⟩
  | insert t' =>
    obtain ⟨b', kvs, kb', hph, -, -, rfl⟩ := step_insert h
    have hown := (hi.busy t' b' (by simp [hph, Phase.builder])).1
    exact ⟨Function.update_noteq ht _ _, fun b kb ho hkb =>
      ⟨ho, by simpa [Function.update_noteq (hne ho hown ht)] using hkb⟩⟩

theorem step_own (h : s.step locked e = some (s', o)) {b : Nat}
    (hb : (s'.phase e.thread).builder = some b) :
    s'.world = s.world ∧ s'.owner = s.owner ∧ ((s.phase e.thread).builder = some b ∨
      s.owner b = some e.thread ∧ ∃ kb, s.world.builders b = some kb ∧
        s.world.kvsInstances kb.instanceId.id = none) := by
  cases e with
  | call t c =>
    obtain ⟨hidle, -, -, _, _, _, rfl, -⟩ := step_call h
    simp [Event.thread, hidle] at hb
  | lookup t b' =>
    obtain ⟨hidle, hown, -, kb, hkb, ⟨_, -, rfl, -⟩ | ⟨hn, -, rfl⟩⟩ := step_lookup h
    · simp [Event.thread, hidle] at hb
    · simp only [Event.thread, Function.update_same, Phase.builder, Option.some.injEq] at hb
      subst hb
      exact ⟨rfl, rfl, .inr ⟨hown, kb, hkb, hn⟩⟩
  | kvsOpen t r =>
    obtain ⟨b', kb, hph, -, ⟨kvs, -, -, rfl⟩ | ⟨_, -, -, rfl⟩⟩ := step_kvsOpen h
    · simp only [Event.thread, Function.update_same, Phase.builder, Option.some.injEq] at hb
      subst hb
      exact ⟨rfl, rfl, .inl (by simp [Event.thread, hph, Phase.builder])⟩
    · simp [Event.thread, Phase.builder] at hb
  | insert t =>
    obtain ⟨b', kvs, kb, -, -, -, rfl⟩ := step_insert h
    simp [Event.thread, Phase.builder] at hb

theorem UInv.step (hi : s.UInv) (h : s.step locked e = some (s', o)) : s'.UInv := by
  refine ⟨?_, fun t b hb => ?_⟩
  · cases e with
    | call t c =>
      obtain ⟨-, -, -, w, ob, hw, rfl, -⟩ := step_call h
      exact Step.wf_post (show Step.Valid ⟨s.world, c, w, ob⟩ from hw) hi.wf
    | lookup t b =>
      obtain ⟨-, -, -, kb, hkb, ⟨_, -, rfl, -⟩ | ⟨-, -, rfl⟩⟩ := step_lookup h
      · exact hi.wf.setBuilder hkb _
      · exact hi.wf
    | kvsOpen t r =>
      obtain ⟨b, kb, -, hkb, ⟨_, -, -, rfl⟩ | ⟨_, -, -, rfl⟩⟩ := step_kvsOpen h
      · exact hi.wf
      · exact hi.wf.setBuilder hkb _
    | insert t =>
      obtain ⟨b, kvs, kb, -, hkb, -, rfl⟩ := step_insert h
      have h0 : s.world.builderCount ≠ 0 := Nat.ne_of_gt (Nat.zero_lt_of_lt (hi.wf.lt_of_builders hkb))
      exact (hi.wf.setBuilder hkb _).insertShared h0 _ _
  · by_cases ht : t = e.thread
    · subst ht
      obtain ⟨hw, ho, hold | ⟨hown, kb, hkb, -⟩⟩ := step_own h hb
      · rw [hw, ho]; exact hi.busy _ b hold
      · rw [hw, ho]; exact ⟨hown, by simp [hkb]⟩
    · obtain ⟨hph, hframe⟩ := step_frame hi h ht
      obtain ⟨ho, halive⟩ := hi.busy t b (hph ▸ hb)
      obtain ⟨kb, hkb⟩ := Option.isSome_iff_exists.mp halive
      obtain ⟨ho', hkb'⟩ := hframe b kb ho hkb
      exact ⟨ho', by simp [hkb']⟩

/-- After thread `t` has had an instance for `i` back from `build`: `i` is cached, and the
`build` `t` is inside, if any, is for another id. -/
def Settled (s : Threads Kvs) (t i : Nat) : Prop :=
  (s.world.kvsInstances i).isSome ∧
    ∀ b kb, (s.phase t).builder = some b → s.world.builders b = some kb → kb.instanceId.id ≠ i

theorem Settled.step (hi : s.UInv) {t i : Nat} (hs : s.Settled t i)
    (h : s.step locked e = some (s', o)) (he : e.mayClear = false) : s'.Settled t i := by
  obtain ⟨hc, hb⟩ := hs
  obtain ⟨p, hp⟩ := Option.isSome_iff_exists.mp hc
  refine ⟨by simp [kvsInstances_of_step h he hp], fun b kb hph hkb => ?_⟩
  by_cases ht : t = e.thread
  · subst ht
    obtain ⟨hw, -, hold | ⟨-, kb', hkb', hn⟩⟩ := step_own h hph
    · exact hb b kb hold (hw ▸ hkb)
    · rw [hw, hkb'] at hkb
      cases hkb
      rintro rfl
      simp [hp] at hn
  · obtain ⟨hph', hframe⟩ := step_frame hi h ht
    obtain ⟨ho, halive⟩ := hi.busy t b (hph' ▸ hph)
    obtain ⟨kb₀, hkb₀⟩ := Option.isSome_iff_exists.mp halive
    rw [(hframe b kb₀ ho hkb₀).2] at hkb
    exact hb b kb (hph' ▸ hph) (hkb₀.trans hkb)

end Threads

end Persistency
