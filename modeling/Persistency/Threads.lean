import Persistency.Run

/-! # Builds on several threads

The caching `KvsBuilder` of `BUILD` guards `kvs_instances` with `kvs_instances_mutex`: `build`
holds it from the lookup to its return, and the destructor and `clear_cache` take it too; the
constructor takes only `latest_instance_mutex`. The builder of `kvsbuilder.cpp` is the same code
with no mutex. Here every thread runs calls on the builders it constructed, and a `build` is
three steps between which other threads run: the lookup, the return of `Kvs::open`, and
`std::make_shared` with `kvs_map.insert`, which keeps an entry the map already has. A build
writes its normalised directory to its own builder, which no other thread reads, at its last
step.

With the mutex every interleaving is a run of the atomic builder of `Persistency.Builder`:
the calls return what they return there, in the order they return. In particular, until a
thread calls `clear_cache` or a destructor, every `build` for an id that ends after one has
returned an instance returns that instance. What holds without the mutex is in
`Persistency.Interleaving`.
-/

namespace Persistency
set_option autoImplicit false

/-- Where a thread is in `KvsBuilder::build`: after a lookup for builder `b` that missed, and
after `Kvs::open` returned `kvs` to that build. -/
inductive Phase (Kvs : Type)
  | idle
  | missed (b : Nat)
  | opened (b : Nat) (kvs : Kvs)

def Phase.builder {Kvs : Type} : Phase Kvs → Option Nat
  | .idle => none
  | .missed b | .opened b _ => some b

/-- The shared state, every thread's place in its call, the thread that constructed each
builder, and the thread holding `kvs_instances_mutex`. -/
structure Threads (Kvs : Type) where
  world : World Kvs
  phase : Nat → Phase Kvs
  owner : Nat → Option Nat
  lock : Option Nat

/-- One step of one thread `t`: a whole call other than `build`, or one of the three steps of
a `build`. -/
inductive Event (Kvs : Type)
  | call (t : Nat) (c : Call Kvs)
  | lookup (t b : Nat)
  | kvsOpen (t : Nat) (r : Except MyErrorCode Kvs)
  | insert (t : Nat)

namespace Call

variable {Kvs : Type}

def builder : Call Kvs → Option Nat
  | .kvsBuilder _ | .clearCache => none
  | .dtor b | .needDefaultsFlag b _ | .needKvsFlag b _ | .dir b _ | .build b _ => some b

/-- Whether a call takes `kvs_instances_mutex`. -/
def locks : Call Kvs → Bool
  | .dtor _ | .clearCache | .build _ _ => true
  | _ => false

end Call

/-- Whether a step is a call of `clear_cache` or of a destructor, the only calls that can empty
the cache. -/
def Event.mayClear {Kvs : Type} : Event Kvs → Bool
  | .call _ .clearCache | .call _ (.dtor _) => true
  | _ => false

def Event.thread {Kvs : Type} : Event Kvs → Nat
  | .call t _ | .lookup t _ | .kvsOpen t _ | .insert t => t

namespace World

variable {Kvs : Type}

/-- `std::make_shared<Kvs>` followed by `kvs_map.insert`, which leaves an id already in the map
as it is. -/
def insertShared (w : World Kvs) (i : Nat) (kvs : Kvs) : World Kvs :=
  { w with
    kvsObjects := Function.update w.kvsObjects w.kvsCount (some kvs)
    kvsCount := w.kvsCount + 1
    kvsInstances := if (w.kvsInstances i).isSome then w.kvsInstances
      else Function.update w.kvsInstances i (some w.kvsCount) }

theorem insertShared_of_none {w : World Kvs} {i : Nat} (kvs : Kvs) (hn : w.kvsInstances i = none) :
    w.insertShared i kvs = w.cacheNew i kvs := by
  simp [insertShared, cacheNew, hn]

theorem insertShared_kvsInstances_of_some {w : World Kvs} {i j p : Nat} (kvs : Kvs)
    (h : w.kvsInstances j = some p) : (w.insertShared i kvs).kvsInstances j = some p := by
  by_cases hj : j = i
  · subst hj; simp [insertShared, h]
  · simp only [insertShared]; split <;> simp [Function.update_noteq hj, h]

end World

namespace Threads

variable {Kvs : Type}

def init : Threads Kvs where
  world := World.init
  phase _ := .idle
  owner _ := none
  lock := none

def ownerAfter (s : Threads Kvs) (t : Nat) : Call Kvs → Nat → Option Nat
  | .kvsBuilder _ => Function.update s.owner s.world.builderCount (some t)
  | _ => s.owner

/-- One step; `locked` says whether `kvs_instances_mutex` is there. A step that ends a call shows
what the call returned, and the other steps show nothing. -/
def step (locked : Bool) (s : Threads Kvs) : Event Kvs → Option (Threads Kvs × Option Obs)
  | .call _ (.build _ _) => none
  | .call t c =>
    if (s.phase t).builder = none ∧ c.builder.all (fun b => s.owner b = some t) ∧
        (locked ∧ c.locks → s.lock = none) then
      (s.world.step c).map fun (w, o) => ({ s with world := w, owner := s.ownerAfter t c }, some o)
    else none
  | .lookup t b =>
    if (s.phase t).builder = none ∧ s.owner b = some t ∧ (locked → s.lock = none) then
      (s.world.builders b).map fun kb =>
        match s.world.kvsInstances kb.instanceId.id with
        | some p => ({ s with world := s.world.setBuilder b kb.normalize },
            some (.build kb.instanceId none (.ok p)))
        | none =>
          ({ s with
              phase := Function.update s.phase t (.missed b)
              lock := if locked then some t else none }, none)
    else none
  | .kvsOpen t r =>
    match s.phase t with
    | .missed b => (s.world.builders b).map fun kb =>
      match r with
      | .ok kvs => ({ s with phase := Function.update s.phase t (.opened b kvs) }, none)
      | .error e =>
        ({ s with
            world := s.world.setBuilder b kb.normalize
            phase := Function.update s.phase t .idle
            lock := none },
          some (.build kb.instanceId (some kb.normalize.openCall) (.error e)))
    | _ => none
  | .insert t =>
    match s.phase t with
    | .opened b kvs => (s.world.builders b).map fun kb =>
      let w := s.world.setBuilder b kb.normalize
      ({ s with
          world := w.insertShared kb.instanceId.id kvs
          phase := Function.update s.phase t .idle
          lock := none },
        some (.build kb.instanceId (some kb.normalize.openCall) (.ok w.kvsCount)))
    | _ => none

def Run (locked : Bool) : Threads Kvs → List (Event Kvs × Option Obs) → Threads Kvs → Prop
  | s, [], s' => s = s'
  | s, (e, o) :: evs, s'' => ∃ s', s.step locked e = some (s', o) ∧ Run locked s' evs s''

def exec (locked : Bool) (s : Threads Kvs) :
    List (Event Kvs) → Option (List (Event Kvs × Option Obs) × Threads Kvs)
  | [] => some ([], s)
  | e :: es => (s.step locked e).bind fun (s', o) =>
    (exec locked s' es).map fun (evs, s'') => ((e, o) :: evs, s'')

theorem Run.of_exec {locked : Bool} {s s' : Threads Kvs} {es : List (Event Kvs)}
    {evs : List (Event Kvs × Option Obs)} (h : exec locked s es = some (evs, s')) :
    Run locked s evs s' := by
  induction es generalizing s evs with
  | nil => cases h; rfl
  | cons e es ih =>
    obtain ⟨⟨s₁, o⟩, h₁, h⟩ := Option.bind_eq_some.mp h
    obtain ⟨⟨evs', s₂⟩, h₂, h⟩ := Option.map_eq_some'.mp h
    cases h
    exact ⟨s₁, h₁, ih h₂⟩

theorem Run.append {locked : Bool} {s s'' : Threads Kvs} {a b : List (Event Kvs × Option Obs)} :
    Run locked s (a ++ b) s'' ↔ ∃ s', Run locked s a s' ∧ Run locked s' b s'' := by
  induction a generalizing s with
  | nil => simp [Run, eq_comm]
  | cons ev a ih =>
    obtain ⟨e, o⟩ := ev
    constructor
    · rintro ⟨s₁, h₁, h⟩
      obtain ⟨s', h, h'⟩ := ih.mp h
      exact ⟨s', ⟨s₁, h₁, h⟩, h'⟩
    · rintro ⟨s', ⟨s₁, h₁, h⟩, h'⟩
      exact ⟨s₁, h₁, ih.mpr ⟨s', h, h'⟩⟩

/-- What every step of a run keeps holds at its end. -/
theorem Run.inv {locked : Bool} {s s' : Threads Kvs} {evs : List (Event Kvs × Option Obs)}
    (P : Threads Kvs → Prop)
    (hstep : ∀ s₁ s₂ e o, (e, o) ∈ evs → P s₁ → s₁.step locked e = some (s₂, o) → P s₂)
    (h : Run locked s evs s') (hs : P s) : P s' := by
  induction evs generalizing s with
  | nil => exact h ▸ hs
  | cons ev evs ih =>
    obtain ⟨e, o⟩ := ev
    obtain ⟨s₁, h₁, h⟩ := h
    exact ih (fun _ _ _ _ hev => hstep _ _ _ _ (.tail _ hev)) h (hstep _ _ _ _ (.head _) hs h₁)

/-! ## The three steps of a `build`, and the other calls -/

variable {locked : Bool} {s s' : Threads Kvs} {o : Option Obs}

theorem step_call {t : Nat} {c : Call Kvs} (h : s.step locked (.call t c) = some (s', o)) :
    (s.phase t).builder = none ∧ (∀ b, c.builder = some b → s.owner b = some t) ∧
      (locked = true → c.locks = true → s.lock = none) ∧
      ∃ w ob, s.world.step c = some (w, ob) ∧ s' = { s with world := w, owner := s.ownerAfter t c } ∧
        o = some ob := by
  cases c
  case build => cases h
  all_goals
    simp only [step] at h
    split at h
    · rename_i hg
      obtain ⟨⟨w, ob⟩, hw, h⟩ := Option.map_eq_some'.mp h
      cases h
      refine ⟨hg.1, fun b hb => ?_, fun hl hc => hg.2.2 ⟨hl, hc⟩, w, ob, hw, rfl, rfl⟩
      simpa [hb] using hg.2.1
    · cases h

theorem step_lookup {t b : Nat} (h : s.step locked (.lookup t b) = some (s', o)) :
    (s.phase t).builder = none ∧ s.owner b = some t ∧ (locked = true → s.lock = none) ∧
      ∃ kb, s.world.builders b = some kb ∧
        ((∃ p, s.world.kvsInstances kb.instanceId.id = some p ∧
            s' = { s with world := s.world.setBuilder b kb.normalize } ∧
            o = some (.build kb.instanceId none (.ok p))) ∨
          (s.world.kvsInstances kb.instanceId.id = none ∧ o = none ∧
            s' = { s with
              phase := Function.update s.phase t (.missed b)
              lock := if locked then some t else none })) := by
  simp only [step] at h
  split at h
  · rename_i hg
    obtain ⟨kb, hkb, h⟩ := Option.map_eq_some'.mp h
    refine ⟨hg.1, hg.2.1, hg.2.2, kb, hkb, ?_⟩
    split at h <;> rename_i hi <;> cases h
    · exact .inl ⟨_, hi, rfl, rfl⟩
    · exact .inr ⟨hi, rfl, rfl⟩
  · cases h

theorem step_kvsOpen {t : Nat} {r : Except MyErrorCode Kvs}
    (h : s.step locked (.kvsOpen t r) = some (s', o)) :
    ∃ b kb, s.phase t = .missed b ∧ s.world.builders b = some kb ∧
      ((∃ kvs, r = .ok kvs ∧ o = none ∧
          s' = { s with phase := Function.update s.phase t (.opened b kvs) }) ∨
        (∃ e, r = .error e ∧ o = some (.build kb.instanceId (some kb.normalize.openCall) (.error e)) ∧
          s' = { s with
            world := s.world.setBuilder b kb.normalize
            phase := Function.update s.phase t .idle
            lock := none })) := by
  simp only [step] at h
  split at h
  · rename_i b hb
    obtain ⟨kb, hkb, h⟩ := Option.map_eq_some'.mp h
    refine ⟨b, kb, hb, hkb, ?_⟩
    cases r <;> cases h
    · exact .inr ⟨_, rfl, rfl, rfl⟩
    · exact .inl ⟨_, rfl, rfl, rfl⟩
  · cases h

theorem step_insert {t : Nat} (h : s.step locked (.insert t) = some (s', o)) :
    ∃ b kvs kb, s.phase t = .opened b kvs ∧ s.world.builders b = some kb ∧
      o = some (.build kb.instanceId (some kb.normalize.openCall) (.ok s.world.kvsCount)) ∧
      s' = { s with
        world := (s.world.setBuilder b kb.normalize).insertShared kb.instanceId.id kvs
        phase := Function.update s.phase t .idle
        lock := none } := by
  simp only [step] at h
  split at h
  · rename_i b kvs hb
    obtain ⟨kb, hkb, h⟩ := Option.map_eq_some'.mp h
    cases h
    exact ⟨b, kvs, kb, hb, hkb, rfl, rfl⟩
  · cases h

theorem kvsInstances_of_step {e : Event Kvs} (h : s.step locked e = some (s', o))
    (he : e.mayClear = false) {i p : Nat} (hp : s.world.kvsInstances i = some p) :
    s'.world.kvsInstances i = some p := by
  cases e with
  | call t c =>
    obtain ⟨-, -, -, w, ob, hw, rfl, -⟩ := step_call h
    refine World.kvsInstances_of_keep hw ?_ hp
    cases c <;> first | rfl | cases he
  | lookup t b =>
    obtain ⟨-, -, -, kb, -, ⟨_, -, rfl, -⟩ | ⟨-, -, rfl⟩⟩ := step_lookup h <;> simpa using hp
  | kvsOpen t r =>
    obtain ⟨b, kb, -, -, ⟨_, -, -, rfl⟩ | ⟨_, -, -, rfl⟩⟩ := step_kvsOpen h <;> simpa using hp
  | insert t =>
    obtain ⟨b, kvs, kb, -, -, -, rfl⟩ := step_insert h
    exact World.insertShared_kvsInstances_of_some kvs (by simpa using hp)

theorem Run.kvsInstances_keep {evs : List (Event Kvs × Option Obs)} (h : Run locked s evs s')
    (he : ∀ ev ∈ evs, ev.1.mayClear = false) {i p : Nat} (hp : s.world.kvsInstances i = some p) :
    s'.world.kvsInstances i = some p :=
  Run.inv (fun s => s.world.kvsInstances i = some p)
    (fun _ _ _ _ hev hp h₁ => kvsInstances_of_step h₁ (he _ hev) hp) h hp

end Threads

/-! ## With the mutex -/

namespace World

variable {Kvs : Type} {w w' : World Kvs} {c : Call Kvs} {o : Obs}

theorem builders_of_step (hw : w.Wf) (h : w.step c = some (w', o)) {b : Nat}
    (hb : c.builder ≠ some b) {kb : KvsBuilder} (hkb : w.builders b = some kb) :
    w'.builders b = some kb := by
  cases c with
  | kvsBuilder iid =>
    cases h
    simp [Function.update_noteq (Nat.ne_of_lt (hw.lt_of_builders hkb)), hkb]
  | clearCache => cases h; exact hkb
  | dtor b' =>
    obtain ⟨rfl, -⟩ := dtor_step h
    have hne : b ≠ b' := fun hbb => hb (by simp [Call.builder, hbb])
    simp [Function.update_noteq hne, hkb]
  | needDefaultsFlag b' _ | needKvsFlag b' _ | dir b' _ =>
    obtain ⟨_, -, h⟩ := Option.map_eq_some'.mp h
    cases h
    have hne : b ≠ b' := fun hbb => hb (by simp [Call.builder, hbb])
    simp [Function.update_noteq hne, hkb]
  | build b' kvsOpen =>
    obtain ⟨_, -, h⟩ := Option.map_eq_some'.mp h
    have hne : b ≠ b' := fun hbb => hb (by simp [Call.builder, hbb])
    simp [(build_builders h).1, Function.update_noteq hne, hkb]

theorem step_of_not_locks (hw : w.Wf) (h : w.step c = some (w', o)) (hl : c.locks = false)
    {b : Nat} (hb : c.builder ≠ some b) {kb : KvsBuilder} (hkb : w.builders b = some kb) :
    w'.builders b = some kb ∧ w'.kvsInstances = w.kvsInstances := by
  refine ⟨builders_of_step hw h hb hkb, ?_⟩
  rcases step_cases h with ⟨-, -, -, hw'⟩ | ⟨_, _, _, rfl, -, -⟩
  · cases c <;> first | simpa [clearsCache] using hw' | cases hl
  · cases hl

end World

namespace Threads

variable {Kvs : Type} {s s' : Threads Kvs} {o : Option Obs}

/-- What holds between the steps of the threads with the mutex: a thread inside `build` holds
the mutex, on a live builder of its own whose id is not cached. -/
structure Inv (s : Threads Kvs) : Prop where
  wf : s.world.Wf
  busy : ∀ t b, (s.phase t).builder = some b → s.lock = some t ∧ s.owner b = some t ∧
    ∃ kb, s.world.builders b = some kb ∧ s.world.kvsInstances kb.instanceId.id = none

theorem inv_init : (init : Threads Kvs).Inv where
  wf := World.wf_init
  busy _ _ h := nomatch h

theorem Inv.idle_of_lock (hi : s.Inv) {t t' : Nat} (hl : s.lock = some t) (ht : t' ≠ t) :
    (s.phase t').builder = none := by
  cases hb : (s.phase t').builder with
  | none => rfl
  | some b => exact absurd (Option.some.inj ((hi.busy t' b hb).1.symm.trans hl)) ht

theorem Inv.idle_after_release (hi : s.Inv) {t : Nat} (hl : s.lock = some t) (t' : Nat) :
    (Function.update s.phase t .idle t').builder = none := by
  by_cases ht : t' = t
  · subst ht; simp [Phase.builder]
  · simpa [Function.update_noteq ht] using hi.idle_of_lock hl ht

/-- A step that shows nothing leaves the shared state, and a step that ends a call is that call
made whole on the shared state. -/
def Refines (s s' : Threads Kvs) (o : Option Obs) : Prop :=
  (s'.world = s.world ∧ o = none) ∨ ∃ c ob, s.world.step c = some (s'.world, ob) ∧ o = some ob

theorem Inv.of_refines (hi : s.Inv) (hr : Refines s s' o)
    (hbusy : ∀ t b, (s'.phase t).builder = some b → s'.lock = some t ∧ s'.owner b = some t ∧
      ∃ kb, s'.world.builders b = some kb ∧ s'.world.kvsInstances kb.instanceId.id = none) :
    s'.Inv := by
  refine ⟨?_, hbusy⟩
  rcases hr with ⟨hw, -⟩ | ⟨c, ob, h, -⟩
  · exact hw ▸ hi.wf
  · exact Step.wf_post (show Step.Valid ⟨s.world, c, s'.world, ob⟩ from h) hi.wf

theorem refines_call (hi : s.Inv) {t : Nat} {c : Call Kvs}
    (h : s.step true (.call t c) = some (s', o)) : s'.Inv ∧ Refines s s' o := by
  obtain ⟨hidle, hown, hlock, w, ob, hw, rfl, rfl⟩ := step_call h
  have hr : Refines s { s with world := w, owner := s.ownerAfter t c } (some ob) :=
    .inr ⟨c, ob, hw, rfl⟩
  refine ⟨hi.of_refines hr fun t' b hb => ?_, hr⟩
  obtain ⟨hl, ho, kb, hkb, hn⟩ := hi.busy t' b hb
  have ht : t' ≠ t := by rintro rfl; simp [hidle] at hb
  have hcl : c.locks = false := by
    cases hc : c.locks
    · rfl
    · simp [hlock rfl hc] at hl
  have hcb : c.builder ≠ some b := fun hcb =>
    ht (Option.some.inj ((hown b hcb).symm.trans ho)).symm
  obtain ⟨hkb', hinst⟩ := World.step_of_not_locks hi.wf hw hcl hcb hkb
  refine ⟨hl, ?_, kb, hkb', hinst ▸ hn⟩
  cases c
  case kvsBuilder =>
    simpa [ownerAfter, Function.update_noteq (Nat.ne_of_lt (hi.wf.lt_of_builders hkb))] using ho
  all_goals exact ho

theorem refines_lookup (hi : s.Inv) {t b : Nat} (h : s.step true (.lookup t b) = some (s', o)) :
    s'.Inv ∧ Refines s s' o := by
  obtain ⟨hidle, hown, hlock, kb, hkb, ⟨p, hp, rfl, rfl⟩ | ⟨hn, rfl, rfl⟩⟩ := step_lookup h
  · have hr : Refines s { s with world := s.world.setBuilder b kb.normalize }
        (some (.build kb.instanceId none (.ok p))) :=
      .inr ⟨.build b fun _ => .error .UnmappedError, _,
        by simp [World.step, hkb, World.build, hp], rfl⟩
    refine ⟨hi.of_refines hr fun t' b' hb => ?_, hr⟩
    simp [(hi.busy t' b' hb).1] at hlock
  · refine ⟨⟨hi.wf, fun t' b' hb => ?_⟩, .inl ⟨rfl, rfl⟩⟩
    by_cases ht : t' = t
    · subst ht
      simp only [Function.update_same, Phase.builder, Option.some.injEq] at hb
      subst hb
      exact ⟨by simp, hown, kb, hkb, hn⟩
    · simp only [Function.update_noteq ht] at hb
      simp [(hi.busy t' b' hb).1] at hlock

theorem refines_kvsOpen (hi : s.Inv) {t : Nat} {r : Except MyErrorCode Kvs}
    (h : s.step true (.kvsOpen t r) = some (s', o)) : s'.Inv ∧ Refines s s' o := by
  obtain ⟨b, kb, hph, hkb, ⟨kvs, rfl, rfl, rfl⟩ | ⟨e, rfl, rfl, rfl⟩⟩ := step_kvsOpen h <;>
    obtain ⟨hl, -, kb', hkb', hn⟩ := hi.busy t b (by simp [hph, Phase.builder])
  · refine ⟨⟨hi.wf, fun t' b' hb => ?_⟩, .inl ⟨rfl, rfl⟩⟩
    by_cases ht : t' = t
    · subst ht
      simp only [Function.update_same, Phase.builder, Option.some.injEq] at hb
      subst hb
      exact hi.busy t' b (by simp [hph, Phase.builder])
    · exact hi.busy t' b' (by simpa [Function.update_noteq ht] using hb)
  · obtain rfl := Option.some.inj (hkb.symm.trans hkb')
    have hr : Refines s
        { s with
          world := s.world.setBuilder b kb.normalize
          phase := Function.update s.phase t .idle
          lock := none }
        (some (.build kb.instanceId (some kb.normalize.openCall) (.error e))) :=
      .inr ⟨.build b fun _ => .error e, _, by simp [World.step, hkb, World.build, hn], rfl⟩
    exact ⟨hi.of_refines hr fun t' b' hb => by simp [hi.idle_after_release hl t'] at hb, hr⟩

theorem refines_insert (hi : s.Inv) {t : Nat} (h : s.step true (.insert t) = some (s', o)) :
    s'.Inv ∧ Refines s s' o := by
  obtain ⟨b, kvs, kb, hph, hkb, rfl, rfl⟩ := step_insert h
  obtain ⟨hl, -, kb', hkb', hn⟩ := hi.busy t b (by simp [hph, Phase.builder])
  obtain rfl := Option.some.inj (hkb.symm.trans hkb')
  have hw : (s.world.setBuilder b kb.normalize).insertShared kb.instanceId.id kvs =
      (s.world.setBuilder b kb.normalize).cacheNew kb.normalize.instanceId.id kvs := by
    rw [KvsBuilder.normalize_instanceId]
    exact World.insertShared_of_none kvs (by simpa using hn)
  have hr : Refines s
      { s with
        world := (s.world.setBuilder b kb.normalize).insertShared kb.instanceId.id kvs
        phase := Function.update s.phase t .idle
        lock := none }
      (some (.build kb.instanceId (some kb.normalize.openCall) (.ok s.world.kvsCount))) :=
    .inr ⟨.build b fun _ => .ok kvs, _, by simp [World.step, hkb, World.build, hn, hw], rfl⟩
  exact ⟨hi.of_refines hr fun t' b' hb => by simp [hi.idle_after_release hl t'] at hb, hr⟩

/-- With the mutex every step keeps the invariant, and shows nothing and leaves the shared state
or is a whole call of the atomic builder. -/
theorem refines_step (hi : s.Inv) {e : Event Kvs} (h : s.step true e = some (s', o)) :
    s'.Inv ∧ Refines s s' o := by
  cases e with
  | call t c => exact refines_call hi h
  | lookup t b => exact refines_lookup hi h
  | kvsOpen t r => exact refines_kvsOpen hi h
  | insert t => exact refines_insert hi h

theorem Run.refines {evs : List (Event Kvs × Option Obs)} (h : Run true s evs s') (hi : s.Inv) :
    s'.Inv ∧ ∃ trace, Persistency.Run s.world trace s'.world ∧
      trace.map Step.obs = evs.filterMap Prod.snd := by
  induction evs generalizing s with
  | nil => cases h; exact ⟨hi, [], rfl, rfl⟩
  | cons ev evs ih =>
    obtain ⟨e, o⟩ := ev
    obtain ⟨s₁, h₁, h⟩ := h
    obtain ⟨hi₁, hr⟩ := refines_step hi h₁
    obtain ⟨hi', trace, hrun, hobs⟩ := ih h hi₁
    refine ⟨hi', ?_⟩
    rcases hr with ⟨hw, rfl⟩ | ⟨c, ob, hc, rfl⟩
    · exact ⟨trace, hw ▸ hrun, by simpa using hobs⟩
    · exact ⟨⟨s.world, c, s₁.world, ob⟩ :: trace, ⟨rfl, hc, hrun⟩, by simpa using hobs⟩

theorem atomic_of_ends (hi : s.Inv) {e : Event Kvs} {ob : Obs}
    (h : s.step true e = some (s', some ob)) : ∃ c, s.world.step c = some (s'.world, ob) := by
  rcases (refines_step hi h).2 with ⟨-, h0⟩ | ⟨c, ob', hc, h1⟩
  · cases h0
  · cases h1
    exact ⟨c, hc⟩

theorem build_of_cached (hi : s.Inv) {e : Event Kvs} {iid : InstanceId} {oc : Option OpenCall}
    {r : Except MyErrorCode Nat} (h : s.step true e = some (s', some (.build iid oc r))) {p : Nat}
    (hp : s.world.kvsInstances iid.id = some p) : oc = none ∧ r = .ok p :=
  let ⟨_, hc⟩ := atomic_of_ends hi h
  World.build_obs_of_cached hc hp

theorem cached_of_returned (hi : s.Inv) {e : Event Kvs} {ob : Obs}
    (h : s.step true e = some (s', some ob)) {i p : Nat} (hr : ob.returned = some (i, p)) :
    s'.world.kvsInstances i = some p :=
  let ⟨_, hc⟩ := atomic_of_ends hi h
  World.returned_post hc hr

/-- With the mutex, what a `build` returned stays cached until a call of `clear_cache` or of a
destructor. -/
theorem Run.cached_of_returned {evs₁ evs₂ : List (Event Kvs × Option Obs)} {e : Event Kvs}
    {ob : Obs} (h : Run true s (evs₁ ++ (e, some ob) :: evs₂) s') (hi : s.Inv)
    (he : ∀ ev ∈ evs₂, ev.1.mayClear = false) {i p : Nat} (hr : ob.returned = some (i, p)) :
    s'.Inv ∧ s'.world.kvsInstances i = some p := by
  obtain ⟨s₁, h₁, s₂, h₂, h⟩ := Run.append.mp h
  have hi₁ := (h₁.refines hi).1
  exact ⟨(h.refines (refines_step hi₁ h₂).1).1,
    h.kvsInstances_keep he (Threads.cached_of_returned hi₁ h₂ hr)⟩

end Threads

/-- With `kvs_instances_mutex` every interleaving of the threads is a run of the atomic
builder from the start: the calls return what they return there, in the order they return,
and that run ends in the shared state the threads reach. -/
theorem locked_runs_are_atomic {Kvs : Type} {evs : List (Event Kvs × Option Obs)} {s : Threads Kvs}
    (h : Threads.Run true Threads.init evs s) :
    ∃ trace, Run World.init trace s.world ∧ trace.map Step.obs = evs.filterMap Prod.snd :=
  (h.refines Threads.inv_init).2

/-- Two threads, each with a builder for id 1, build at once: the first opens the store while
the second waits for the mutex, and the second then gets the cached instance. -/
def lockedEvents : List (Event Unit) :=
  [.call 0 (.kvsBuilder ⟨1⟩), .call 1 (.kvsBuilder ⟨1⟩), .lookup 0 0, .kvsOpen 0 (.ok ()),
    .insert 0, .lookup 1 1]

def lockedRun : List (Event Unit × Option Obs) × Threads Unit :=
  (Threads.exec true Threads.init lockedEvents).getD ([], Threads.init)

theorem lockedRun_run : Threads.Run true Threads.init lockedRun.1 lockedRun.2 :=
  Threads.Run.of_exec
    (show Threads.exec true Threads.init lockedEvents = some (lockedRun.1, lockedRun.2) from rfl)

theorem lockedRun_atomic :
    Threads.Run true Threads.init lockedRun.1 lockedRun.2 ∧
      ∃ trace, Run World.init trace lockedRun.2.world ∧ trace.map Step.obs = lockedRun.1.filterMap Prod.snd :=
  ⟨lockedRun_run, locked_runs_are_atomic lockedRun_run⟩

/-- With `kvs_instances_mutex`, in every interleaving from the start: once a `build` for an id
has returned an instance, every `build` for that id that ends later, until a thread calls
`clear_cache` or a destructor, returns that same instance and did not call `Kvs::open`. So
between two such calls no two threads get different instances for one id, and at most one call
of `Kvs::open` for the id succeeds. -/
theorem locked_builds_return_cached {Kvs : Type} {pre seg : List (Event Kvs × Option Obs)}
    {s s' : Threads Kvs} (hpre : Threads.Run true Threads.init pre s)
    (hseg : Threads.Run true s seg s') (hclear : ∀ ev ∈ seg, ev.1.mayClear = false)
    {s₁ s₂ : List (Event Kvs × Option Obs)} {e : Event Kvs} {ob : Obs} {i p : Nat}
    (hsplit : seg = s₁ ++ (e, some ob) :: s₂) (hret : ob.returned = some (i, p)) {e' : Event Kvs}
    {iid : InstanceId} {oc : Option OpenCall} {r : Except MyErrorCode Nat}
    (hlater : (e', some (.build iid oc r)) ∈ s₂) (hid : iid.id = i) :
    oc = none ∧ r = .ok p := by
  subst hsplit hid
  obtain ⟨s₃, s₄, rfl⟩ := List.append_of_mem hlater
  rw [← List.cons_append, ← List.append_assoc] at hseg
  obtain ⟨sc, hc, sd, hstep, -⟩ := Threads.Run.append.mp hseg
  obtain ⟨hi, hp⟩ := hc.cached_of_returned (hpre.refines Threads.inv_init).1
    (fun ev hev => hclear ev (by simp [hev])) hret
  exact Threads.build_of_cached hi hstep hp

theorem lockedRun_returns_cached :
    (∀ ev ∈ lockedRun.1, ev.1.mayClear = false) ∧
      lockedRun.1 = lockedRun.1.take 4 ++
        [(.insert 0, some (.build ⟨1⟩ (some ⟨⟨1⟩, .Optional, .Optional, "./data_folder/"⟩) (.ok 0))),
          (.lookup 1 1, some (.build ⟨1⟩ none (.ok 0)))] ∧
      ((none : Option OpenCall) = none ∧ (.ok 0 : Except MyErrorCode Nat) = .ok 0) :=
  ⟨by decide, rfl, locked_builds_return_cached
    (show Threads.Run true Threads.init ([] : List (Event Unit × Option Obs)) Threads.init from rfl)
    lockedRun_run (by decide)
    (show lockedRun.1 = lockedRun.1.take 4 ++
      [(.insert 0, some (.build ⟨1⟩ (some ⟨⟨1⟩, .Optional, .Optional, "./data_folder/"⟩) (.ok 0))),
        (.lookup 1 1, some (.build ⟨1⟩ none (.ok 0)))] from rfl)
    rfl (List.mem_singleton_self _) rfl⟩

end Persistency
