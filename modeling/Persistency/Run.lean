import Persistency.Step

/-! # Runs of the builder API

A run is the list of the steps the program took, each with the state before and after it.
Under the two mutexes of the builder every call is one step, so a run is any interleaving of
the calls of any number of threads. `exec` computes the run of a list of calls; the facts
about every run are proved by one induction over the list, each from the lemmas of one step.
-/

namespace Persistency
set_option autoImplicit false

/-- One executed call: the state before it, the call, the state after it and what it showed. -/
structure Step (Kvs : Type) where
  pre : World Kvs
  call : Call Kvs
  post : World Kvs
  obs : Obs

namespace Step
variable {Kvs : Type}

def Valid (st : Step Kvs) : Prop := st.pre.step st.call = some (st.post, st.obs)

def clearsCache (st : Step Kvs) : Bool := st.pre.clearsCache st.call

end Step

variable {Kvs : Type}

/-- `Run w trace w'`: the steps of `trace`, one after the other, take `w` to `w'`. -/
def Run : World Kvs → List (Step Kvs) → World Kvs → Prop
  | w, [], w' => w' = w
  | w, st :: trace, w' => st.pre = w ∧ st.Valid ∧ Run st.post trace w'

def exec (w : World Kvs) : List (Call Kvs) → Option (List (Step Kvs) × World Kvs)
  | [] => some ([], w)
  | c :: cs => (w.step c).bind fun (w₁, o) =>
      (exec w₁ cs).map fun (trace, w₂) => (⟨w, c, w₁, o⟩ :: trace, w₂)

namespace Run

variable {w w' w'' : World Kvs} {trace : List (Step Kvs)}

@[simp] theorem nil_iff : Run w [] w' ↔ w' = w := Iff.rfl

@[simp] theorem cons_iff {st : Step Kvs} :
    Run w (st :: trace) w' ↔ st.pre = w ∧ st.Valid ∧ Run st.post trace w' := Iff.rfl

theorem of_exec {cs : List (Call Kvs)} (h : exec w cs = some (trace, w')) : Run w trace w' := by
  induction cs generalizing w trace with
  | nil =>
    obtain ⟨rfl, rfl⟩ := Prod.mk.inj (Option.some.inj h)
    rfl
  | cons c cs ih =>
    obtain ⟨⟨w₁, o⟩, hstep, h⟩ := Option.bind_eq_some.mp h
    obtain ⟨⟨trace', w₂⟩, hrest, h⟩ := Option.map_eq_some'.mp h
    obtain ⟨rfl, rfl⟩ := Prod.mk.inj h
    exact ⟨rfl, hstep, ih hrest⟩

theorem append {a b : List (Step Kvs)} : Run w (a ++ b) w'' ↔ ∃ w', Run w a w' ∧ Run w' b w'' := by
  induction a generalizing w with
  | nil => simp [eq_comm]
  | cons st a ih => simp [ih, and_assoc, exists_and_left]

theorem valid (h : Run w trace w') {st : Step Kvs} (hst : st ∈ trace) : st.Valid := by
  induction trace generalizing w with
  | nil => cases hst
  | cons st' trace ih =>
    rcases List.mem_cons.mp hst with rfl | hst
    · exact h.2.1
    · exact ih h.2.2 hst

theorem of_mem (h : Run w trace w') {st : Step Kvs} (hst : st ∈ trace) :
    ∃ a b, trace = a ++ st :: b ∧ Run w a st.pre ∧ Run st.post b w' := by
  obtain ⟨a, b, rfl⟩ := List.append_of_mem hst
  obtain ⟨w₁, ha, hb⟩ := append.mp h
  exact ⟨a, b, rfl, hb.1 ▸ ha, hb.2.2⟩

theorem inv (P : World Kvs → Prop) (hstep : ∀ st : Step Kvs, st.Valid → P st.pre → P st.post)
    (h : Run w trace w') (hw : P w) : P w' := by
  induction trace generalizing w with
  | nil => exact h ▸ hw
  | cons st trace ih => exact ih h.2.2 (hstep st h.2.1 (h.1 ▸ hw))

end Run

def Reachable (w : World Kvs) : Prop := ∃ trace, Run World.init trace w

/-- What every reachable state satisfies. -/
structure World.Wf (w : World Kvs) : Prop where
  builders_none : ∀ b, w.builderCount ≤ b → w.builders b = none
  latest_eq : ∀ l, w.latestInstance = some l ↔ w.builderCount = l + 1
  kvsInstances_none : w.builderCount = 0 → ∀ i, w.kvsInstances i = none
  kvsInstances_lt : ∀ i p, w.kvsInstances i = some p → p < w.kvsCount
  kvsObjects_isSome : ∀ p, (w.kvsObjects p).isSome ↔ p < w.kvsCount
  kvsInstances_inj : ∀ i j p, w.kvsInstances i = some p → w.kvsInstances j = some p → i = j

theorem World.wf_init : (World.init : World Kvs).Wf where
  builders_none _ _ := rfl
  latest_eq l := by simp [World.init]
  kvsInstances_none _ _ := rfl
  kvsInstances_lt _ _ h := by cases h
  kvsObjects_isSome p := by simp [World.init]
  kvsInstances_inj _ _ _ h := by cases h

namespace Step

variable {st : Step Kvs}

theorem builders_none_post (hv : st.Valid) (hw : st.pre.Wf) (b : Nat)
    (hb : st.post.builderCount ≤ b) : st.post.builders b = none := by
  rcases World.step_builders hv with ⟨iid, -, hpost⟩ | ⟨-, hn, halive⟩
  · rw [hpost] at hb ⊢
    simp only [World.kvsBuilder_builderCount] at hb
    simp [Function.update_noteq (show b ≠ st.pre.builderCount by omega),
      hw.builders_none b (by omega)]
  · cases hpost : st.post.builders b with
    | none => rfl
    | some kb => simpa [hw.builders_none b (hn ▸ hb)] using ((halive b).mp (by simp [hpost])).1

theorem latest_eq_post (hv : st.Valid) (hw : st.pre.Wf) (l : Nat) :
    st.post.latestInstance = some l ↔ st.post.builderCount = l + 1 := by
  rcases World.step_builders hv with ⟨iid, -, hpost⟩ | ⟨hl, hn, -⟩
  · simp [hpost, eq_comm]
  · rw [hl, hn]
    exact hw.latest_eq l

theorem kvsInstances_none_post (hv : st.Valid) (hw : st.pre.Wf) (h0 : st.post.builderCount = 0)
    (i : Nat) : st.post.kvsInstances i = none := by
  rcases World.step_builders hv with ⟨iid, -, hpost⟩ | ⟨-, hn, -⟩
  · simp [hpost] at h0
  · cases hi : st.post.kvsInstances i with
    | none => rfl
    | some p =>
      rcases World.kvsInstances_eq_some hv hi with hi | hi
      · simp [hw.kvsInstances_none (hn ▸ h0) i] at hi
      · rcases World.step_cases hv with ⟨ho, -, -, -⟩ | ⟨b, kb, -, -, hkb, -⟩
        · simp [ho, Obs.inserted] at hi
        · simp [hw.builders_none b (by omega)] at hkb

theorem kvsInstances_lt_post (hv : st.Valid) (hw : st.pre.Wf) {i p : Nat}
    (hi : st.post.kvsInstances i = some p) : p < st.post.kvsCount := by
  cases hins : st.obs.inserted with
  | none =>
    rcases World.kvsInstances_eq_some hv hi with hi | hi
    · exact World.kvsCount_step hv hins ▸ hw.kvsInstances_lt i p hi
    · simp [hins] at hi
  | some ip =>
    obtain ⟨-, -, -, hc⟩ := World.inserted_step hv hins
    rcases World.kvsInstances_eq_some hv hi with hi | hi
    · exact hc ▸ Nat.lt_succ_of_lt (hw.kvsInstances_lt i p hi)
    · obtain ⟨-, rfl, -, -⟩ := World.inserted_step hv hi
      exact hc ▸ Nat.lt_succ_self _

theorem kvsObjects_isSome_post (hv : st.Valid) (hw : st.pre.Wf) (p : Nat) :
    (st.post.kvsObjects p).isSome ↔ p < st.post.kvsCount := by
  rcases World.kvsObjects_step hv with ⟨hins, ho⟩ | ⟨b, kb, kvsOpen, kvs, -, -, -, hins, ho⟩
  · rw [ho, World.kvsCount_step hv hins]
    exact hw.kvsObjects_isSome p
  · rw [ho, (World.inserted_step hv hins).2.2.2]
    by_cases hp : p = st.pre.kvsCount
    · subst hp; simp
    · simp [Function.update_noteq hp, hw.kvsObjects_isSome p]
      omega

theorem kvsInstances_inj_post (hv : st.Valid) (hw : st.pre.Wf) {i j p : Nat}
    (hi : st.post.kvsInstances i = some p) (hj : st.post.kvsInstances j = some p) : i = j := by
  rcases World.kvsInstances_eq_some hv hi with hi' | hi' <;>
    rcases World.kvsInstances_eq_some hv hj with hj' | hj'
  · exact hw.kvsInstances_inj i j p hi' hj'
  · have := hw.kvsInstances_lt i p hi'
    have := (World.inserted_step hv hj').2.1
    omega
  · have := hw.kvsInstances_lt j p hj'
    have := (World.inserted_step hv hi').2.1
    omega
  · rw [hi'] at hj'
    exact (Prod.mk.inj (Option.some.inj hj')).1

theorem wf_post (hv : st.Valid) (hw : st.pre.Wf) : st.post.Wf where
  builders_none := builders_none_post hv hw
  latest_eq := latest_eq_post hv hw
  kvsInstances_none := kvsInstances_none_post hv hw
  kvsInstances_lt _ _ := kvsInstances_lt_post hv hw
  kvsObjects_isSome := kvsObjects_isSome_post hv hw
  kvsInstances_inj _ _ _ := kvsInstances_inj_post hv hw

end Step

theorem Reachable.wf {w : World Kvs} (h : Reachable w) : w.Wf :=
  h.elim fun _ hr => Run.inv World.Wf (fun _ hv hw => Step.wf_post hv hw) hr World.wf_init

theorem Run.reachable_pre {w : World Kvs} {trace : List (Step Kvs)} (h : Run World.init trace w)
    {st : Step Kvs} (hst : st ∈ trace) : Reachable st.pre :=
  let ⟨a, _, _, ha, _⟩ := h.of_mem hst
  ⟨a, ha⟩

theorem Run.builderCount_le {w w' : World Kvs} {trace : List (Step Kvs)} (h : Run w trace w') :
    w.builderCount ≤ w'.builderCount :=
  Run.inv (fun v => w.builderCount ≤ v.builderCount)
    (fun _ hv hle => Nat.le_trans hle (World.builderCount_le_step hv)) h (Nat.le_refl _)

theorem World.Wf.lt_of_builders {w : World Kvs} (hw : w.Wf) {b : Nat} {kb : KvsBuilder}
    (hkb : w.builders b = some kb) : b < w.builderCount :=
  Nat.lt_of_not_le fun hge => by simp [hw.builders_none b hge] at hkb

theorem World.Wf.builders_none_iff {w : World Kvs} (hw : w.Wf) :
    (∀ b, w.builders b = none) ↔ ∀ b < w.builderCount, w.builders b = none :=
  ⟨fun h b _ => h b, fun h b =>
    if hb : b < w.builderCount then h b hb else hw.builders_none b (by omega)⟩

end Persistency
