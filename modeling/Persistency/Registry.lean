import Mathlib.Logic.Function.Basic

/-! # What the cache is for

A registry of open stores shared by all builders: at most one instance for each id, handed to
everyone who asks for that id until the registry is reset. A new instance, handed out to no
one before, is registered only for an id that has none. Between two resets an id is
therefore registered at most once, and whoever asks for it after that gets the same instance.
-/

namespace Persistency
set_option autoImplicit false

/-- The registry: the instance registered for each id, and the next fresh instance. -/
@[ext] structure Registry where
  entries : Nat → Option Nat
  next : Nat
  lt_next : ∀ i p, entries i = some p → p < next
  inj : ∀ i j p, entries i = some p → entries j = some p → i = j

/-- One request on the registry: none, a reset, handing out `p` for `i`, registering the fresh
instance `p` for `i`, or a failed attempt to register one for `i`. -/
inductive Registry.Op
  | keep
  | reset
  | hit (i p : Nat)
  | register (i p : Nat)
  | fail (i : Nat)
  deriving DecidableEq

def Registry.Op.registered : Registry.Op → Option Nat
  | .register i _ => some i
  | _ => none

namespace Registry

def empty : Registry where
  entries _ := none
  next := 0
  lt_next _ _ h := nomatch h
  inj _ _ _ h := nomatch h

@[simps]
def reset (r : Registry) : Registry where
  entries _ := none
  next := r.next
  lt_next _ _ h := nomatch h
  inj _ _ _ h := nomatch h

@[simps]
def register (r : Registry) (i : Nat) : Registry where
  entries := Function.update r.entries i (some r.next)
  next := r.next + 1
  lt_next j p h := by
    by_cases hj : j = i
    · subst hj
      simp only [Function.update_same, Option.some.injEq] at h
      omega
    · rw [Function.update_noteq hj] at h
      exact Nat.lt_succ_of_lt (r.lt_next j p h)
  inj j k p hj hk := by
    by_cases hji : j = i <;> by_cases hki : k = i
    · rw [hji, hki]
    · subst hji
      simp only [Function.update_same, Option.some.injEq, Function.update_noteq hki] at hj hk
      exact absurd (r.lt_next k p hk) (by omega)
    · subst hki
      simp only [Function.update_same, Option.some.injEq, Function.update_noteq hji] at hj hk
      exact absurd (r.lt_next j p hj) (by omega)
    · rw [Function.update_noteq hji] at hj
      rw [Function.update_noteq hki] at hk
      exact r.inj j k p hj hk

/-- A request, when its guard holds. -/
def apply (r : Registry) : Op → Option Registry
  | .keep => some r
  | .reset => some r.reset
  | .hit i p => if r.entries i = some p then some r else none
  | .register i p => if r.entries i = none ∧ p = r.next then some (r.register i) else none
  | .fail i => if r.entries i = none then some r else none

def applyAll (r : Registry) : List Op → Option Registry
  | [] => some r
  | op :: ops => (r.apply op).bind fun r' => r'.applyAll ops

variable {r r' : Registry} {op : Op} {ops : List Op} {i p : Nat}

theorem apply_register (h : r.apply (.register i p) = some r') :
    r.entries i = none ∧ p = r.next ∧ r'.entries i = some p := by
  simp only [apply] at h
  split at h
  · rename_i hg
    cases h
    exact ⟨hg.1, hg.2, by simp [register, hg.2]⟩
  · cases h

theorem apply_hit (h : r.apply (.hit i p) = some r') : r.entries i = some p ∧ r' = r := by
  simp only [apply] at h
  split at h
  · exact ⟨‹_›, (Option.some.inj h).symm⟩
  · cases h

theorem apply_fail (h : r.apply (.fail i) = some r') : r.entries i = none ∧ r' = r := by
  simp only [apply] at h
  split at h
  · exact ⟨‹_›, (Option.some.inj h).symm⟩
  · cases h

theorem apply_entries (h : r.apply op = some r') (hop : op ≠ .reset) (hi : r.entries i = some p) :
    r'.entries i = some p := by
  cases op with
  | keep => rwa [← Option.some.inj h]
  | reset => exact absurd rfl hop
  | hit j q => rwa [(apply_hit h).2]
  | fail j => rwa [(apply_fail h).2]
  | register j q =>
    obtain ⟨hj, -, -⟩ := apply_register h
    simp only [apply, hj, true_and] at h
    split at h
    · cases h
      have hne : i ≠ j := by rintro rfl; simp [hj] at hi
      simpa [register, Function.update_noteq hne] using hi
    · cases h

/-- Without a reset, once `i` has the instance `p` no request registers `i` again or fails on
it, and every request that is handed `i`'s instance is handed `p`. -/
theorem applyAll_of_registered (h : r.applyAll ops = some r') (hno : ∀ op ∈ ops, op ≠ .reset)
    (hi : r.entries i = some p) :
    ∀ op ∈ ops, (∀ q, op ≠ .register i q) ∧ op ≠ .fail i ∧ ∀ q, op = .hit i q → q = p := by
  induction ops generalizing r with
  | nil => intro _ h; cases h
  | cons op ops ih =>
    obtain ⟨r₁, h₁, h⟩ := Option.bind_eq_some.mp h
    intro op' hop'
    rcases List.mem_cons.mp hop' with rfl | hop'
    · refine ⟨fun q hq => ?_, fun hq => ?_, fun q hq => ?_⟩ <;> subst hq
      · simp [(apply_register h₁).1] at hi
      · simp [(apply_fail h₁).1] at hi
      · exact Option.some.inj ((apply_hit h₁).1.symm.trans hi)
    · exact ih h (fun op h => hno op (List.mem_cons_of_mem _ h))
        (apply_entries h₁ (hno op (List.mem_cons_self _ _)) hi) op' hop'

/-- Without a reset, an id is registered at most once. -/
theorem countP_registered_le_one (h : r.applyAll ops = some r') (hno : ∀ op ∈ ops, op ≠ .reset)
    (i : Nat) : ops.countP (fun op => op.registered = some i) ≤ 1 := by
  induction ops generalizing r with
  | nil => simp
  | cons op ops ih =>
    obtain ⟨r₁, h₁, hrest⟩ := Option.bind_eq_some.mp h
    have hno' := fun op h => hno op (List.mem_cons_of_mem _ h)
    clear h hno
    rw [List.countP_cons]
    cases op with
    | register j p =>
      by_cases hj : j = i
      · subst hj
        have hafter := applyAll_of_registered hrest hno' (apply_register h₁).2.2
        have hzero : ops.countP (fun op => op.registered = some j) = 0 :=
          List.countP_eq_zero.mpr fun op hop hreg => by
            cases op <;> simp [Op.registered] at hreg
            subst hreg
            exact (hafter _ hop).1 _ rfl
        rw [hzero]
        simp [Op.registered]
      · simpa [Op.registered, hj] using ih hrest hno'
    | _ => simpa [Op.registered] using ih hrest hno'

end Registry

end Persistency
