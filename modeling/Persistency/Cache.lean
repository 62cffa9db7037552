import Persistency.Run
import Persistency.Registry

/-! # One instance per id between two clears

On a reachable state the cache and the count of `Kvs` objects form a `Registry`, and every
step is one request on it: a clear resets it, a `build` is handed the cached instance,
registers a new one or fails, and every other call keeps it. Between two clears of
`kvs_instances`, by `clear_cache` or by the destructor of the latest builder, `build` therefore
opens a store for an id at most once, and every later `build` for that id hands out the very
`shared_ptr` of that one success.
-/

namespace Persistency
set_option autoImplicit false

variable {Kvs : Type} {w w' : World Kvs} {seg : List (Step Kvs)}

/-- What the cache guarantees for id `i` over a stretch `seg` of a run. -/
structure OpensOnce (seg : List (Step Kvs)) (i : Nat) : Prop where
  opened_absent : ∀ st ∈ seg, ∀ oc, st.obs.opened = some oc → oc.instanceId.id = i →
    st.pre.kvsInstances i = none
  inserted_le_one : seg.countP (fun st => st.obs.inserted.map Prod.fst = some i) ≤ 1
  returned_eq : ∀ s₁ st s₂ p, seg = s₁ ++ st :: s₂ → st.obs.inserted = some (i, p) →
    ∀ st' ∈ s₂, ∀ q, st'.obs.returned = some (i, q) → q = p
  open_error_keeps : ∀ st ∈ seg, ∀ iid oc e, st.obs = .build iid oc (.error e) →
    st.post.kvsInstances = st.pre.kvsInstances

def World.registry (w : World Kvs) (hw : w.Wf) : Registry where
  entries := w.kvsInstances
  next := w.kvsCount
  lt_next := hw.kvsInstances_lt
  inj := hw.kvsInstances_inj

@[simp] theorem World.registry_entries (w : World Kvs) (hw : w.Wf) :
    (w.registry hw).entries = w.kvsInstances := rfl

@[simp] theorem World.registry_next (w : World Kvs) (hw : w.Wf) : (w.registry hw).next = w.kvsCount := rfl

namespace Step

/-- The request a step makes of the registry. -/
def registryOp (st : Step Kvs) : Registry.Op :=
  if st.clearsCache then .reset
  else
    match st.obs with
    | .build iid none (.ok p) => .hit iid.id p
    | .build iid (some _) (.ok p) => .register iid.id p
    | .build iid (some _) (.error _) => .fail iid.id
    | _ => .keep

variable {st : Step Kvs}

theorem registryOp_ne_reset (hc : st.clearsCache = false) : st.registryOp ≠ .reset := by
  simp only [registryOp, hc, Bool.false_eq_true, ↓reduceIte]
  split <;> simp

theorem registered_registryOp (hc : st.clearsCache = false) :
    st.registryOp.registered = st.obs.inserted.map Prod.fst := by
  simp only [registryOp, hc, Bool.false_eq_true, ↓reduceIte]
  rcases st.obs with _ | ⟨iid, _ | oc, _ | p⟩ <;> rfl

theorem registryOp_of_returned (hc : st.clearsCache = false) {i q : Nat}
    (hr : st.obs.returned = some (i, q)) : st.registryOp = .hit i q ∨ st.registryOp = .register i q := by
  simp only [registryOp, hc, Bool.false_eq_true, ↓reduceIte]
  revert hr
  rcases st.obs with _ | ⟨iid, _ | oc, _ | p⟩ <;> simp [Obs.returned]

/-- The builder refines the registry: a step is accepted as the request it makes, and takes
the registry of its state to that of the next. -/
theorem registry_post (hv : st.Valid) (hw : st.pre.Wf) :
    (st.pre.registry hw).apply st.registryOp = some (st.post.registry (wf_post hv hw)) := by
  rcases World.step_cases hv with ⟨ho, hc, -, hk⟩ | ⟨b, kb, kvsOpen, hcall, -, h⟩
  · unfold registryOp
    rw [ho, show st.pre.clearsCache st.call = st.clearsCache from rfl] at *
    cases hcl : st.clearsCache <;> simp only [hcl] at hk ⊢ <;>
      exact congrArg some (Registry.ext hk.symm hc.symm)
  · have hcl : st.clearsCache = false := by simp [clearsCache, World.clearsCache, hcall]
    rcases World.build_cases h with
        ⟨p, hi, ho, hpost⟩ | ⟨hi, kvs, -, ho, hpost⟩ | ⟨hi, e, -, ho, hpost⟩ <;>
      simp only [registryOp, hcl, ho, hi, Bool.false_eq_true, ↓reduceIte, Registry.apply,
        World.registry_entries, World.registry_next, and_self] <;>
      exact congrArg some (Registry.ext (funext fun _ => by simp [hpost, Function.update_apply])
        (by simp [hpost]))

end Step

namespace Run

theorem registry_applyAll (h : Run w seg w') (hw : w.Wf) :
    ∃ hw' : w'.Wf, (w.registry hw).applyAll (seg.map Step.registryOp) = some (w'.registry hw') := by
  induction seg generalizing w with
  | nil => obtain rfl := h; exact ⟨hw, rfl⟩
  | cons st seg ih =>
    obtain ⟨rfl, hv, h⟩ := h
    obtain ⟨hw', hall⟩ := ih h (Step.wf_post hv hw)
    exact ⟨hw', by
      simp only [List.map_cons, Registry.applyAll, Step.registry_post hv hw, Option.some_bind, hall]⟩

theorem registryOp_ne_reset (hseg : ∀ st ∈ seg, st.clearsCache = false) :
    ∀ op ∈ seg.map Step.registryOp, op ≠ .reset := by
  simpa using fun st hst => Step.registryOp_ne_reset (hseg st hst)

theorem countP_inserted_le_one (h : Run w seg w') (hw : w.Wf) (hseg : ∀ st ∈ seg, st.clearsCache = false)
    (i : Nat) : seg.countP (fun st => st.obs.inserted.map Prod.fst = some i) ≤ 1 := by
  obtain ⟨_, hall⟩ := h.registry_applyAll hw
  calc seg.countP (fun st => st.obs.inserted.map Prod.fst = some i)
      = (seg.map Step.registryOp).countP (fun op => op.registered = some i) := by
        rw [List.countP_map]
        exact List.countP_congr fun st hst => by simp [Step.registered_registryOp (hseg st hst)]
    _ ≤ 1 := Registry.countP_registered_le_one hall (registryOp_ne_reset hseg) i

theorem returned_eq_of_inserted (h : Run w seg w') (hw : w.Wf) (hseg : ∀ st ∈ seg, st.clearsCache = false)
    {i : Nat} {s₁ s₂ : List (Step Kvs)} {st : Step Kvs} {p : Nat} (hsplit : seg = s₁ ++ st :: s₂)
    (hins : st.obs.inserted = some (i, p)) {st' : Step Kvs} (hst' : st' ∈ s₂) {q : Nat}
    (hret : st'.obs.returned = some (i, q)) : q = p := by
  subst hsplit
  obtain ⟨_, h₁, rfl, hv, h₂⟩ := append.mp h
  obtain ⟨hw₁, -⟩ := h₁.registry_applyAll hw
  have hw₂ := Step.wf_post hv hw₁
  obtain ⟨_, hall⟩ := h₂.registry_applyAll hw₂
  have hafter := Registry.applyAll_of_registered hall
    (registryOp_ne_reset fun st h => hseg st (by simp [h]))
    (show (st.post.registry hw₂).entries i = some p from (World.inserted_step hv hins).2.2.1)
    _ (List.mem_map_of_mem _ hst')
  rcases Step.registryOp_of_returned (hseg st' (by simp [hst'])) hret with hop | hop
  · exact hafter.2.2 q hop
  · exact absurd hop (hafter.1 q)

end Run

/-- Between two consecutive clears of the cache, in any run from the start: `Kvs::open` is
called for an id only while the id is not cached, at most one such call succeeds, every later
successful `build` for the id returns the instance that success produced, and a `build`
whose call to `Kvs::open` fails leaves the cache exactly as it was. -/
theorem build_caches_once_between_clears {trace : List (Step Kvs)} {w : World Kvs}
    (hrun : Run World.init trace w) {pre seg post : List (Step Kvs)}
    (hsplit : trace = pre ++ seg ++ post) (hseg : ∀ st ∈ seg, st.clearsCache = false) (i : Nat) :
    OpensOnce seg i := by
  subst hsplit
  obtain ⟨_, hfront, -⟩ := Run.append.mp hrun
  obtain ⟨_, hpre, h⟩ := Run.append.mp hfront
  have hw := Reachable.wf ⟨pre, hpre⟩
  refine ⟨fun st hst oc ho hi => ?_, h.countP_inserted_le_one hw hseg i,
    fun s₁ st s₂ p hs hins st' hst' q hret => h.returned_eq_of_inserted hw hseg hs hins hst' hret,
    fun st hst iid oc e ho => World.kvsInstances_of_open_error (h.valid hst) ho⟩
  exact hi ▸ (World.opened_step (h.valid hst) ho).1

/-- One builder for id 1 fails to open, then opens; a second builder for id 1 with another
directory gets the cached instance; after `clear_cache` the id is opened again. -/
def reopenCalls : List (Call Unit) :=
  [.kvsBuilder ⟨1⟩, .build 0 (fun _ => .error .KvsFileReadError), .build 0 (fun _ => .ok ()),
    .kvsBuilder ⟨1⟩, .dir 1 "./kvsbuilder/", .build 1 (fun _ => .ok ()), .clearCache,
    .build 1 (fun _ => .ok ())]

def reopenRun : List (Step Unit) × World Unit := (exec World.init reopenCalls).getD ([], World.init)

theorem reopenRun_run : Run World.init reopenRun.1 reopenRun.2 :=
  Run.of_exec (show exec World.init reopenCalls = some (reopenRun.1, reopenRun.2) from rfl)

theorem reopenRun_opens_once :
    Run World.init reopenRun.1 reopenRun.2 ∧ (∀ st ∈ reopenRun.1.take 6, st.clearsCache = false) ∧
      OpensOnce (reopenRun.1.take 6) 1 :=
  ⟨reopenRun_run, by decide, build_caches_once_between_clears reopenRun_run
    (show reopenRun.1 = [] ++ reopenRun.1.take 6 ++ reopenRun.1.drop 6 by simp) (by decide) 1⟩

/-- The builder refines the registry: every run from the start is a sequence of requests the
empty registry accepts, and it ends in the registry of the run's last state. -/
theorem run_refines_registry {trace : List (Step Kvs)} (hrun : Run World.init trace w) :
    ∃ hw : w.Wf, Registry.empty.applyAll (trace.map Step.registryOp) = some (w.registry hw) :=
  hrun.registry_applyAll World.wf_init

theorem reopenRun_refines_registry :
    reopenRun.1.map Step.registryOp =
        [.keep, .fail 1, .register 1 0, .keep, .keep, .hit 1 0, .reset, .register 1 1] ∧
      ∃ hw : reopenRun.2.Wf,
        Registry.empty.applyAll (reopenRun.1.map Step.registryOp) = some (reopenRun.2.registry hw) :=
  ⟨rfl, run_refines_registry reopenRun_run⟩

end Persistency
