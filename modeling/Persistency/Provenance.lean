import Persistency.Cache

/-! # Where a returned instance comes from

The cache is keyed by the instance id alone. A `build` for an id that is cached returns the
instance cached for it, whatever directory and flags its own builder holds; only a `build`
that finds the id absent opens a store with its own builder's members.
-/

namespace Persistency
set_option autoImplicit false

variable {Kvs : Type} {w w' : World Kvs} {trace : List (Step Kvs)}

theorem Run.kvsInstances_origin (h : Run w trace w') {i p : Nat}
    (hi : w'.kvsInstances i = some p) :
    w.kvsInstances i = some p ∨ ∃ st ∈ trace, st.obs.inserted = some (i, p) := by
  induction trace generalizing w with
  | nil => exact .inl (h ▸ hi)
  | cons st trace ih =>
    obtain ⟨rfl, hv, h⟩ := h
    rcases ih h with hpost | ⟨st', hst', hins⟩
    · exact (World.kvsInstances_eq_some hv hpost).imp_right
        fun hins => ⟨st, List.mem_cons_self _ _, hins⟩
    · exact .inr ⟨st', List.mem_cons_of_mem _ hst', hins⟩

theorem Step.opened_of_inserted {st : Step Kvs} (hv : st.Valid) {i p : Nat}
    (hins : st.obs.inserted = some (i, p)) :
    ∃ b kb kvsOpen, st.call = .build b kvsOpen ∧ st.pre.builders b = some kb ∧
      kb.instanceId.id = i ∧ st.obs.opened = some kb.normalize.openCall := by
  obtain ⟨iid, oc, rfl, ho⟩ := Obs.inserted_eq_some hins
  obtain ⟨-, b, kb, kvsOpen, r, hc, hkb, rfl, ho'⟩ :=
    World.opened_step hv (show st.obs.opened = some oc by simp [ho, Obs.opened])
  obtain ⟨rfl, -, -⟩ := Obs.build.inj (ho.symm.trans ho')
  exact ⟨b, kb, kvsOpen, hc, hkb, rfl, by simp [ho, Obs.opened]⟩

/-- Where the instance `p` returned by the step `st`, a `build` of builder `b`, comes from:
`Kvs::open` produced it for `b`'s instance id `i`. When `i` was not cached, `st` itself made the
call, with `b`'s flags and its directory after normalisation; otherwise a `build` of a builder
`b₀` with the same id made it earlier, in `s₁`, with `b₀`'s own normalised members. -/
def OpenedFor (s₁ : List (Step Kvs)) (st : Step Kvs) (b i p : Nat) : Prop :=
  ∃ kb, st.pre.builders b = some kb ∧ kb.instanceId.id = i ∧
    ((st.pre.kvsInstances i = none ∧ st.obs.opened = some kb.normalize.openCall ∧
        st.obs.inserted = some (i, p)) ∨
      (st.pre.kvsInstances i = some p ∧ st.obs.opened = none ∧
        ∃ st₀ ∈ s₁, ∃ b₀ kb₀ kvsOpen₀, st₀.call = .build b₀ kvsOpen₀ ∧
          st₀.pre.builders b₀ = some kb₀ ∧ kb₀.instanceId.id = i ∧
          st₀.obs.opened = some kb₀.normalize.openCall ∧ st₀.obs.inserted = some (i, p)))

/-- Every successful `build` in a run from the start returns an instance that `Kvs::open`
produced for its builder's instance id; the directory of that call is the builder's own only
when the id was not cached. -/
theorem build_returns_opened_instance {w : World Kvs} (hrun : Run World.init trace w)
    {s₁ s₂ : List (Step Kvs)} {st : Step Kvs} (hsplit : trace = s₁ ++ st :: s₂) {b : Nat}
    {kvsOpen : OpenCall → Except MyErrorCode Kvs} (hcall : st.call = .build b kvsOpen)
    {i p : Nat} (hret : st.obs.returned = some (i, p)) : OpenedFor s₁ st b i p := by
  subst hsplit
  obtain ⟨_, h₁, rfl, hv, -⟩ := Run.append.mp hrun
  have hv' := hv
  rw [Step.Valid, hcall] at hv'
  obtain ⟨kb, hkb, hbuild⟩ := Option.map_eq_some'.mp hv'
  rcases World.build_cases hbuild with ⟨p', hp', ho, -⟩ | ⟨hn, kvs, -, ho, -⟩ | ⟨-, e, -, ho, -⟩
  · rw [ho] at hret
    obtain ⟨rfl, rfl⟩ := Prod.mk.inj (Option.some.inj hret)
    refine ⟨kb, hkb, rfl, .inr ⟨hp', by simp [ho, Obs.opened], ?_⟩⟩
    rcases h₁.kvsInstances_origin hp' with hinit | ⟨st₀, hst₀, hins⟩
    · cases hinit
    · obtain ⟨b₀, kb₀, kvsOpen₀, hc₀, hkb₀, hid₀, ho₀⟩ :=
        Step.opened_of_inserted (h₁.valid hst₀) hins
      exact ⟨st₀, hst₀, b₀, kb₀, kvsOpen₀, hc₀, hkb₀, hid₀, ho₀, hins⟩
  · rw [ho] at hret
    obtain ⟨rfl, rfl⟩ := Prod.mk.inj (Option.some.inj hret)
    exact ⟨kb, hkb, rfl, .inl ⟨hn, by simp [ho, Obs.opened], by simp [ho, Obs.inserted]⟩⟩
  · simp [ho, Obs.returned] at hret

/-- Two builders for id 7; the second sets its own directory, the first builds, then the
second builds. -/
def otherDirCalls : List (Call Unit) :=
  [.kvsBuilder ⟨7⟩, .kvsBuilder ⟨7⟩, .dir 1 "./other/", .build 0 (fun _ => .ok ()),
    .build 1 (fun _ => .ok ())]

def otherDirRun : List (Step Unit) × World Unit :=
  (exec World.init otherDirCalls).getD ([], World.init)

theorem otherDirRun_run : Run World.init otherDirRun.1 otherDirRun.2 :=
  Run.of_exec (show exec World.init otherDirCalls = some (otherDirRun.1, otherDirRun.2) from rfl)

def otherDirBuild : Step Unit := otherDirRun.1.get ⟨4, by decide⟩

theorem otherDirRun_split : otherDirRun.1 = otherDirRun.1.take 4 ++ otherDirBuild :: [] := rfl

theorem otherDirBuild_opened_for :
    Run World.init otherDirRun.1 otherDirRun.2 ∧ otherDirBuild.call = .build 1 (fun _ => .ok ()) ∧
      otherDirBuild.obs.returned = some (7, 0) ∧ OpenedFor (otherDirRun.1.take 4) otherDirBuild 1 7 0 :=
  ⟨otherDirRun_run, rfl, by decide,
    build_returns_opened_instance otherDirRun_run otherDirRun_split rfl (by decide)⟩

/-- A builder configured with `./other/` receives an instance opened in `./data_folder/`: no call
of `Kvs::open` in the run had the second builder's directory. -/
theorem build_returns_instance_opened_elsewhere :
    ¬ ∀ (trace : List (Step Unit)) (w : World Unit), Run World.init trace w →
      ∀ s₁ st s₂, trace = s₁ ++ st :: s₂ → ∀ b kvsOpen, st.call = .build b kvsOpen →
      ∀ i p, st.obs.returned = some (i, p) → ∀ kb, st.pre.builders b = some kb →
      ∃ st₀ ∈ s₁ ++ [st], ∃ oc, st₀.obs.opened = some oc ∧ st₀.obs.inserted = some (i, p) ∧
        oc.instanceId = kb.instanceId ∧ oc.dir = kb.normalize.directory := by
  intro h
  obtain ⟨st₀, hst₀, oc, ho, -, -, hdir⟩ :=
    h _ _ otherDirRun_run _ _ _ otherDirRun_split 1 _ rfl 7 0 (by decide) _ rfl
  rw [← otherDirRun_split] at hst₀
  have hdirs : (otherDirRun.1.filterMap (·.obs.opened)).map OpenCall.dir = ["./data_folder/"] := by
    decide
  have hmem : oc.dir ∈ (otherDirRun.1.filterMap (·.obs.opened)).map OpenCall.dir :=
    List.mem_map_of_mem _ (List.mem_filterMap.mpr ⟨st₀, hst₀, ho⟩)
  rw [hdirs, List.mem_singleton, hdir] at hmem
  exact absurd hmem (by decide)

end Persistency
