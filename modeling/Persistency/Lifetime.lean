import Persistency.Provenance

/-! # The cache after the last builder

The destructor empties the cache only for the builder `latest_instance` designates, and
`latest_instance` is never reset. Once that builder is gone, a builder constructed before it
can still build, and what it caches survives its own destruction: with two nested scopes, the
inner builder destroyed first, the cache is not empty when no builder is left.
-/

namespace Persistency
set_option autoImplicit false

variable {Kvs : Type} {w w' : World Kvs} {trace : List (Step Kvs)}

theorem Run.dtor_latest (h : Run w trace w') {l : Nat} (hl : w'.latestInstance = some l)
    (hdead : w'.builders l = none) :
    (w.latestInstance = some l ∧ w.builders l = none) ∨
      ∃ s₁ st s₂, trace = s₁ ++ st :: s₂ ∧ st.call = .dtor l ∧
        st.pre.latestInstance = some l := by
  induction trace generalizing w with
  | nil => exact .inl (h ▸ ⟨hl, hdead⟩)
  | cons st trace ih =>
    obtain ⟨rfl, hv, h⟩ := h
    rcases ih h with ⟨hl', hdead'⟩ | ⟨s₁, st', s₂, rfl, hc, hpre⟩
    · rcases World.step_builders hv with ⟨iid, -, hpost⟩ | ⟨hlat, -, halive⟩
      · rw [hpost] at hl' hdead'
        obtain rfl := Option.some.inj hl'.symm
        simp at hdead'
      · by_cases hc : st.call = .dtor l
        · exact .inr ⟨[], st, trace, rfl, hc, hlat ▸ hl'⟩
        · refine .inl ⟨hlat ▸ hl', ?_⟩
          cases hpre : st.pre.builders l with
          | none => rfl
          | some kb => simpa [hdead', hpre, hc] using halive l
    · exact .inr ⟨st :: s₁, st', s₂, rfl, hc, hpre⟩

/-- What the cache holds at the end `w` of a run `trace` in which no builder is alive: nothing,
if no builder was ever constructed; otherwise the run destroyed the builder `l` that
`latest_instance` designates, and every instance still cached was opened after that by a
`build` of a builder constructed before `l`. -/
def CachedAfterLatest (trace : List (Step Kvs)) (w : World Kvs) : Prop :=
  (w.latestInstance = none ∧ ∀ i, w.kvsInstances i = none) ∨
    ∃ l s₁ st s₂, w.latestInstance = some l ∧ trace = s₁ ++ st :: s₂ ∧ st.call = .dtor l ∧
      st.pre.latestInstance = some l ∧
      ∀ i p, w.kvsInstances i = some p → ∃ st' ∈ s₂, st'.obs.inserted = some (i, p) ∧
        ∃ b kvsOpen, st'.call = .build b kvsOpen ∧ b < l

/-- In every state a run reaches with no builder alive, the instances still cached are the
ones older builders opened after the latest builder was destroyed; so the cache is empty when
no `build` opened one after that destruction. -/
theorem kvsInstances_of_no_builder_alive (hrun : Run World.init trace w)
    (hdead : ∀ b, w.builders b = none) : CachedAfterLatest trace w := by
  have hwf := Reachable.wf ⟨trace, hrun⟩
  cases hl : w.latestInstance with
  | none =>
    have h0 : w.builderCount = 0 := by
      by_contra hne
      simpa [hl] using (hwf.latest_eq (w.builderCount - 1)).mpr (by omega)
    exact .inl ⟨hl, hwf.kvsInstances_none h0⟩
  | some l =>
    rcases hrun.dtor_latest hl (hdead l) with ⟨hinit, -⟩ | ⟨s₁, st, s₂, rfl, hc, hpre⟩
    · cases hinit
    refine .inr ⟨l, s₁, st, s₂, hl, rfl, hc, hpre, fun i p hi => ?_⟩
    obtain ⟨_, h₁, rfl, hv, h₂⟩ := Run.append.mp hrun
    have hclears : st.clearsCache = true := by simp [Step.clearsCache, World.clearsCache, hc, hpre]
    rcases h₂.kvsInstances_origin hi with hpost | ⟨st', hst', hins⟩
    · simp [World.kvsInstances_of_clearsCache hv hclears] at hpost
    obtain ⟨b, kb, kvsOpen, hcall, hkb, -, -⟩ := Step.opened_of_inserted (h₂.valid hst') hins
    refine ⟨st', hst', hins, b, kvsOpen, hcall, ?_⟩
    have hcount : st.pre.builderCount = l + 1 := ((Reachable.wf ⟨s₁, h₁⟩).latest_eq l).mp hpre
    have hdeadPost : l < st.post.builderCount ∧ st.post.builders l = none := by
      rw [(World.dtor_step (show st.pre.step (.dtor l) = some (st.post, st.obs) from hc ▸ hv)).1]
      simp [hcount]
    obtain ⟨_, _, -, ha, hc'⟩ := h₂.of_mem hst'
    have hdeadPre : l < st'.pre.builderCount ∧ st'.pre.builders l = none :=
      Run.inv (fun v => l < v.builderCount ∧ v.builders l = none)
        (fun _ hv h => World.builders_none_step hv h.1 h.2) ha hdeadPost
    have hlt : b < st'.pre.builderCount :=
      (hrun.reachable_pre (List.mem_append_right s₁ (List.mem_cons_of_mem st hst'))).wf.lt_of_builders hkb
    have hle : st'.pre.builderCount ≤ l + 1 :=
      ((hwf.latest_eq l).mp hl) ▸
        Nat.le_trans (World.builderCount_le_step (h₂.valid hst')) hc'.builderCount_le
    have hne : b ≠ l := by rintro rfl; simp [hdeadPre.2] at hkb
    omega

/-- Two nested scopes: an outer builder for id 1 and an inner one for id 2, constructed after it
and destroyed first; then the outer builder builds and is destroyed. -/
def nestedCalls : List (Call Unit) :=
  [.kvsBuilder ⟨1⟩, .kvsBuilder ⟨2⟩, .dtor 1, .build 0 (fun _ => .ok ()), .dtor 0]

def nestedRun : List (Step Unit) × World Unit := (exec World.init nestedCalls).getD ([], World.init)

theorem nestedRun_run : Run World.init nestedRun.1 nestedRun.2 :=
  Run.of_exec (show exec World.init nestedCalls = some (nestedRun.1, nestedRun.2) from rfl)

theorem nestedRun_no_builder : ∀ b, nestedRun.2.builders b = none :=
  (Reachable.wf ⟨_, nestedRun_run⟩).builders_none_iff.mpr (by decide)

theorem nestedRun_cached_after_latest :
    Run World.init nestedRun.1 nestedRun.2 ∧ (∀ b, nestedRun.2.builders b = none) ∧
      CachedAfterLatest nestedRun.1 nestedRun.2 :=
  ⟨nestedRun_run, nestedRun_no_builder,
    kvsInstances_of_no_builder_alive nestedRun_run nestedRun_no_builder⟩

/-- With two nested scopes the instance the outer builder opened after the inner one was
destroyed is still cached when no builder is left. -/
theorem cache_outlives_last_builder :
    ¬ ∀ (trace : List (Step Unit)) (w : World Unit), Run World.init trace w →
      (∀ b, w.builders b = none) → ∀ i, w.kvsInstances i = none :=
  fun h => absurd (h _ _ nestedRun_run nestedRun_no_builder 1) (by decide)

end Persistency
