import JobLaunch.Proofs.JobResolution
/-!
Refusals: the violations by which a template says that it does not prompt for something. All other
violations are about values, passwords and resources.
-/
namespace JobLaunch

def ViolationKind.isRefusal : ViolationKind → Bool
  | .policy | .unsupportedVariable => true
  | .validation | .resourceMissing => false

namespace JobTemplate
variable {t : JobTemplate} {m : UInt32} {r : LaunchRequest}

theorem kind_of_violation? {o : Overrides} {f : PromptField} {x : f.Carrier} {v : Violation}
    (h : t.violation? m o f x = some v) : v.kind = .validation := by
  cases f with
  | scmBranch =>
    simp only [violation?] at h
    split at h
    · cases h
      rfl
    · split at h
      · cases h
        rfl
      · cases h
  | jobSliceCount =>
    simp only [violation?] at h
    split at h
    · cases h
      rfl
    · cases h
  | forks =>
    simp only [violation?] at h
    split at h
    · cases h
      rfl
    · cases h
  | _ => cases h

theorem kind_of_mem_passwordViolations {v : Violation} (h : v ∈ t.passwordViolations r) :
    v.kind = .resourceMissing := by
  unfold passwordViolations at h
  split at h
  · rw [List.mem_singleton.mp h]
  · cases h

theorem kind_of_mem_missingResources {o : Overrides} {v : Violation}
    (h : v ∈ t.missingResources o) : v.kind = .resourceMissing := by
  obtain ⟨_, _, rfl⟩ := List.mem_map.mp h
  rfl

/-- The refusals among the violations of merged variables. -/
theorem refusal_mergeJobVariables {data : Vars} {k : String} {v : Violation} :
    v ∈ (mergeJobVariables t data ∅).errors.under k ∧ v.kind.isRefusal ↔
      k = "extra_vars" ∧ v = unsupportedVariables (t.leftover data ∅) ∧
        ¬ (t.leftover data ∅).isEmpty := by
  rw [errors_mergeJobVariables, Errors.mem_under_add, Errors.mem_under_add, Errors.under_empty]
  constructor
  · rintro ⟨(h | ⟨-, h⟩) | ⟨hk, h⟩, hv⟩
    · cases h
    · obtain ⟨_, -, rfl⟩ := List.mem_map.mp h
      cases hv
    · by_cases he : (t.leftover data ∅).isEmpty
      · rw [if_pos (by simp [he])] at h
        cases h
      · rw [if_neg (by simp [he]), List.mem_singleton] at h
        exact ⟨hk, h, he⟩
  · rintro ⟨hk, rfl, he⟩
    refine ⟨Or.inr ⟨hk, ?_⟩, rfl⟩
    rw [if_neg (by simp [he])]
    exact List.mem_singleton_self _

/-- Without exclusions, the refusals of a resolution are about variables that nothing accepts, and
about requested changes of fields that are not prompted for. -/
theorem refusal_resolution (hx : r.excludedErrors = ∅) {k : String} {v : Violation} :
    v ∈ (t.resolution m r).errors.under k ∧ v.kind.isRefusal ↔
      (k = "extra_vars" ∧ v = unsupportedVariables (t.leftover r.proposed ∅) ∧
        ¬ (t.leftover r.proposed ∅).isEmpty) ∨
      v = notPrompted ∧ ∃ f, f ≠ PromptField.extraVars ∧ k = f.name ∧ t.ask.get f = false ∧
        ∃ x, r.overrides.get f = some x ∧ t.effect? f x ≠ none := by
  have hd {f : PromptField} {x : f.Carrier} :
      (t.decideField m r f x).violation? = some v ∧ v.kind.isRefusal ↔
        v = notPrompted ∧ t.ask.get f = false ∧ t.effect? f x ≠ none := by
    rw [violation_decideField]
    constructor
    · rintro ⟨⟨y, he, ⟨ha, -, rfl⟩ | ⟨-, hy⟩⟩, hv⟩
      · exact ⟨rfl, ha, by simp [he]⟩
      · rw [kind_of_violation? hy] at hv
        cases hv
    · rintro ⟨rfl, ha, he⟩
      obtain ⟨y, hy⟩ := Option.ne_none_iff_exists'.mp he
      exact ⟨⟨y, hy, Or.inl ⟨ha, by rw [hx]; rfl, rfl⟩⟩, rfl⟩
  rw [mem_errors_resolution, merged, hx, ← refusal_mergeJobVariables]
  constructor
  · rintro ⟨h | ⟨f, hf, hk, x, hr, h⟩ | ⟨-, h⟩ | ⟨-, h⟩, hv⟩
    · exact Or.inl ⟨h, hv⟩
    · obtain ⟨hn, ha, he⟩ := hd.mp ⟨h, hv⟩
      exact Or.inr ⟨hn, f, hf, hk, ha, x, hr, he⟩
    · rw [kind_of_mem_passwordViolations h] at hv
      cases hv
    · rw [kind_of_mem_missingResources h] at hv
      cases hv
  · rintro (⟨h, hv⟩ | ⟨hn, f, hf, hk, ha, x, hr, he⟩)
    · exact ⟨Or.inl h, hv⟩
    · obtain ⟨h, hv⟩ := hd.mpr ⟨hn, ha, he⟩
      exact ⟨Or.inr (Or.inl ⟨f, hf, hk, x, hr, h⟩), hv⟩

end JobTemplate
end JobLaunch
