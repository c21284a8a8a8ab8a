import JobLaunch.Proofs.JobResolution
import JobLaunch.Proofs.MissingAnswers
/-!
Readiness and resolution. A template that prompts for nothing can be launched as it is exactly when
nothing is missing from it: no answer to its survey, no password and no linked resource.
-/
namespace JobLaunch

namespace Question

@[simp] theorem restorePassword_empty (q : Question) : q.restorePassword ∅ = ∅ := by
  simp [restorePassword]

/-- Among no variables, nothing can be wrong with a question but that its answer is missing. -/
theorem problems_empty (q : Question) (b : Bool) : q.problems ∅ b =
    if q.required && b && q.effectiveDefault.isNone then [missingValue q.varName] else [] := by
  rw [problems, Std.ExtTreeMap.getElem?_empty]
  rfl

end Question

namespace SurveyIntake
variable {b : Bool}

theorem problems_foldl_of_remaining_eq_empty (qs : List Question) {s : SurveyIntake}
    (h : s.remaining = ∅) :
    (qs.foldl (ask b) s).problems = s.problems ++ qs.flatMap fun q => q.problems ∅ b := by
  induction qs generalizing s with
  | nil => simp
  | cons q qs ih =>
    have hr : (ask b s q).remaining = ∅ := by simp [ask, h]
    have hp : (ask b s q).problems = s.problems ++ q.problems ∅ b := by simp [ask, h]
    rw [List.foldl_cons, ih hr, hp, List.flatMap_cons, List.append_assoc]

/-- A survey that nobody answers misses the variables that its template needs. -/
theorem problems_run_empty (t : JobTemplate) :
    (run t true ∅).problems = t.variablesNeeded.map missingValue := by
  rw [run, problems_foldl_of_remaining_eq_empty _ rfl, List.nil_append,
    JobTemplate.variablesNeeded, List.map_map]
  induction t.activeQuestions with
  | nil => rfl
  | cons q qs ih =>
    rw [List.flatMap_cons, ih, q.problems_empty, Bool.and_true, List.filter_cons]
    split <;> rfl

end SurveyIntake

namespace JobTemplate
variable {t : JobTemplate} {m : UInt32}

theorem isEmpty_leftover_empty (excluded : ErrorCategories) : (t.leftover ∅ excluded).isEmpty := by
  rw [Table.isEmpty_iff_getElem?]
  intro k
  simp [getElem?_leftover]

theorem isEmpty_errors_merged_default :
    (t.merged {}).errors.isEmpty ↔ t.variablesNeeded = [] := by
  have hp : ({} : LaunchRequest).proposed = ∅ := Table.overlay_empty _
  have hr : ({} : LaunchRequest).excludedErrors.required = false := rfl
  rw [merged, hp, errors_mergeJobVariables, hr, Bool.not_false, SurveyIntake.problems_run_empty,
    Errors.isEmpty_add, Errors.isEmpty_add, isEmpty_leftover_empty]
  simp

theorem passwordViolations_default (h : t.ask.credentials = false) :
    t.passwordViolations {} = [] ↔ missingPasswords t.credentials ∅ = [] := by
  have hx : ({} : LaunchRequest).excludes .prompts = false := rfl
  simp [passwordViolations, hx, h]

theorem missingResources_default : t.missingResources (t.resolution m {}).accepted = [] ↔
    t.project.isSome ∧ t.inventory.isSome := by
  have hi : (t.resolution m {}).accepted.inventory = none :=
    accepted_resolution (f := .inventory) (by decide)
  cases hp : t.project <;> cases ht : t.inventory <;>
    simp [missingResources, resourcesNeeded, hi, hp, ht]

theorem isEmpty_validationErrors : t.validationErrors.isEmpty ↔
    t.project.isSome ∧ (t.inventory.isSome ∨ t.ask.inventory) := by
  rw [validationErrors, Errors.isEmpty_add, Errors.isEmpty_add]
  cases t.project <;> cases t.inventory <;> cases t.ask.inventory <;> simp

theorem startsWithoutInput_none : t.startsWithoutInput none ↔
    t.variablesNeeded = [] ∧ t.ask.any = false ∧ missingPasswords t.credentials ∅ = [] := by
  simp [startsWithoutInput, List.eq_nil_iff_forall_not_mem, and_assoc]

end JobTemplate

theorem AskFlags.any_eq_false {ask : AskFlags} : ask.any = false ↔ ∀ f, ask.get f = false := by
  simp [AskFlags.any, PromptField.mem_all]

/-- A template that prompts for nothing can be launched without overrides exactly when a job of it can
start without input and the template itself has no problems, whatever the forks ceiling. -/
theorem launchable_iff_ready (t : JobTemplate) (m : UInt32) (h : ∀ f, t.ask.get f = false) :
    (t.resolution m {}).launchable ↔ t.startsWithoutInput none ∧ t.validationErrors.isEmpty := by
  have hc : t.ask.credentials = false := h .credentials
  have hi : t.ask.inventory = false := h .inventory
  have hfields : ∀ f x, f ≠ .extraVars → ({} : LaunchRequest).overrides.get f = some x →
      (t.decideField m {} f x).violation? = none := by
    intro f x _ hx
    rw [Overrides.get_empty] at hx
    cases hx
  rw [JobTemplate.launchable_resolution, JobTemplate.isEmpty_errors_merged_default,
    JobTemplate.passwordViolations_default hc, JobTemplate.missingResources_default,
    JobTemplate.startsWithoutInput_none, JobTemplate.isEmpty_validationErrors,
    AskFlags.any_eq_false, hi]
  constructor
  · rintro ⟨hv, -, hw, hp, hs⟩
    exact ⟨⟨hv, h, hw⟩, hp, .inl hs⟩
  · rintro ⟨⟨hv, -, hw⟩, hp, hs⟩
    exact ⟨hv, hfields, hw, hp, hs.resolve_right Bool.false_ne_true⟩

def JobTemplate.sampleAsking (default : Option Value) : JobTemplate :=
  { JobTemplate.sample [] with
    survey := ⟨"", "", [⟨"Token", "token", .password, true, default, none, none, []⟩]⟩ }

/-- With a default for its password the template can be launched as it is. An empty text is no default,
and then it cannot. -/
theorem launchable_with_default :
    ((JobTemplate.sampleAsking (some (.text "s3cret"))).resolution 0 {}).launchable ∧
    ¬ ((JobTemplate.sampleAsking (some (.text ""))).resolution 0 {}).launchable := by
  have hask (d : Option Value) : ∀ f, (JobTemplate.sampleAsking d).ask.get f = false := by
    intro f
    cases f <;> rfl
  constructor
  · exact (launchable_iff_ready _ 0 (hask _)).mpr ⟨by decide, by decide⟩
  · intro h
    exact absurd ((launchable_iff_ready _ 0 (hask _)).mp h).1 (by decide)

end JobLaunch
