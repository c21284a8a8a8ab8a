import JobLaunch.Proofs.OverlaidJobs
import JobLaunch.Proofs.UnpromptedOverrides
/-!
What a job has for a question that nobody answers: the template's own value of its variable. The
survey's default stands in only where the template has no value.
-/
namespace JobLaunch

namespace JobTemplate
variable {t : JobTemplate} {m : UInt32} {r : LaunchRequest} {x : String} {v : Value}

/-- Whether the survey has a default for a variable: that of the first question with a default among
those bound to the variable, while the survey is active. -/
def DefaultsTo (t : JobTemplate) (x : String) (v : Value) : Prop :=
  ∃ before q after, t.activeQuestions = before ++ q :: after ∧
    q.varName = x ∧ q.effectiveDefault = some v ∧
    ∀ p ∈ before, p.varName = x → p.effectiveDefault = none

theorem defaultFor_eq_some_iff : t.defaultFor x = some v ↔ t.DefaultsTo x v := by
  rw [defaultFor, List.findSome?_eq_some_iff]
  simp only [Option.ite_none_right_eq_some, ite_eq_right_iff, and_assoc]
  rfl

/-- What is not proposed is not accepted. -/
theorem accepted_of_unproposed (h : r.proposed[x]? = none) :
    (t.resolution m r).accepted.vars[x]? = none := by
  rw [Overrides.vars, getElem?_acceptedVars, settled, h]
  cases t.questionOf? x with
  | none => exact ite_self none
  | some q => exact q.answer_none

/-- A job's value of a variable that is not proposed is the template's or, without one, the survey's
default. -/
theorem getElem?_jobSpec_of_unproposed (h : r.proposed[x]? = none) :
    (t.jobSpec (t.resolution m r) r).options.extraVars[x]? =
      (t.options.extraVars[x]?).or (t.defaultFor x) := by
  have ha : ((t.resolution m r).accepted.extraVars.getD ∅)[x]? = none := accepted_of_unproposed h
  rw [getElem?_jobSpec, ha, Option.none_or]

end JobTemplate

/-- Where a survey has a default for a variable that a request leaves out, the jobs have the
template's own value of the variable, and the default without one. So the default applies exactly
where the template has no other value. -/
theorem own_value_before_default (t : JobTemplate) (m : UInt32) (r : LaunchRequest)
    {spec : JobSpec} (hs : spec ∈ ((Template.job t).planned m r).jobSpecs) {x : String}
    (ha : r.surveyAnswers[x]? = none) (he : r.overrides.vars[x]? = none) {v : Value}
    (hd : t.DefaultsTo x v) :
    spec.options.extraVars[x]? = some ((t.options.extraVars[x]?).getD v) ∧
      (spec.options.extraVars[x]? = some v ↔
        ∀ own, t.options.extraVars[x]? = some own → own = v) := by
  have hp : r.proposed[x]? = none := by
    rw [LaunchRequest.proposed, Table.getElem?_overlay, ha, Option.none_or]
    exact he
  have hv : spec.options.extraVars[x]? = some ((t.options.extraVars[x]?).getD v) := by
    rw [(JobTemplate.of_mem_jobSpecs_plan hs).2]
    refine (JobTemplate.getElem?_jobSpec_of_unproposed hp).trans ?_
    rw [JobTemplate.defaultFor_eq_some_iff.mpr hd, Option.or_some]
  refine ⟨hv, ?_⟩
  rw [hv, Option.some.injEq]
  cases ho : t.options.extraVars[x]? with
  | none => simp
  | some own => simp

def JobTemplate.samplePainted : JobTemplate :=
  { JobTemplate.sample [] with
    options := { extraVars := Table.ofEntries [("color", .text "blue")] }
    survey := ⟨"", "", [⟨"Color", "color", .text, true, some (.text "red"), none, none, []⟩]⟩ }

/-- The question is required and not answered, and the launch relies on its default, but the jobs
have the template's color. -/
theorem default_yields_to_own_value :
    (JobTemplate.samplePainted.resolution 0 {}).launchable ∧
    JobTemplate.samplePainted.DefaultsTo "color" (.text "red") ∧
    ∃ spec ∈ ((Template.job .samplePainted).planned 0 {}).jobSpecs,
      spec.options.extraVars["color"]? = some (.text "blue") ∧
      spec.options.extraVars["color"]? ≠ some (.text "red") := by
  have hd : JobTemplate.samplePainted.DefaultsTo "color" (.text "red") :=
    JobTemplate.defaultFor_eq_some_iff.mp (by decide)
  have hs : JobTemplate.samplePainted.jobSpec (JobTemplate.samplePainted.resolution 0 {}) {} ∈
      ((Template.job .samplePainted).planned 0 {}).jobSpecs := List.mem_singleton_self _
  obtain ⟨hv, hiff⟩ := own_value_before_default .samplePainted 0 {} hs
    (by decide) (by decide) hd
  refine ⟨by decide, hd, _, hs, hv, fun h => ?_⟩
  have hblue := hiff.mp h (.text "blue") (by decide)
  exact absurd hblue (by decide)

end JobLaunch
