import JobLaunch.Proofs.FieldIndependence
import JobLaunch.Proofs.ReadyTemplates
import JobLaunch.Proofs.SecretAnswers
/-!
Passwords that are sent back hidden. A request that proposes the marker for a password is resolved
like one that answers with the question's default, or like one that does not mention the variable
where there is no default.
-/
namespace JobLaunch

/-- Whether the questions of a template take two proposals for the same values, and the names that no
question is bound to have the same values. -/
structure JobTemplate.TakesAlike (t : JobTemplate) (data data' : Vars) : Prop where
  bound : ∀ k q, t.questionOf? k = some q → q.settle data[k]? = q.settle data'[k]?
  unbound : ∀ k : String, t.questionOf? k = none → data[k]? = data'[k]?

section
variable {t : JobTemplate} {data data' : Vars} (h : t.TakesAlike data data')
include h

theorem SurveyIntake.run_congr (b : Bool) : run t b data = run t b data' := by
  have hremaining : (run t b data).remaining = (run t b data').remaining := by
    refine Std.ExtTreeMap.ext_getElem? fun k => ?_
    rw [getElem?_remaining_run, getElem?_remaining_run]
    cases hq : t.questionOf? k with
    | none => exact h.unbound k hq
    | some q => rfl
  have haccepted : (run t b data).accepted = (run t b data').accepted := by
    refine Std.ExtTreeMap.ext_getElem? fun k => ?_
    rw [getElem?_accepted_run, getElem?_accepted_run]
    cases hq : t.questionOf? k with
    | none => rfl
    | some q => simp only [Option.bind_some, Question.answer, h.bound k q hq]
  have hrejected : (run t b data).rejected = (run t b data').rejected := by
    refine Std.ExtTreeMap.ext_getElem? fun k => ?_
    rw [getElem?_rejected_run, getElem?_rejected_run]
    cases hq : t.questionOf? k with
    | none => rfl
    | some q => simp only [Option.bind_some, Question.refusal, h.bound k q hq]
  have hproblems : (run t b data).problems = (run t b data').problems := by
    refine problems_run_congr fun k q hq => Question.problems_congr ?_ b
    rw [Question.getElem?_restorePassword, Question.getElem?_restorePassword, if_pos rfl, if_pos rfl,
      variable_of_binding? hq, h.bound k q hq]
  cases hr : run t b data
  cases hr' : run t b data'
  rw [hr, hr'] at hremaining haccepted hrejected hproblems
  congr

theorem mergeJobVariables_congr (excluded : ErrorCategories) :
    mergeJobVariables t data excluded = mergeJobVariables t data' excluded := by
  simp only [mergeJobVariables, SurveyIntake.run_congr h]

end

namespace JobTemplate
variable {t : JobTemplate} {m : UInt32} {r r' : LaunchRequest}

theorem resolution_eq_resolve : t.resolution m r = t.resolve m r (t.merged r) := rfl

/-- A resolution depends on the proposed variables only through their merge. -/
theorem resolution_congr (ho : ∀ f, f ≠ .extraVars → r.overrides.get f = r'.overrides.get f)
    (hx : r.excludedErrors = r'.excludedErrors)
    (hw : r.credentialPasswords = r'.credentialPasswords) (hm : t.merged r = t.merged r') :
    t.resolution m r = t.resolution m r' := by
  have hp : r.excludes .prompts = r'.excludes .prompts := by
    rw [LaunchRequest.excludes, LaunchRequest.excludes, hx]
  have hdecisions : t.decisions m r = t.decisions m r' := by
    refine PerField.ext_get fun f => ?_
    by_cases hf : f = .extraVars
    · subst hf
      rw [get_decisions_extraVars, get_decisions_extraVars]
    · cases hv : r.overrides.get f with
      | none => rw [get_decisions_of_none hf hv, get_decisions_of_none hf ((ho f hf).symm.trans hv)]
      | some x =>
        rw [get_decisions_of_some hf hv, get_decisions_of_some hf ((ho f hf).symm.trans hv)]
        exact decideField_congr hp
          (violation?_of_override (ho f hf) fun _ => ho .inventory (by decide)) x
  have hpasswords : t.passwordViolations r = t.passwordViolations r' := by
    simp only [passwordViolations, hp, hw]
  rw [resolution_eq_resolve, resolution_eq_resolve, hm]
  simp only [resolve, hdecisions, hpasswords]

end JobTemplate

/-- The request with a value as the answer for a variable, or without the variable. -/
def LaunchRequest.replacing (r : LaunchRequest) (x : String) : Option Value → LaunchRequest
  | some v => { r with surveyAnswers := r.surveyAnswers.insert x v }
  | none => { r with
      overrides := r.overrides.withoutVar x, surveyAnswers := r.surveyAnswers.erase x }

theorem LaunchRequest.getElem?_proposed_replacing (r : LaunchRequest) (x : String)
    (v : Option Value) (k : String) :
    (r.replacing x v).proposed[k]? = if k = x then v else r.proposed[k]? := by
  rw [proposed, Table.getElem?_overlay, proposed, Table.getElem?_overlay]
  cases v with
  | some v =>
    simp only [replacing]
    rw [Std.ExtTreeMap.getElem?_insert]
    by_cases hk : k = x
    · simp [hk]
    · simp [hk, Ne.symm hk]
  | none =>
    have hv : (r.overrides.withoutVar x).extraVars = r.overrides.extraVars.map (·.erase x) :=
      PerField.get_set_self _ .extraVars _
    simp only [replacing, hv]
    rw [Std.ExtTreeMap.getElem?_erase]
    cases r.overrides.extraVars <;> by_cases hk : k = x <;>
      simp [hk, Std.ExtTreeMap.getElem?_erase, Ne.symm]

namespace Question
variable {q : Question}

theorem settle_marker (hp : q.isPassword) : q.settle (some (.text redacted)) = q.effectiveDefault :=
  if_pos ⟨hp, rfl⟩

theorem settle_effectiveDefault (hp : q.isPassword) :
    q.settle q.effectiveDefault = q.effectiveDefault := by
  rw [← settle_marker hp, settle_settle]

/-- A password question accepts the marker only as its default. -/
theorem effectiveDefault_of_answer (hp : q.isPassword) {v : Option Value}
    (h : q.answer v = some (.text redacted)) : q.effectiveDefault = some (.text redacted) := by
  have hs := (answer_eq_some_iff.mp h).1
  by_cases hv : v = some (.text redacted)
  · rwa [hv, settle_marker hp] at hs
  · rw [settle_of_ne fun hq => hv hq.2] at hs
    exact absurd hs hv

end Question

theorem JobTemplate.takesAlike_replacing {t : JobTemplate} {r : LaunchRequest} {x : String}
    {q : Question} (hq : t.questionOf? x = some q) (hp : q.isPassword)
    (hx : r.proposed[x]? = some (.text redacted)) :
    t.TakesAlike r.proposed (r.replacing x q.effectiveDefault).proposed where
  bound k p hk := by
    rw [LaunchRequest.getElem?_proposed_replacing]
    by_cases hkx : k = x
    · subst hkx
      obtain rfl := Option.some.inj (hq.symm.trans hk)
      rw [if_pos rfl, hx, Question.settle_marker hp, Question.settle_effectiveDefault hp]
    · rw [if_neg hkx]
  unbound k hk := by
    have hkx : k ≠ x := by
      rintro rfl
      rw [hq] at hk
      cases hk
    rw [LaunchRequest.getElem?_proposed_replacing, if_neg hkx]

/-- Where the question that decides about a variable asks for a password, proposing the marker is
resolved like answering with the question's default, or, when there is none, like not mentioning the
variable at all. Nothing else makes the marker itself an accepted password than its being the
default. -/
theorem marker_stands_for_default (t : JobTemplate) (m : UInt32) (r : LaunchRequest) {x : String}
    {q : Question} (hq : t.questionOf? x = some q) (hp : q.isPassword) :
    (r.proposed[x]? = some (.text redacted) →
      t.resolution m r = t.resolution m (r.replacing x q.effectiveDefault)) ∧
    ((t.resolution m r).accepted.vars[x]? = some (.text redacted) →
      q.effectiveDefault = some (.text redacted)) := by
  constructor
  · intro hx
    have ho : ∀ f, f ≠ .extraVars →
        r.overrides.get f = (r.replacing x q.effectiveDefault).overrides.get f := by
      intro f hf
      cases q.effectiveDefault with
      | some v => rfl
      | none => exact (PerField.get_set_of_ne _ _ hf).symm
    have hsame : (r.replacing x q.effectiveDefault).excludedErrors = r.excludedErrors ∧
        (r.replacing x q.effectiveDefault).credentialPasswords = r.credentialPasswords := by
      cases q.effectiveDefault <;> exact ⟨rfl, rfl⟩
    refine JobTemplate.resolution_congr ho hsame.1.symm hsame.2.symm ?_
    rw [JobTemplate.merged, JobTemplate.merged, hsame.1]
    exact mergeJobVariables_congr (JobTemplate.takesAlike_replacing hq hp hx) _
  · intro ha
    rw [Overrides.vars, JobTemplate.getElem?_acceptedVars, JobTemplate.settled, hq] at ha
    exact Question.effectiveDefault_of_answer hp ha

def LaunchRequest.sampleHidden : LaunchRequest where
  overrides := (∅ : Overrides).set .extraVars
    (some (Table.ofEntries [("token", .text redacted)] : Vars))

/-- The marker is resolved like the default that it stands for. Without a default it is resolved like no
answer, and is not accepted. -/
theorem sample_marker_stands_for_default :
    LaunchRequest.sampleHidden.proposed["token"]? = some (.text redacted) ∧
    (JobTemplate.sampleAsking (some (.text "s3cret"))).resolution 0 .sampleHidden =
      (JobTemplate.sampleAsking (some (.text "s3cret"))).resolution 0
        (LaunchRequest.sampleHidden.replacing "token" (some (.text "s3cret"))) ∧
    (JobTemplate.sampleAsking none).resolution 0 .sampleHidden =
      (JobTemplate.sampleAsking none).resolution 0
        (LaunchRequest.sampleHidden.replacing "token" none) ∧
    ((JobTemplate.sampleAsking none).resolution 0 .sampleHidden).accepted.vars["token"]? ≠
      some (.text redacted) := by
  have hx : LaunchRequest.sampleHidden.proposed["token"]? = some (.text redacted) := by decide
  have hset := marker_stands_for_default (.sampleAsking (some (.text "s3cret"))) 0 .sampleHidden
    (x := "token") rfl rfl
  have hunset := marker_stands_for_default (.sampleAsking none) 0 .sampleHidden
    (x := "token") rfl rfl
  exact ⟨hx, hset.1 hx, hunset.1 hx, fun ha => absurd (hunset.2 ha) (by decide)⟩

end JobLaunch
