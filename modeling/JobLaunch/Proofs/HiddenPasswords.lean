import JobLaunch.Proofs.JobResolution
import JobLaunch.Proofs.PlannedSpecs
import JobLaunch.Proofs.UnpromptedOverrides
/-!
Which passwords of a job are hidden where its variables are shown. The record of what to hide knows
accepted answers and the defaults of password questions. A job has other variables too: the
template's own, and the defaults of all questions.
-/
namespace JobLaunch

theorem Table.mem_ofEntries {α : Type} {entries : List (String × α)} {k : String} :
    k ∈ Table.ofEntries entries ↔ ∃ v, (k, v) ∈ entries := by
  rw [Table.ofEntries, Std.ExtTreeMap.mem_ofList, List.contains_iff_mem, List.mem_map]
  constructor
  · rintro ⟨⟨_, v⟩, h, rfl⟩
    exact ⟨v, h⟩
  · rintro ⟨v, h⟩
    exact ⟨(k, v), h, rfl⟩

theorem getElem?_displayVars (vars : Vars) (passwords : Table String) (k : String) :
    (displayVars vars passwords)[k]? =
      vars[k]?.map fun v => (passwords[k]?.map Value.text).getD v := by
  rw [displayVars, Std.ExtTreeMap.getElem?_map]
  cases vars[k]? with
  | none => rfl
  | some v => cases h : passwords[k]? <;> simp

namespace JobTemplate
variable {t : JobTemplate} {m : UInt32} {r : LaunchRequest} {k : String}

/-- Whether no value is accepted for a name and no password question bound to it has a default. A job
has the value of such a name from elsewhere, if at all. -/
structure Unrecorded (t : JobTemplate) (accepted : Vars) (name : String) : Prop where
  unanswered : accepted[name]? = none
  noDefault : ∀ q ∈ t.activeQuestions, q.isPassword → q.varName = name →
    q.effectiveDefault = none

theorem mem_surveyPasswords {accepted : Vars} :
    k ∈ t.surveyPasswords accepted ↔ ∃ q ∈ t.activeQuestions, q.isPassword ∧ q.varName = k ∧
      (accepted[k]?.isSome ∨ q.effectiveDefault.isSome) := by
  rw [surveyPasswords, Table.mem_ofEntries]
  simp only [List.mem_map, List.mem_filter, Prod.mk.injEq, Bool.and_eq_true, Bool.or_eq_true,
    Std.ExtTreeMap.contains_eq_isSome_getElem?]
  constructor
  · rintro ⟨v, q, ⟨hq, hp, ha⟩, rfl, -⟩
    exact ⟨q, hq, hp, rfl, ha⟩
  · rintro ⟨q, hq, hp, rfl, ha⟩
    exact ⟨redacted, q, ⟨hq, hp, ha⟩, rfl, rfl⟩

theorem eq_redacted_of_surveyPasswords {accepted : Vars} {marker : String}
    (h : (t.surveyPasswords accepted)[k]? = some marker) : marker = redacted := by
  obtain ⟨q, -, hq⟩ := List.mem_map.mp (Table.mem_of_getElem?_ofEntries h)
  exact (Prod.mk.inj hq).2.symm

/-- The record is made from the accepted answers, before other variables join them. -/
theorem surveyPasswords_resolution_eq : (t.resolution m r).surveyPasswords =
    t.surveyPasswords (SurveyIntake.run t (!r.excludedErrors.required) r.proposed).accepted := rfl

theorem getElem?_answers {q : Question} (hq : q ∈ t.activeQuestions) (b : Bool) :
    (SurveyIntake.run t b r.proposed).accepted[q.varName]? =
      (t.resolution m r).accepted.vars[q.varName]? := by
  obtain ⟨p, hp⟩ : ∃ p, t.questionOf? q.varName = some p := by
    rw [← Option.isSome_iff_exists, questionOf?, binding?, List.find?_isSome]
    exact ⟨q, hq, beq_self_eq_true _⟩
  rw [SurveyIntake.getElem?_accepted_run, Overrides.vars, getElem?_acceptedVars, settled, hp]
  rfl

theorem mem_surveyPasswords_resolution {q : Question} (hq : q ∈ t.activeQuestions)
    (hp : q.isPassword) : q.varName ∈ (t.resolution m r).surveyPasswords ↔
      ¬ t.Unrecorded (t.resolution m r).accepted.vars q.varName := by
  rw [surveyPasswords_resolution_eq, mem_surveyPasswords, getElem?_answers (m := m) hq]
  constructor
  · rintro ⟨p, hpq, hpp, hk, ha | hd⟩ hu
    · simp [hu.unanswered] at ha
    · simp [hu.noDefault p hpq hpp hk] at hd
  · intro hu
    cases ha : (t.resolution m r).accepted.vars[q.varName]? with
    | some v => exact ⟨q, hq, hp, rfl, Or.inl rfl⟩
    | none =>
      refine Classical.byContradiction fun hn => hu ⟨ha, fun p hpq hpp hk => ?_⟩
      rw [← Option.not_isSome_iff_eq_none]
      exact fun hd => hn ⟨p, hpq, hpp, hk, Or.inr hd⟩

/-- An unrecorded variable of the job is the template's own, or the default of a question that is not
about a password. -/
theorem origin_of_unrecorded {v : Value} (hu : t.Unrecorded (t.resolution m r).accepted.vars k)
    (hv : (t.jobSpec (t.resolution m r) r).options.extraVars[k]? = some v) :
    t.options.extraVars[k]? = some v ∨ t.options.extraVars[k]? = none ∧
      ∃ p ∈ t.activeQuestions, ¬ p.isPassword ∧ p.varName = k ∧ p.effectiveDefault = some v := by
  have ha : ((t.resolution m r).accepted.extraVars.getD ∅)[k]? = none := hu.unanswered
  rw [getElem?_jobSpec, ha, Option.none_or] at hv
  cases ho : t.options.extraVars[k]? with
  | some own =>
    rw [ho, Option.some_or] at hv
    exact Or.inl hv
  | none =>
    rw [ho, Option.none_or] at hv
    obtain ⟨p, hpq, hd⟩ := List.exists_of_findSome?_eq_some hv
    rw [Option.ite_none_right_eq_some] at hd
    refine Or.inr ⟨rfl, p, hpq, fun hpp => ?_, hd.1, hd.2⟩
    -- the default of a password question would have been recorded
    rw [hu.noDefault p hpq hpp hd.1] at hd
    cases hd.2

end JobTemplate

/-- A job's variable that a password question is bound to shows the marker when it is recorded: when
a value is accepted for it or a password question bound to it has a default. Otherwise the value
itself is shown, and is the template's own or the default of a question of another kind. -/
theorem planned_passwords_shown (t : JobTemplate) (m : UInt32) (r : LaunchRequest) (spec : JobSpec)
    (q : Question) (v : Value) (hs : spec ∈ ((Template.job t).planned m r).jobSpecs)
    (hq : q ∈ t.activeQuestions) (hp : q.isPassword)
    (hv : spec.options.extraVars[q.varName]? = some v) :
    (¬ t.Unrecorded (t.resolution m r).accepted.vars q.varName →
      spec.surveyPasswords[q.varName]? = some redacted ∧
      (displayVars spec.options.extraVars spec.surveyPasswords)[q.varName]? =
        some (.text redacted)) ∧
    (t.Unrecorded (t.resolution m r).accepted.vars q.varName →
      spec.surveyPasswords[q.varName]? = none ∧
      (displayVars spec.options.extraVars spec.surveyPasswords)[q.varName]? = some v ∧
      (t.options.extraVars[q.varName]? = some v ∨ t.options.extraVars[q.varName]? = none ∧
        ∃ p ∈ t.activeQuestions, ¬ p.isPassword ∧ p.varName = q.varName ∧
          p.effectiveDefault = some v)) := by
  have he : spec = { t.jobSpec (t.resolution m r) r with slice := spec.slice } :=
    (JobTemplate.of_mem_jobSpecs_plan hs).2
  have hpw : spec.surveyPasswords = (t.resolution m r).surveyPasswords := by rw [he]; rfl
  have hmem := JobTemplate.mem_surveyPasswords_resolution (m := m) (r := r) hq hp
  rw [getElem?_displayVars, hv, Option.map_some, hpw]
  refine ⟨fun hn => ?_, fun hu => ?_⟩
  · obtain ⟨marker, hm⟩ := Option.isSome_iff_exists.mp
      (Std.ExtTreeMap.mem_iff_isSome_getElem?.mp (hmem.mpr hn))
    have hr : marker = redacted := JobTemplate.eq_redacted_of_surveyPasswords hm
    rw [hm, hr]
    exact ⟨rfl, rfl⟩
  · have hm : (t.resolution m r).surveyPasswords[q.varName]? = none :=
      Std.ExtTreeMap.getElem?_eq_none fun h => hmem.mp h hu
    rw [hm]
    refine ⟨rfl, rfl, JobTemplate.origin_of_unrecorded hu ?_⟩
    rw [he] at hv
    exact hv

def Question.optionalPassword : Question := ⟨"Password", "pw", .password, false, none, none, none, []⟩

def JobTemplate.ownPassword : JobTemplate :=
  { JobTemplate.sample [] with
    options := { extraVars := (∅ : Vars).insert "pw" (.text "secret") }
    survey := ⟨"", "", [.optionalPassword]⟩ }

theorem own_password_is_shown :
    ∃ spec ∈ ((Template.job .ownPassword).planned 0 {}).jobSpecs,
      spec.options.extraVars["pw"]? = some (.text "secret") ∧ spec.surveyPasswords["pw"]? = none ∧
      (displayVars spec.options.extraVars spec.surveyPasswords)["pw"]? = some (.text "secret") := by
  have hs : JobTemplate.ownPassword.jobSpec (JobTemplate.ownPassword.resolution 0 {}) {} ∈
      ((Template.job .ownPassword).planned 0 {}).jobSpecs := List.mem_singleton_self _
  have hv : (JobTemplate.ownPassword.jobSpec (JobTemplate.ownPassword.resolution 0 {})
      {}).options.extraVars["pw"]? = some (.text "secret") := by decide
  have hu : JobTemplate.ownPassword.Unrecorded
      (JobTemplate.ownPassword.resolution 0 {}).accepted.vars "pw" := ⟨by decide, by decide⟩
  obtain ⟨hn, hd, -⟩ := (planned_passwords_shown .ownPassword 0 {} _ .optionalPassword
    (.text "secret") hs (by decide) (by decide) hv).2 hu
  exact ⟨_, hs, hv, hn, hd⟩

end JobLaunch
