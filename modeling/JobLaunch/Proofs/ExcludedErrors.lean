import JobLaunch.Proofs.MissingAnswers
import JobLaunch.Proofs.UnpromptedOverrides
import JobLaunch.Proofs.UnpromptedRefusals
/-!
Excluded errors. What a request is granted does not depend on the errors that it excludes: excluding
more of them leaves out messages, and says which.
-/
namespace JobLaunch

instance : HasSubset ErrorCategories := ⟨fun e e' => ∀ c, e.contains c → e'.contains c⟩

def LaunchRequest.withExcluded (r : LaunchRequest) (e : ErrorCategories) : LaunchRequest :=
  { r with excludedErrors := e }

/-- The errors without the violations that a condition selects. Names that are left without
violations are not listed. -/
def Errors.dropping (errors : Errors) (p : String → Violation → Bool) : Errors :=
  errors.filterMap fun name vs =>
    let rest := vs.filter fun v => !p name v
    if rest.isEmpty then none else some rest

/-- Whether excluding a category leaves out a violation under a name of a job template's resolution:
refusals of what is not prompted for and passwords that cannot be given, or missing answers. -/
def ErrorCategory.covers : ErrorCategory → String → Violation → Bool
  | .prompts, name, v => v.kind == .policy ||
      name == "extra_vars" && v.kind == .unsupportedVariable || name == "passwords_needed_to_start"
  | .required, name, v => name == "variables_needed_to_start" && decide (ReportsMissing v.message)

/-- Whether a violation is left out once the excluded errors grow from `e` to `e'`. -/
def ErrorCategories.hides (e e' : ErrorCategories) (name : String) (v : Violation) : Bool :=
  (e'.prompts && !e.prompts && ErrorCategory.prompts.covers name v) ||
    (e'.required && !e.required && ErrorCategory.required.covers name v)

/-- As `ErrorCategories.hides`, for any template: system templates have nothing to exclude. -/
def Template.hides (t : Template) (e e' : ErrorCategories) (name : String) (v : Violation) : Bool :=
  match t with
  | .job _ => e.hides e' name v
  | .system _ => false

namespace Errors

theorem getElem?_dropping (errors : Errors) (p : String → Violation → Bool) (k : String) :
    (errors.dropping p)[k]? = errors[k]?.bind fun vs =>
      let rest := vs.filter fun v => !p k v
      if rest.isEmpty then none else some rest :=
  Std.ExtTreeMap.getElem?_filterMap'

theorem tight_dropping (errors : Errors) (p : String → Violation → Bool) :
    (errors.dropping p).Tight := by
  intro k h
  rw [getElem?_dropping] at h
  obtain ⟨vs, -, hv⟩ := Option.bind_eq_some_iff.mp h
  simp only [] at hv
  split at hv
  · cases hv
  · rename_i hne
    rw [Option.some.inj hv] at hne
    exact hne rfl

theorem isEmpty_dropping {errors : Errors} {p : String → Violation → Bool} (h : errors.isEmpty) :
    (errors.dropping p).isEmpty := by
  rw [Std.ExtTreeMap.isEmpty_iff.mp h]
  rfl

theorem under_dropping (errors : Errors) (p : String → Violation → Bool) (k : String) :
    (errors.dropping p).under k = (errors.under k).filter fun v => !p k v := by
  rw [under, under, getElem?_dropping]
  cases errors[k]? with
  | none => rfl
  | some vs =>
    rw [Option.bind_some, Option.getD_some]
    simp only []
    split
    · rename_i h
      rw [List.isEmpty_iff.mp h]
      rfl
    · rfl

theorem dropping_false {errors : Errors} (h : errors.Tight) :
    errors.dropping (fun _ _ => false) = errors := by
  refine (errors.tight_dropping _).ext h fun k => ?_
  rw [under_dropping]
  exact List.filter_eq_self.mpr fun _ _ => rfl

end Errors

namespace ErrorCategories
variable {e e' : ErrorCategories}

theorem subset_iff : e ⊆ e' ↔ (e.prompts → e'.prompts) ∧ (e.required → e'.required) := by
  constructor
  · exact fun h => ⟨h .prompts, h .required⟩
  · rintro ⟨hp, hr⟩ (_ | _)
    · exact hp
    · exact hr

theorem hides_of_not_covered {k : String} {v : Violation}
    (h : ∀ c, ErrorCategory.covers c k v = false) : e.hides e' k v = false := by
  simp [hides, h]

/-- Apart from missing answers and passwords, only refusals are left out. -/
theorem hides_of_not_refusal {k : String} {v : Violation} (hv : v.kind.isRefusal = false)
    (hk : k ≠ "variables_needed_to_start") (hp : k ≠ "passwords_needed_to_start") :
    e.hides e' k v = false := by
  have hk' : (k == "variables_needed_to_start") = false := beq_eq_false_iff_ne.mpr hk
  have hp' : (k == "passwords_needed_to_start") = false := beq_eq_false_iff_ne.mpr hp
  have hpolicy : (v.kind == .policy) = false := by
    cases hkind : v.kind <;> rw [hkind] at hv <;> first | rfl | cases hv
  have hunsupported : (v.kind == .unsupportedVariable) = false := by
    cases hkind : v.kind <;> rw [hkind] at hv <;> first | rfl | cases hv
  apply hides_of_not_covered
  rintro (_ | _)
  · simp [ErrorCategory.covers, hp', hpolicy, hunsupported]
  · simp [ErrorCategory.covers, hk']

theorem hides_notPrompted {f : PromptField} : e.hides e' f.name notPrompted =
    (e'.prompts && !e.prompts) := by
  have hk : (f.name == "variables_needed_to_start") = false := beq_eq_false_iff_ne.mpr f.name_ne.1
  have hpolicy : (notPrompted.kind == .policy) = true := rfl
  simp [hides, ErrorCategory.covers, hk, hpolicy]

end ErrorCategories

namespace JobTemplate
variable {t : JobTemplate} {m : UInt32} {r : LaunchRequest} {e e' : ErrorCategories}

private theorem filter_of_name {k name : String} {p : String → Violation → Bool}
    {vs vs' : List Violation} (h : vs' = vs.filter fun v => !p name v) :
    (if k = name then vs' else []) = (if k = name then vs else []).filter fun v => !p k v := by
  by_cases hk : k = name
  · subst hk
    rw [if_pos rfl, if_pos rfl]
    exact h
  · rw [if_neg hk, if_neg hk, List.filter_nil]

theorem leftover_eq (t : JobTemplate) (data : Vars) (e e' : ErrorCategories) :
    t.leftover data e = t.leftover data e' := by
  rw [leftover, leftover, SurveyIntake.remaining_run_eq t data (!e.required) (!e'.required)]

theorem problems_excluding (h : e ⊆ e') (data : Vars) :
    (SurveyIntake.run t (!e'.required) data).problems.map (Violation.mk .validation) =
      ((SurveyIntake.run t (!e.required) data).problems.map (Violation.mk .validation)).filter
        fun v => !e.hides e' "variables_needed_to_start" v := by
  have hhides (s : String) : e.hides e' "variables_needed_to_start" ⟨.validation, s⟩ =
      (e'.required && !e.required && decide (ReportsMissing s)) := by
    simp [ErrorCategories.hides, ErrorCategory.covers]
  obtain ⟨-, hr⟩ := ErrorCategories.subset_iff.mp h
  rw [List.filter_map]
  congr 1
  by_cases hs : e'.required = e.required
  · rw [hs]
    refine (List.filter_eq_self.mpr fun s _ => ?_).symm
    simp [hhides, hs]
  · have he : e.required = false := Bool.eq_false_iff.mpr fun ht => hs ((hr ht).trans ht.symm)
    have he' : e'.required = true := by simpa [he] using hs
    rw [he, he', Bool.not_true, Bool.not_false, SurveyIntake.problems_run_false]
    refine List.filter_congr fun s _ => ?_
    simp [hhides, he, he']

theorem unsupported_excluding (h : e ⊆ e') (rest : Vars) :
    (if rest.isEmpty || e'.prompts then [] else [unsupportedVariables rest]) =
      (if rest.isEmpty || e.prompts then [] else [unsupportedVariables rest]).filter
        fun v => !e.hides e' "extra_vars" v := by
  have hhides : e.hides e' "extra_vars" (unsupportedVariables rest) =
      (e'.prompts && !e.prompts) := by
    have hprompts : ErrorCategory.prompts.covers "extra_vars" (unsupportedVariables rest) = true :=
      rfl
    have hrequired : ErrorCategory.required.covers "extra_vars" (unsupportedVariables rest) =
      false := rfl
    simp [ErrorCategories.hides, hprompts, hrequired]
  obtain ⟨hp, -⟩ := ErrorCategories.subset_iff.mp h
  cases hn : rest.isEmpty with
  | true => rfl
  | false =>
    cases he : e.prompts with
    | true => rw [hp he]; rfl
    | false => cases he' : e'.prompts <;> simp [hhides, he, he']

theorem under_merged_excluding (h : e ⊆ e') (k : String) :
    (t.merged (r.withExcluded e')).errors.under k =
      ((t.merged (r.withExcluded e)).errors.under k).filter fun v => !e.hides e' k v := by
  have hv : (r.withExcluded e').proposed = (r.withExcluded e).proposed := rfl
  rw [merged, merged, hv, errors_mergeJobVariables, errors_mergeJobVariables,
    t.leftover_eq _ (r.withExcluded e').excludedErrors (r.withExcluded e).excludedErrors]
  simp only [Errors.under_add, Errors.under_empty, List.nil_append]
  by_cases hx : k = "extra_vars"
  · subst hx
    exact unsupported_excluding h _
  · by_cases hs : k = "variables_needed_to_start"
    · subst hs
      exact problems_excluding h _
    · rw [if_neg hx, if_neg hs, if_neg hx, if_neg hs]
      rfl

/-- Which violation a field is refused with, if any, is not changed by exclusions, except that they
leave out refusals of what is not prompted for. -/
theorem violation_decideField_excluding (h : e ⊆ e') {f : PromptField} {x : f.Carrier}
    {v : Violation} : (t.decideField m (r.withExcluded e') f x).violation? = some v ↔
      (t.decideField m (r.withExcluded e) f x).violation? = some v ∧
        e.hides e' f.name v = false := by
  have hexcluded (e : ErrorCategories) : (r.withExcluded e).excludedErrors = e := rfl
  obtain ⟨hp, -⟩ := ErrorCategories.subset_iff.mp h
  rw [violation_decideField, violation_decideField, hexcluded, hexcluded]
  constructor
  · rintro ⟨y, hy, ⟨ha, he, rfl⟩ | ⟨ha, hv⟩⟩
    · have hn : e.prompts = false := Bool.eq_false_iff.mpr fun ht => by simp [hp ht] at he
      exact ⟨⟨y, hy, Or.inl ⟨ha, hn, rfl⟩⟩, by rw [ErrorCategories.hides_notPrompted, he]; rfl⟩
    · have hn : v.kind.isRefusal = false := by
        rw [kind_of_violation? hv]
        rfl
      exact ⟨⟨y, hy, Or.inr ⟨ha, hv⟩⟩,
        ErrorCategories.hides_of_not_refusal hn f.name_ne.1 f.name_ne.2.1⟩
  · rintro ⟨⟨y, hy, ⟨ha, he, rfl⟩ | ⟨ha, hv⟩⟩, hh⟩
    · rw [ErrorCategories.hides_notPrompted, he, Bool.not_false, Bool.and_true] at hh
      exact ⟨y, hy, Or.inl ⟨ha, hh, rfl⟩⟩
    · exact ⟨y, hy, Or.inr ⟨ha, hv⟩⟩

theorem violation_excluding (h : e ⊆ e') (f : PromptField) :
    ((t.decisions m (r.withExcluded e')).get f).violation?.toList =
      ((t.decisions m (r.withExcluded e)).get f).violation?.toList.filter
        fun v => !e.hides e' f.name v := by
  rw [← Option.toList_filter]
  congr 1
  by_cases hf : f = .extraVars
  · subst hf
    rw [get_decisions_extraVars, get_decisions_extraVars]
    rfl
  · cases hx : r.overrides.get f with
    | none =>
      have hn (e : ErrorCategories) : (r.withExcluded e).overrides.get f = none := hx
      rw [get_decisions_of_none hf (hn e'), get_decisions_of_none hf (hn e)]
      rfl
    | some x =>
      have hs (e : ErrorCategories) : (r.withExcluded e).overrides.get f = some x := hx
      rw [get_decisions_of_some hf (hs e'), get_decisions_of_some hf (hs e)]
      refine Option.ext fun v => ?_
      rw [violation_decideField_excluding h, Option.filter_eq_some_iff]
      simp

theorem passwords_excluding (h : e ⊆ e') : t.passwordViolations (r.withExcluded e') =
    (t.passwordViolations (r.withExcluded e)).filter
      fun v => !e.hides e' "passwords_needed_to_start" v := by
  have hhides (v : Violation) : e.hides e' "passwords_needed_to_start" v =
      (e'.prompts && !e.prompts) := by
    simp [ErrorCategories.hides, ErrorCategory.covers]
  have hexcludes (e : ErrorCategories) : (r.withExcluded e).excludes .prompts = e.prompts := rfl
  have hrest : missingPasswords t.credentials (r.withExcluded e').credentialPasswords =
      missingPasswords t.credentials (r.withExcluded e).credentialPasswords := rfl
  obtain ⟨hp, -⟩ := ErrorCategories.subset_iff.mp h
  simp only [hhides, passwordViolations, hexcludes, hrest]
  cases he : e.prompts with
  | true => simp [hp he]
  | false =>
    cases e'.prompts with
    | true => simp
    | false => exact (List.filter_eq_self.mpr fun _ _ => rfl).symm

theorem resources_excluding (o : Overrides) : t.missingResources o =
    (t.missingResources o).filter fun v => !e.hides e' "resources_needed_to_start" v := by
  refine (List.filter_eq_self.mpr fun v hv => ?_).symm
  have hn : v.kind.isRefusal = false := by
    rw [kind_of_mem_missingResources hv]
    rfl
  rw [ErrorCategories.hides_of_not_refusal hn (by decide) (by decide)]
  rfl

theorem accepted_withExcluded (e e' : ErrorCategories) :
    (t.resolution m (r.withExcluded e')).accepted = (t.resolution m (r.withExcluded e)).accepted :=
  accepted_of_agree
    { fields := fun _ _ _ => rfl
      proposed := fun _ _ => rfl
      preventSlicing := rfl
      pinnedSlice := rfl
      launchType := rfl }

theorem rejected_withExcluded (e e' : ErrorCategories) :
    (t.resolution m (r.withExcluded e')).rejected = (t.resolution m (r.withExcluded e)).rejected := by
  refine PerField.ext_get fun f => ?_
  by_cases hf : f = .extraVars
  · subst hf
    show (t.merged (r.withExcluded e')).rejected.override? =
      (t.merged (r.withExcluded e)).rejected.override?
    have hv : (r.withExcluded e').proposed = (r.withExcluded e).proposed := rfl
    rw [merged, merged, rejected_mergeJobVariables, rejected_mergeJobVariables, hv,
      t.leftover_eq _ (r.withExcluded e').excludedErrors (r.withExcluded e).excludedErrors,
      SurveyIntake.rejected_run_eq t _ (!(r.withExcluded e').excludedErrors.required)
        (!(r.withExcluded e).excludedErrors.required)]
  · refine Option.ext fun y => ?_
    rw [rejected_resolution hf, rejected_resolution hf, Option.bind_eq_some_iff,
      Option.bind_eq_some_iff]
    simp only [rejected_decideField]
    rfl

theorem surveyPasswords_withExcluded (e e' : ErrorCategories) :
    (t.resolution m (r.withExcluded e')).surveyPasswords =
      (t.resolution m (r.withExcluded e)).surveyPasswords :=
  surveyPasswords_mergeJobVariables_congr fun _ _ _ => rfl

theorem errors_excluding (h : e ⊆ e') : (t.resolution m (r.withExcluded e')).errors =
    (t.resolution m (r.withExcluded e)).errors.dropping (e.hides e') := by
  refine tight_resolution.ext (Errors.tight_dropping _ _) fun k => ?_
  have hfields : (PromptField.all.flatMap fun (f : PromptField) =>
        if k = f.name then ((t.decisions m (r.withExcluded e')).get f).violation?.toList else []) =
      (PromptField.all.flatMap fun (f : PromptField) =>
        if k = f.name then ((t.decisions m (r.withExcluded e)).get f).violation?.toList
        else []).filter fun v => !e.hides e' k v := by
    rw [List.filter_flatMap]
    congr 1
    funext f
    exact filter_of_name (violation_excluding h f)
  rw [Errors.under_dropping, under_resolution, under_resolution, List.filter_append,
    List.filter_append, List.filter_append, ← under_merged_excluding h, ← hfields,
    ← filter_of_name (passwords_excluding h), ← filter_of_name (resources_excluding _),
    accepted_withExcluded e e']

end JobTemplate

theorem Template.launchable_resolve (t : Template) (m : UInt32) (r : LaunchRequest) :
    (t.resolve m r).launchable = (t.resolve m r).errors.isEmpty := by
  cases t <;> rfl

/-- Excluding more errors changes nothing but the errors, and of these it leaves out exactly the
violations that the added categories cover. So a request that can be launched can still be
launched. -/
theorem exclusions_only_remove_errors (t : Template) (m : UInt32) (r : LaunchRequest)
    {e e' : ErrorCategories} (h : e ⊆ e') :
    (t.resolve m (r.withExcluded e')).accepted = (t.resolve m (r.withExcluded e)).accepted ∧
    (t.resolve m (r.withExcluded e')).rejected = (t.resolve m (r.withExcluded e)).rejected ∧
    (t.resolve m (r.withExcluded e')).surveyPasswords =
      (t.resolve m (r.withExcluded e)).surveyPasswords ∧
    (t.resolve m (r.withExcluded e')).errors =
      (t.resolve m (r.withExcluded e)).errors.dropping (t.hides e e') ∧
    ((t.resolve m (r.withExcluded e)).launchable →
      (t.resolve m (r.withExcluded e')).launchable) := by
  have herrors : (t.resolve m (r.withExcluded e')).errors =
      (t.resolve m (r.withExcluded e)).errors.dropping (t.hides e e') := by
    cases t with
    | job t => exact JobTemplate.errors_excluding h
    | system t => exact (Errors.dropping_false (Errors.tight_empty.add _ _)).symm
  refine ⟨?_, ?_, ?_, herrors, fun hl => ?_⟩
  · cases t with
    | job t => exact JobTemplate.accepted_withExcluded e e'
    | system t => rfl
  · cases t with
    | job t => exact JobTemplate.rejected_withExcluded e e'
    | system t => rfl
  · cases t with
    | job t => exact JobTemplate.surveyPasswords_withExcluded e e'
    | system t => rfl
  · rw [Template.launchable_resolve] at hl ⊢
    rw [herrors]
    exact Errors.isEmpty_dropping hl

/-- Where nothing is prompted for, the sample request can only be launched without its refusals, and
is granted the same. -/
theorem sample_granted_without_refusals :
    ((Template.job (.sample [])).resolve 0 (LaunchRequest.sample.withExcluded ∅)).launchable =
      false ∧
    ((Template.job (.sample [])).resolve 0
      (LaunchRequest.sample.withExcluded (.ofList [.prompts]))).launchable ∧
    (∅ : ErrorCategories) ⊆ .ofList [.prompts] ∧
    ((Template.job (.sample [])).resolve 0
        (LaunchRequest.sample.withExcluded (.ofList [.prompts]))).accepted =
      ((Template.job (.sample [])).resolve 0 (LaunchRequest.sample.withExcluded ∅)).accepted ∧
    ((Template.job (.sample [])).resolve 0
        (LaunchRequest.sample.withExcluded (.ofList [.prompts]))).errors =
      ((Template.job (.sample [])).resolve 0 (LaunchRequest.sample.withExcluded ∅)).errors.dropping
        ((Template.job (.sample [])).hides ∅ (.ofList [.prompts])) := by
  have h : (∅ : ErrorCategories) ⊆ .ofList [.prompts] :=
    ErrorCategories.subset_iff.mpr ⟨nofun, nofun⟩
  obtain ⟨ha, -, -, he, -⟩ := exclusions_only_remove_errors (.job (.sample [])) 0 .sample h
  exact ⟨by decide +kernel, by decide +kernel, h, ha, he⟩

end JobLaunch
