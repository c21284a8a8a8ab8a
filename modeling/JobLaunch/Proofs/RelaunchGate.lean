import JobLaunch.Proofs.ReplayedOverrides
import JobLaunch.Proofs.UnpromptedRefusals
/-!
The relaunch gate and the resolver. A recorded configuration that passes the gate is refused
afterwards in one case only: it chose to have no instance groups, which the gate takes for no
choice, and the template does not prompt for them any more.
-/
namespace JobLaunch

theorem Overrides.mem_values {o : Overrides} {v : FieldValue} :
    v ∈ o.values ↔ o.get v.field = some v.value := by
  unfold Overrides.values
  rw [List.mem_filterMap]
  constructor
  · rintro ⟨f, -, h⟩
    obtain ⟨x, hx, rfl⟩ := Option.map_eq_some_iff.mp h
    exact hx
  · intro h
    exact ⟨v.field, v.field.mem_all, by rw [h]; rfl⟩

namespace LaunchConfig
variable {c : LaunchConfig} {p : PolicySnapshot} {f : PromptField}

/-- A recorded value is shown unless it is an empty selection. -/
theorem any_provided (hf : f ≠ .extraVars) {x : f.Carrier} (hx : c.overrides.get f = some x)
    (he : f.isEmptySelection x = false) : (c.provided.any fun v => v.field == f) := by
  rw [List.any_eq_true]
  refine ⟨⟨f, x⟩, List.mem_filter.mpr ⟨Overrides.mem_values.mpr hx, ?_⟩, by simp⟩
  cases f with
  | extraVars => exact absurd rfl hf
  | _ => simpa [FieldValue.isEmptySelection] using he

theorem any_provided_extraVars (h : c.extraVars.isEmpty = false) :
    (c.provided.any fun v => v.field == .extraVars) := by
  unfold LaunchConfig.extraVars at h
  cases hx : c.overrides.extraVars with
  | none => simp [hx] at h
  | some vars =>
    rw [hx] at h
    rw [List.any_eq_true]
    refine ⟨⟨.extraVars, vars⟩, List.mem_filter.mpr ⟨Overrides.mem_values.mpr hx, ?_⟩, by simp⟩
    simpa using h

/-- A configuration passes the gate when none of the fields it shows is unprompted. -/
theorem unpromptedFields_eq_nil : c.unpromptedFields p = [] ↔
    ∀ f ∈ p.kind.fields, (c.provided.any fun v => v.field == f) → p.unprompted c f = false := by
  simp only [unpromptedFields, fieldsUnder, List.filter_eq_nil_iff, List.mem_filter, and_imp,
    Bool.not_eq_true]

end LaunchConfig

namespace PolicySnapshot
variable {p : PolicySnapshot} {c : LaunchConfig} {f : PromptField}

theorem surveyGoverns_iff :
    p.surveyGoverns ↔ p.surveyEnabled ∧ p.ask.get .extraVars = false := by
  rw [surveyGoverns, Bool.and_eq_true, Bool.not_eq_true']
  rfl

theorem surveyGoverns_job (t : JobTemplate) :
    (of (.job t)).surveyGoverns ↔ t.surveyEnabled ∧ t.ask.extraVars = false := surveyGoverns_iff

/-- Where the survey governs, variables are unprompted for a name that no question asks for. -/
theorem unprompted_extraVars_iff (h : p.surveyGoverns) :
    p.unprompted c .extraVars ↔ ∃ name ∈ c.extraVars.keys, name ∉ p.surveyVariables := by
  rw [unprompted, if_pos ⟨rfl, h⟩, List.any_eq_true]
  simp

/-- All else is unprompted when its flag is off, but for the limit of a callback. -/
theorem unprompted_iff (h : ¬ (f = .extraVars ∧ p.surveyGoverns)) :
    p.unprompted c f ↔ p.ask.get f = false ∧ ¬ (f = .limit ∧ c.launchType = .callback) := by
  rw [unprompted, if_neg h, Decidable.not_and_iff_not_or_not]
  simp

end PolicySnapshot

/-- Questions decide about the names among the variables of an enabled survey, and no others. -/
theorem JobTemplate.isSome_questionOf?_iff {t : JobTemplate} {k : String} :
    (t.questionOf? k).isSome ↔ t.surveyEnabled ∧ k ∈ t.survey.variableNames := by
  have hk : k ∈ t.survey.variableNames ↔ ∃ q ∈ t.survey.questions, q.varName = k := by
    simp [Survey.variableNames]
  rw [questionOf?, binding?, List.find?_isSome, hk]
  unfold activeQuestions surveyActive
  cases hs : t.surveyEnabled with
  | false => simp
  | true =>
    cases hq : t.survey.questions with
    | nil => simp
    | cons q qs => simp

namespace JobTemplate
variable {t : JobTemplate} {c : LaunchConfig}

/-- Variables that pass the gate are accepted by the survey or by the ask flag. -/
theorem leftover_of_passes (hp : c.unpromptedFields (.of (.job t)) = []) :
    (t.leftover c.extraVars ∅).isEmpty := by
  rw [Table.isEmpty_iff_getElem?]
  intro k
  rw [getElem?_leftover]
  by_cases ha : t.ask.extraVars
  · rw [if_pos (Or.inl ha)]
  cases hk : c.extraVars[k]? with
  | none => simp
  | some v =>
    have hne : c.extraVars.isEmpty = false := by
      rw [Bool.eq_false_iff]
      intro he
      rw [Table.isEmpty_iff_getElem?.mp he k] at hk
      cases hk
    have hu := LaunchConfig.unpromptedFields_eq_nil.mp hp .extraVars (PromptField.mem_all _)
      (LaunchConfig.any_provided_extraVars hne)
    rw [Bool.eq_false_iff, ne_eq] at hu
    rw [Bool.not_eq_true] at ha
    by_cases hs : t.surveyEnabled
    · -- the survey governs, so the gate has looked for every name among its variables
      have hg := (PolicySnapshot.surveyGoverns_job t).mpr ⟨hs, ha⟩
      rw [PolicySnapshot.unprompted_extraVars_iff hg] at hu
      have hmem : k ∈ c.extraVars.keys := by
        rw [Std.ExtTreeMap.mem_keys, Std.ExtTreeMap.mem_iff_isSome_getElem?, hk]
        rfl
      have hv : k ∈ t.survey.variableNames := Decidable.byContradiction fun hout =>
        hu ⟨k, hmem, hout⟩
      rw [if_pos (Or.inr (isSome_questionOf?_iff.mpr ⟨hs, hv⟩))]
    · have hg : ¬ (PolicySnapshot.of (.job t)).surveyGoverns := fun hg =>
        hs ((PolicySnapshot.surveyGoverns_job t).mp hg).1
      rw [PolicySnapshot.unprompted_iff fun h => hg h.2] at hu
      refine absurd ⟨ha, fun hl => ?_⟩ hu
      cases hl.1

/-- An empty selection changes nothing, unless it is one of instance groups. -/
theorem eq_instanceGroups_of_effect? {f : PromptField} {x : f.Carrier}
    (hx : f.isEmptySelection x) (he : t.effect? f x ≠ none) : f = .instanceGroups := by
  cases f with
  | instanceGroups => rfl
  | credentials =>
    rw [PromptField.isEmptySelection_credentials, List.isEmpty_iff] at hx
    subst hx
    exact absurd (effect?_credentials []) he
  | labels =>
    rw [PromptField.isEmptySelection_labels, List.isEmpty_iff] at hx
    subst hx
    exact absurd (effect?_labels []) he
  | _ => cases hx

/-- Where a replay asks for a change that the template does not prompt for, it asks for no instance
groups. -/
theorem unprompted_of_passes (hp : c.unpromptedFields (.of (.job t)) = []) {job : Job}
    {pw : Table String} {f : PromptField} (hf : f ≠ .extraVars) (ha : t.ask.get f = false)
    {x : f.Carrier} (hx : (Service.replayRequest job c pw).overrides.get f = some x)
    (he : t.effect? f x ≠ none) : f = .instanceGroups ∧ f.isEmptySelection x := by
  rw [get_replayRequest] at hx
  split at hx
  · cases hx
  rename_i hl
  by_cases hempty : f.isEmptySelection x
  · exact ⟨eq_instanceGroups_of_effect? hempty he, hempty⟩
  -- the gate has seen the value, and lets a field pass only for its flag or for a callback
  have hu := LaunchConfig.unpromptedFields_eq_nil.mp hp f (PromptField.mem_all _)
    (LaunchConfig.any_provided hf hx (by simpa using hempty))
  rw [Bool.eq_false_iff, ne_eq, PolicySnapshot.unprompted_iff fun hg => hf hg.1] at hu
  exact absurd ⟨ha, hl⟩ hu

theorem refusal_replay (hp : c.unpromptedFields (.of (.job t)) = []) {job : Job}
    {pw : Table String} {m : UInt32} {k : String} {v : Violation} :
    v ∈ (t.resolution m (Service.replayRequest job c pw)).errors.under k ∧ v.kind.isRefusal ↔
      k = "instance_groups" ∧ v = notPrompted ∧ c.overrides.instanceGroups = some [] ∧
        t.ask.instanceGroups = false := by
  rw [refusal_resolution rfl, proposed_replayRequest]
  have hg := get_replayRequest job c pw .instanceGroups
  rw [if_neg (by simp)] at hg
  constructor
  · rintro (⟨-, -, hn⟩ | ⟨hv, f, hf, hk, ha, x, hx, he⟩)
    · exact absurd (leftover_of_passes hp) hn
    · obtain ⟨rfl, hempty⟩ := unprompted_of_passes hp hf ha hx he
      rw [PromptField.isEmptySelection_instanceGroups, List.isEmpty_iff] at hempty
      subst hempty
      exact ⟨hk, hv, hg.symm.trans hx, ha⟩
  · rintro ⟨hk, hv, hi, ha⟩
    refine Or.inr ⟨hv, .instanceGroups, by decide, hk, ha, [], hg.trans hi, ?_⟩
    rw [effect?_instanceGroups]
    simp

end JobTemplate

theorem mem_systemVariables_of_accepted {t : SystemJobTemplate} {data : Vars} {k : String}
    {v : Value} (h : (mergeSystemVariables t data).accepted[k]? = some v) :
    systemVariables.contains k := by
  simp only [mergeSystemVariables, Table.getElem?_filter_names] at h
  split at h
  · rename_i hk
    exact (Bool.and_eq_true_iff.mp hk).1
  · cases h

/-- A merge of known variables refuses nothing. -/
theorem isRefusal_mergeSystemVariables {t : SystemJobTemplate} {data : Vars}
    (h : ∀ (k : String) v, data[k]? = some v → systemVariables.contains k) {k : String}
    {v : Violation} (hv : v ∈ (mergeSystemVariables t data).errors.under k) :
    v.kind.isRefusal = false := by
  have hu : (data.filter fun name _ => !systemVariables.contains name).isEmpty := by
    rw [Table.isEmpty_iff_getElem?]
    intro k
    rw [Table.getElem?_filter_names]
    split
    · rename_i hn
      refine Option.eq_none_iff_forall_ne_some.mpr fun v hk => ?_
      rw [h k v hk] at hn
      cases hn
    · rfl
  simp only [mergeSystemVariables, hu, if_true, List.nil_append, Errors.mem_under_add] at hv
  rcases hv with hv | ⟨-, hv⟩
  · simp at hv
  · split at hv
    · rw [List.mem_singleton.mp hv]
      rfl
    · cases hv

/-- What is recorded of a launch and passes the gate of the template as it is now is refused only
where it chose no instance groups and the template does not prompt for them any more. -/
theorem refusal_of_passed_gate (T T' : Template) (hk : T'.kind = T.kind) (m m' : UInt32)
    (r : LaunchRequest) (job : Job) (jobId : Id) (launchType : LaunchType) (now : Timestamp)
    (passwords : Table String)
    (hp : (LaunchConfig.capture jobId launchType (T.resolve m r) now).unpromptedFields (.of T') = [])
    (name : String) (v : Violation) :
    v ∈ (T'.resolve m' (Service.replayRequest job
        (.capture jobId launchType (T.resolve m r) now) passwords)).errors.under name ∧
      v.kind.isRefusal ↔
    name = "instance_groups" ∧ v = notPrompted ∧
      (T.resolve m r).accepted.instanceGroups = some [] ∧ T'.ask.instanceGroups = false := by
  cases T' with
  | job t' => exact JobTemplate.refusal_replay hp
  | system t' =>
    cases T with
    | job t => cases hk
    | system t =>
      constructor
      · rintro ⟨hv, hr⟩
        have hknown (k : String) (w : Value) (hw : (Service.replayRequest job (.capture jobId
            launchType ((Template.system t).resolve m r) now) passwords).proposed[k]? = some w) :
            systemVariables.contains k := by
          rw [proposed_replayRequest] at hw
          exact mem_systemVariables_of_accepted ((Vars.getElem?_override? _ k).symm.trans hw)
        rw [isRefusal_mergeSystemVariables hknown hv] at hr
        cases hr
      · rintro ⟨-, -, hi, -⟩
        cases hi

def LaunchRequest.noGroups : LaunchRequest where
  overrides := (∅ : Overrides).set .instanceGroups (some [])

theorem no_groups_pass_and_are_refused :
    ((Template.job (.sample [.instanceGroups])).resolve 0 .noGroups).launchable ∧
    (LaunchConfig.capture ⟨5⟩ .manual
      ((Template.job (.sample [.instanceGroups])).resolve 0 .noGroups) default).unpromptedFields
        (.of (.job (.sample []))) = [] ∧
    notPrompted ∈ ((Template.job (.sample [])).resolve 0 (Service.replayRequest default
      (.capture ⟨5⟩ .manual ((Template.job (.sample [.instanceGroups])).resolve 0 .noGroups) default)
        ∅)).errors.under "instance_groups" :=
  ⟨by decide, by decide,
    ((refusal_of_passed_gate (.job (.sample [.instanceGroups])) (.job (.sample [])) rfl 0 0 .noGroups
      default ⟨5⟩ .manual default ∅ (by decide) "instance_groups" notPrompted).mpr
        ⟨rfl, rfl, by decide, rfl⟩).1⟩

end JobLaunch
