import JobLaunch.Proofs.JobResolution
/-!
What a template does not prompt for never reaches a job. Two requests that agree on what the
template prompts for lead to the same jobs, whatever else they ask for.
-/
namespace JobLaunch

/-- The jobs that a request leads to, whether or not it can be launched. -/
def Template.planned (t : Template) (m : UInt32) (r : LaunchRequest) : LaunchPlan :=
  t.plan (t.resolve m r) r

/-- Two requests that differ only in what a template does not prompt for, and in what a plan never
reads: passwords and excluded errors. -/
structure LaunchRequest.AgreeUnder (t : JobTemplate) (r r' : LaunchRequest) : Prop where
  fields : ∀ f, f ≠ .extraVars → t.ask.get f → r.overrides.get f = r'.overrides.get f
  proposed : ∀ k, t.ask.extraVars ∨ (t.questionOf? k).isSome →
    r.proposed[k]? = r'.proposed[k]?
  preventSlicing : r.preventSlicing = r'.preventSlicing
  pinnedSlice : r.pinnedSlice = r'.pinnedSlice
  launchType : r.launchType = r'.launchType

namespace JobTemplate
variable {t : JobTemplate} {m : UInt32} {r r' : LaunchRequest}

theorem effectiveSliceCount_congr {o o' : Overrides}
    (hi : t.ask.inventory → o.inventory = o'.inventory)
    (hc : t.ask.jobSliceCount → o.jobSliceCount = o'.jobSliceCount) :
    t.effectiveSliceCount o = t.effectiveSliceCount o' := by
  have hinv : (if t.ask.inventory then o.inventory else none) =
      if t.ask.inventory then o'.inventory else none := by
    split
    · exact hi ‹_›
    · rfl
  have hcount : (if t.ask.jobSliceCount then o.jobSliceCount else none) =
      if t.ask.jobSliceCount then o'.jobSliceCount else none := by
    split
    · exact hc ‹_›
    · rfl
  simp only [effectiveSliceCount, hinv, hcount]

/-- The check of the slice count is the only one that looks at other fields. -/
theorem violation?_of_ne {f : PromptField} (hf : f ≠ .jobSliceCount) (o o' : Overrides)
    (x : f.Carrier) : t.violation? m o f x = t.violation? m o' f x := by
  cases f with
  | jobSliceCount => exact absurd rfl hf
  | _ => rfl

theorem violation?_congr {o o' : Overrides} (h : t.effectiveSliceCount o = t.effectiveSliceCount o')
    (f : PromptField) (x : f.Carrier) : t.violation? m o f x = t.violation? m o' f x := by
  by_cases hf : f = .jobSliceCount
  · subst hf
    simp only [violation?, h]
  · exact violation?_of_ne hf o o' x

theorem settled_of_agree (h : r.AgreeUnder t r') (k : String) :
    t.settled r.proposed k = t.settled r'.proposed k := by
  by_cases hk : t.ask.extraVars ∨ (t.questionOf? k).isSome
  · exact t.settled_congr (h.proposed k hk)
  · obtain ⟨ha, hq⟩ := not_or.mp hk
    have hn : t.questionOf? k = none := by simpa using hq
    simp [settled, hn, ha]

theorem merged_of_agree (h : r.AgreeUnder t r') :
    (t.merged r).accepted = (t.merged r').accepted ∧
      (t.merged r).surveyPasswords = (t.merged r').surveyPasswords := by
  constructor
  · refine Std.ExtTreeMap.ext_getElem? fun k => ?_
    rw [merged, getElem?_accepted_mergeJobVariables, merged, getElem?_accepted_mergeJobVariables]
    exact settled_of_agree h k
  · refine surveyPasswords_mergeJobVariables_congr fun k q hq => ?_
    rw [h.proposed k (Or.inr (by simp [hq]))]

/-- The accepted overrides are those of any request that agrees on what is prompted for. -/
theorem accepted_of_agree (h : r.AgreeUnder t r') :
    (t.resolution m r).accepted = (t.resolution m r').accepted := by
  have hs : t.effectiveSliceCount r.overrides = t.effectiveSliceCount r'.overrides :=
    effectiveSliceCount_congr (h.fields .inventory (by decide)) (h.fields .jobSliceCount (by decide))
  refine PerField.ext_get fun f => ?_
  by_cases hf : f = .extraVars
  · subst hf
    show (t.merged r).accepted.override? = (t.merged r').accepted.override?
    rw [(merged_of_agree h).1]
  · refine Option.ext fun y => ?_
    rw [accepted_resolution_eq_some hf, accepted_resolution_eq_some hf]
    -- an override that is not prompted for is accepted on neither side
    by_cases ha : t.ask.get f
    · simp only [h.fields f hf ha, violation?_congr hs]
    · simp [ha]

/-- A plan reads the accepted overrides, the passwords of the survey, and three settings of the
request. -/
theorem plan_congr {res res' : Resolution} (ha : res.accepted = res'.accepted)
    (hp : res.surveyPasswords = res'.surveyPasswords)
    (hs : r.preventSlicing = r'.preventSlicing) (hn : r.pinnedSlice = r'.pinnedSlice)
    (hl : r.launchType = r'.launchType) : t.plan res r = t.plan res' r' := by
  simp only [plan, jobSpec, ha, hp, hs, hn, hl]

theorem planned_of_agree (h : r.AgreeUnder t r') :
    (Template.job t).planned m r = (Template.job t).planned m r' :=
  plan_congr (accepted_of_agree h) (merged_of_agree h).2 h.preventSlicing h.pinnedSlice h.launchType

end JobTemplate

namespace LaunchRequest
variable {t : JobTemplate}

def without (r : LaunchRequest) (f : PromptField) : LaunchRequest :=
  { r with overrides := r.overrides.set f none }

/-- The request with only those variables that an active survey of the template asks for. -/
def surveyOnly (r : LaunchRequest) (t : JobTemplate) : LaunchRequest :=
  let kept (vars : Vars) : Vars := vars.filter fun name _ => (t.questionOf? name).isSome
  { r with
    overrides := r.overrides.set .extraVars (r.overrides.extraVars.map kept)
    surveyAnswers := kept r.surveyAnswers }

theorem agree_without (r : LaunchRequest) {f : PromptField} (hf : f ≠ .extraVars)
    (ha : t.ask.get f = false) : (r.without f).AgreeUnder t r where
  fields g _ hg := by
    have hne : g ≠ f := by
      rintro rfl
      simp [ha] at hg
    exact PerField.get_set_of_ne _ _ hne
  proposed k _ := by
    have hv : (r.without f).overrides.extraVars = r.overrides.extraVars :=
      PerField.get_set_of_ne _ _ hf.symm
    rw [proposed, hv]
    rfl
  preventSlicing := rfl
  pinnedSlice := rfl
  launchType := rfl

theorem agree_surveyOnly (r : LaunchRequest) (ha : t.ask.extraVars = false) :
    (r.surveyOnly t).AgreeUnder t r where
  fields g hg _ := PerField.get_set_of_ne _ _ hg
  proposed k hk := by
    have hq : (t.questionOf? k).isSome := by simpa [ha] using hk
    have hv : (r.surveyOnly t).overrides.extraVars = r.overrides.extraVars.map
        fun vars => vars.filter fun name _ => (t.questionOf? name).isSome :=
      PerField.get_set_self r.overrides .extraVars _
    have hkept (vars : Vars) :
        (vars.filter fun name _ => (t.questionOf? name).isSome)[k]? = vars[k]? := by
      rw [Table.getElem?_filter_names, if_pos hq]
    rw [proposed, proposed, hv, Table.getElem?_overlay, Table.getElem?_overlay,
      show (r.surveyOnly t).surveyAnswers[k]? = r.surveyAnswers[k]? from hkept _]
    cases hx : r.overrides.extraVars with
    | none => rfl
    | some vars => exact congrArg (r.surveyAnswers[k]?.or ·) (hkept vars)
  preventSlicing := rfl
  pinnedSlice := rfl
  launchType := rfl

end LaunchRequest

/-- An override of a field that the template does not prompt for changes no job, and neither do
variables that its survey does not ask for where it does not prompt for variables. Checks of other
fields do not see them either. -/
theorem planned_ignores_unprompted (t : JobTemplate) (m : UInt32) (r : LaunchRequest) :
    (∀ f, f ≠ .extraVars → t.ask.get f = false →
      (Template.job t).planned m (r.without f) = (Template.job t).planned m r) ∧
    (t.ask.extraVars = false →
      (Template.job t).planned m (r.surveyOnly t) = (Template.job t).planned m r) :=
  ⟨fun _ hf ha => JobTemplate.planned_of_agree (r.agree_without hf ha),
    fun ha => JobTemplate.planned_of_agree (r.agree_surveyOnly ha)⟩

def LaunchRequest.sample : LaunchRequest where
  overrides := ((∅ : Overrides).set .inventory (some ⟨⟨9⟩, "other", 2, none, [], false⟩)).set
    .jobSliceCount (some 3)
  surveyAnswers := Table.ofEntries [("color", .text "red"), ("shape", .text "round")]

theorem sample_ignores_unprompted :
    (JobTemplate.sample [.jobSliceCount]).ask.get .inventory = false ∧
    (Template.job (.sample [.jobSliceCount])).planned 0 (LaunchRequest.sample.without .inventory) =
      (Template.job (.sample [.jobSliceCount])).planned 0 .sample ∧
    (JobTemplate.sample [.jobSliceCount]).ask.extraVars = false ∧
    (Template.job (.sample [.jobSliceCount])).planned 0
        (LaunchRequest.sample.surveyOnly (.sample [.jobSliceCount])) =
      (Template.job (.sample [.jobSliceCount])).planned 0 .sample :=
  ⟨rfl, (planned_ignores_unprompted _ 0 .sample).1 .inventory (by decide) rfl, rfl,
    (planned_ignores_unprompted _ 0 .sample).2 rfl⟩

end JobLaunch
