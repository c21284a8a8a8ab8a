import JobLaunch.Proofs.UnpromptedOverrides
/-!
Fields are decided independently. What a resolution says about a field depends on the override of
that field alone, apart from the slice count, which is checked against the requested inventory; what
it says about variables depends on the proposed variables and on the excluded errors.
-/
namespace JobLaunch

structure Resolution.AgreeOn (f : PromptField) (res res' : Resolution) : Prop where
  accepted : res.accepted.get f = res'.accepted.get f
  rejected : res.rejected.get f = res'.rejected.get f
  errors : res.errors[f.name]? = res'.errors[f.name]?

structure Resolution.AgreeOnVars (res res' : Resolution) : Prop
    extends Resolution.AgreeOn .extraVars res res' where
  problems : res.errors["variables_needed_to_start"]? = res'.errors["variables_needed_to_start"]?
  surveyPasswords : res.surveyPasswords = res'.surveyPasswords

namespace JobTemplate
variable {t : JobTemplate} {m : UInt32} {r r' : LaunchRequest} {f : PromptField}

theorem decideField_congr (hx : r.excludes .prompts = r'.excludes .prompts)
    (hv : ∀ y, t.violation? m r.overrides f y = t.violation? m r'.overrides f y) (x : f.Carrier) :
    t.decideField m r f x = t.decideField m r' f x := by
  unfold decideField
  simp only [hx, hv]

theorem violation?_of_override (ho : r.overrides.get f = r'.overrides.get f)
    (hi : f = .jobSliceCount → r.overrides.inventory = r'.overrides.inventory) (x : f.Carrier) :
    t.violation? m r.overrides f x = t.violation? m r'.overrides f x := by
  by_cases hf : f = .jobSliceCount
  · subst hf
    exact violation?_congr (effectiveSliceCount_congr (fun _ => hi rfl) fun _ => ho) _ x
  · exact violation?_of_ne hf _ _ x

theorem agreeOn_of_override (hf : f ≠ .extraVars)
    (hx : r.excludes .prompts = r'.excludes .prompts)
    (ho : r.overrides.get f = r'.overrides.get f)
    (hi : f = .jobSliceCount → r.overrides.inventory = r'.overrides.inventory) :
    (t.resolution m r).AgreeOn f (t.resolution m r') := by
  have hd (x : f.Carrier) : t.decideField m r f x = t.decideField m r' f x :=
    decideField_congr hx (violation?_of_override ho hi) x
  constructor
  · rw [accepted_resolution hf, accepted_resolution hf, ho]
    simp only [hd]
  · rw [rejected_resolution hf, rejected_resolution hf, ho]
    simp only [hd]
  · rw [getElem?_errors_resolution hf, getElem?_errors_resolution hf, ho]
    simp only [hd]

theorem agreeOnVars_of_proposed (hp : r.proposed = r'.proposed)
    (hx : r.excludedErrors = r'.excludedErrors) :
    (t.resolution m r).AgreeOnVars (t.resolution m r') := by
  have hm : t.merged r = t.merged r' := by rw [merged, merged, hp, hx]
  refine ⟨⟨?_, ?_, ?_⟩, ?_, ?_⟩
  · show (t.resolution m r).accepted.extraVars = (t.resolution m r').accepted.extraVars
    rw [accepted_resolution_extraVars, accepted_resolution_extraVars, hm]
  · show (t.merged r).rejected.override? = (t.merged r').rejected.override?
    rw [hm]
  · have hk (f : PromptField) (h : f ≠ .extraVars) : PromptField.extraVars.name ≠ f.name :=
      fun he => h (PromptField.name_inj he).symm
    rw [getElem?_errors_of_vars hk (by decide) (by decide),
      getElem?_errors_of_vars hk (by decide) (by decide), hm]
  · have hk (f : PromptField) (_ : f ≠ .extraVars) : "variables_needed_to_start" ≠ f.name :=
      f.name_ne.1.symm
    rw [getElem?_errors_of_vars hk (by decide) (by decide),
      getElem?_errors_of_vars hk (by decide) (by decide), hm]
  · rw [surveyPasswords_resolution, surveyPasswords_resolution, hm]

end JobTemplate

/-- Between two requests that both exclude problems of prompts or both do not, a field with the same
override has the same outcome, whatever the other fields hold; only the slice count needs the same
inventory as well. The same variables, with the same errors excluded, have the same outcome. -/
theorem fields_decided_independently (t : JobTemplate) (m : UInt32) (r r' : LaunchRequest)
    (hx : r.excludes .prompts = r'.excludes .prompts) :
    (∀ f, f ≠ .extraVars → r.overrides.get f = r'.overrides.get f →
      (f = .jobSliceCount → r.overrides.inventory = r'.overrides.inventory) →
      (t.resolution m r).AgreeOn f (t.resolution m r')) ∧
    (r.overrides.extraVars = r'.overrides.extraVars → r.surveyAnswers = r'.surveyAnswers →
      r.excludedErrors = r'.excludedErrors →
      (t.resolution m r).AgreeOnVars (t.resolution m r')) := by
  refine ⟨fun f hf ho hi => JobTemplate.agreeOn_of_override hf hx ho hi, fun hv hs he => ?_⟩
  refine JobTemplate.agreeOnVars_of_proposed ?_ he
  rw [LaunchRequest.proposed, LaunchRequest.proposed, hv, hs]

def LaunchRequest.sampleLimited : LaunchRequest :=
  { LaunchRequest.sample with overrides := LaunchRequest.sample.overrides.set .limit (some "web") }

/-- A limit that is not prompted for is refused, and changes neither the slices nor the variables. -/
theorem limit_changes_no_other_field :
    ((JobTemplate.sample [.jobSliceCount]).resolution 0 .sampleLimited).rejected.limit =
      some "web" ∧
    ((JobTemplate.sample [.jobSliceCount]).resolution 0 .sample).accepted.jobSliceCount = some 3 ∧
    ((JobTemplate.sample [.jobSliceCount]).resolution 0 .sample).AgreeOn .jobSliceCount
      ((JobTemplate.sample [.jobSliceCount]).resolution 0 .sampleLimited) ∧
    ((JobTemplate.sample [.jobSliceCount]).resolution 0 .sample).AgreeOnVars
      ((JobTemplate.sample [.jobSliceCount]).resolution 0 .sampleLimited) := by
  obtain ⟨hfield, hvars⟩ :=
    fields_decided_independently (.sample [.jobSliceCount]) 0 .sample .sampleLimited rfl
  exact ⟨by decide, by decide, hfield .jobSliceCount (by decide) rfl fun _ => rfl,
    hvars rfl rfl rfl⟩

end JobLaunch
