import JobLaunch.Proofs.FieldDecisions
/-!
The resolution of a job template put together from its parts: each field as it is decided, the
variables as they are merged, and the violations of all of them.
-/
namespace JobLaunch

theorem Vars.getElem?_override? (vars : Vars) (k : String) :
    (vars.override?.getD ∅)[k]? = vars[k]? := by
  unfold Vars.override?
  split
  · rename_i h
    rw [Table.isEmpty_iff_getElem?.mp h k]
    exact Std.ExtTreeMap.getElem?_empty
  · rfl

def Overrides.vars (o : Overrides) : Vars := o.extraVars.getD ∅

def AskFlags.only (fields : List PromptField) : AskFlags := .ofFn fun f => fields.contains f

namespace PromptField

/-- No field has the name of another kind of problem. -/
theorem name_ne (f : PromptField) : f.name ≠ "variables_needed_to_start" ∧
    f.name ≠ "passwords_needed_to_start" ∧ f.name ≠ "resources_needed_to_start" := by
  cases f <;> decide

theorem flatMap_all_name {α : Type} (found : PromptField → List α) (f : PromptField) :
    (all.flatMap fun g => if f.name = g.name then found g else []) = found f := by
  cases f <;> simp [all, name]

end PromptField

def LaunchRequest.inThree : LaunchRequest where
  overrides := (∅ : Overrides).set .jobSliceCount (some 3)

namespace JobTemplate

/-- A template for examples. It runs on four hosts, asks for a color, and prompts for given
fields. -/
def sample (fields : List PromptField) : JobTemplate where
  id := ⟨1⟩
  name := "deploy"
  ask := .only fields
  inventory := some ⟨⟨2⟩, "all", 4, none, [], false⟩
  project := some ⟨⟨3⟩, "playbooks", "main", "", false, none, {}⟩
  surveyEnabled := true
  survey := ⟨"", "", [⟨"Color", "color", .text, false, none, none, none, []⟩]⟩

variable {t : JobTemplate} {m : UInt32} {r : LaunchRequest} {f : PromptField}

def merged (t : JobTemplate) (r : LaunchRequest) : VariableMerge :=
  mergeJobVariables t r.proposed r.excludedErrors

def resolution (t : JobTemplate) (m : UInt32) (r : LaunchRequest) : Resolution :=
  (Template.job t).resolve m r

theorem get_decisions_of_some (hf : f ≠ .extraVars) {x : f.Carrier}
    (hx : r.overrides.get f = some x) :
    (t.decisions m r).get f = t.decideField m r f x := by
  simp [decisions, hf, hx]

theorem get_decisions_of_none (hf : f ≠ .extraVars) (hx : r.overrides.get f = none) :
    (t.decisions m r).get f = .unchanged := by
  simp [decisions, hf, hx]

theorem get_decisions_extraVars : (t.decisions m r).get .extraVars = .unchanged := by
  simp [decisions]

theorem accepted_resolution (hf : f ≠ .extraVars) :
    (t.resolution m r).accepted.get f =
      (r.overrides.get f).bind fun x => (t.decideField m r f x).accepted? := by
  have h : (t.resolution m r).accepted.get f = ((t.decisions m r).get f).accepted? := by
    rw [← PerField.get_ofFn (fun f => ((t.decisions m r).get f).accepted?) f]
    exact PerField.get_set_of_ne _ _ hf
  rw [h]
  cases hx : r.overrides.get f with
  | none => rw [get_decisions_of_none hf hx]; rfl
  | some x => rw [get_decisions_of_some hf hx]; rfl

theorem rejected_resolution (hf : f ≠ .extraVars) :
    (t.resolution m r).rejected.get f =
      (r.overrides.get f).bind fun x => (t.decideField m r f x).rejected? := by
  have h : (t.resolution m r).rejected.get f = ((t.decisions m r).get f).rejected? := by
    rw [← PerField.get_ofFn (fun f => ((t.decisions m r).get f).rejected?) f]
    exact PerField.get_set_of_ne _ _ hf
  rw [h]
  cases hx : r.overrides.get f with
  | none => rw [get_decisions_of_none hf hx]; rfl
  | some x => rw [get_decisions_of_some hf hx]; rfl

theorem accepted_resolution_extraVars :
    (t.resolution m r).accepted.extraVars = (t.merged r).accepted.override? := rfl

theorem surveyPasswords_resolution :
    (t.resolution m r).surveyPasswords = (t.merged r).surveyPasswords := rfl

theorem getElem?_acceptedVars (k : String) :
    ((t.resolution m r).accepted.extraVars.getD ∅)[k]? = t.settled r.proposed k := by
  rw [accepted_resolution_extraVars, Vars.getElem?_override?]
  exact getElem?_accepted_mergeJobVariables _ _ _ k

/-- A field is accepted when it changes something, is prompted for and is valid. -/
theorem accepted_resolution_eq_some (hf : f ≠ .extraVars) {y : f.Carrier} :
    (t.resolution m r).accepted.get f = some y ↔ ∃ x, r.overrides.get f = some x ∧
      t.effect? f x = some y ∧ t.ask.get f ∧ t.violation? m r.overrides f y = none := by
  rw [accepted_resolution hf, Option.bind_eq_some_iff]
  simp only [accepted_decideField]

theorem violation_decisions {v : Violation} :
    v ∈ ((t.decisions m r).get f).violation?.toList ↔ f ≠ .extraVars ∧
      ∃ x, r.overrides.get f = some x ∧ (t.decideField m r f x).violation? = some v := by
  by_cases hf : f = .extraVars
  · subst hf
    simp [get_decisions_extraVars, Decision.violation?]
  · cases hx : r.overrides.get f with
    | none => simp [get_decisions_of_none hf hx, Decision.violation?]
    | some x => simp [get_decisions_of_some hf hx, hf]

theorem errors_resolution :
    (t.resolution m r).errors = ((PromptField.all.foldl
      (fun (e : Errors) (f : PromptField) => e.add f.name ((t.decisions m r).get f).violation?.toList)
      (t.merged r).errors).add "passwords_needed_to_start" (t.passwordViolations r)).add
      "resources_needed_to_start" (t.missingResources (t.resolution m r).accepted) := rfl

theorem tight_merged : (t.merged r).errors.Tight :=
  (Errors.tight_empty.add _ _).add _ _

theorem tight_resolution : (t.resolution m r).errors.Tight :=
  ((tight_merged.foldl_add _ _ _).add _ _).add _ _

/-- The violations under a name come from the variables, the field of that name, the passwords and
the resources, in this order. -/
theorem under_resolution (k : String) : (t.resolution m r).errors.under k =
    (t.merged r).errors.under k ++
    (PromptField.all.flatMap fun (f : PromptField) =>
      if k = f.name then ((t.decisions m r).get f).violation?.toList else []) ++
    (if k = "passwords_needed_to_start" then t.passwordViolations r else []) ++
    (if k = "resources_needed_to_start" then
      t.missingResources (t.resolution m r).accepted else []) := by
  rw [errors_resolution, Errors.under_add, Errors.under_add, Errors.under_foldl_add]
  by_cases hp : k = "passwords_needed_to_start"
  · by_cases hr : k = "resources_needed_to_start" <;> simp [hp]
  · by_cases hr : k = "resources_needed_to_start" <;> simp [hp, hr]

theorem under_resolution_name (hf : f ≠ .extraVars) :
    (t.resolution m r).errors.under f.name = ((t.decisions m r).get f).violation?.toList := by
  obtain ⟨hv, hp, hr⟩ := f.name_ne
  have hx : f.name ≠ "extra_vars" := fun h => hf (PromptField.name_inj h)
  have hmerged : (t.merged r).errors.under f.name = [] := by
    rw [merged, errors_mergeJobVariables, Errors.under_add, Errors.under_add, if_neg hx, if_neg hv,
      Errors.under_empty]
  rw [under_resolution, hmerged, if_neg hp, if_neg hr,
    PromptField.flatMap_all_name fun g => ((t.decisions m r).get g).violation?.toList]
  simp

/-- Under a name that is neither a field's nor that of passwords or resources, there are violations of
variables only. -/
theorem getElem?_errors_of_vars {k : String} (hf : ∀ f, f ≠ PromptField.extraVars → k ≠ f.name)
    (hp : k ≠ "passwords_needed_to_start") (hr : k ≠ "resources_needed_to_start") :
    (t.resolution m r).errors[k]? = (t.merged r).errors[k]? := by
  have hfields : (PromptField.all.flatMap fun (f : PromptField) =>
      if k = f.name then ((t.decisions m r).get f).violation?.toList else []) = [] := by
    refine List.flatMap_eq_nil_iff.mpr fun f _ => ?_
    by_cases h : f = .extraVars
    · subst h
      simp [get_decisions_extraVars, Decision.violation?]
    · exact if_neg (hf f h)
  rw [tight_resolution.getElem?, tight_merged.getElem?, under_resolution, hfields, if_neg hp,
    if_neg hr]
  simp

/-- Under the name of a field there is the violation with which the field was refused, if any. -/
theorem getElem?_errors_resolution (hf : f ≠ .extraVars) :
    (t.resolution m r).errors[f.name]? = (r.overrides.get f).bind fun x =>
      (t.decideField m r f x).violation?.map fun v => [v] := by
  rw [tight_resolution.getElem?, under_resolution_name hf]
  cases hx : r.overrides.get f with
  | none =>
    rw [get_decisions_of_none hf hx]
    rfl
  | some x =>
    rw [get_decisions_of_some hf hx, Option.bind_some]
    cases (t.decideField m r f x).violation? <;> rfl

theorem mem_errors_resolution {k : String} {v : Violation} :
    v ∈ (t.resolution m r).errors.under k ↔
      v ∈ (t.merged r).errors.under k ∨
      (∃ f : PromptField, f ≠ .extraVars ∧ k = f.name ∧
        ∃ x, r.overrides.get f = some x ∧ (t.decideField m r f x).violation? = some v) ∨
      k = "passwords_needed_to_start" ∧ v ∈ t.passwordViolations r ∨
      k = "resources_needed_to_start" ∧ v ∈ t.missingResources (t.resolution m r).accepted := by
  rw [errors_resolution, Errors.mem_under_add, Errors.mem_under_add, Errors.mem_under_foldl_add]
  simp only [violation_decisions, PromptField.mem_all, true_and]
  grind

/-- A request can be launched when its variables merge without errors, no field is refused with a
violation, and no password and no resource is missing. -/
theorem launchable_resolution :
    (t.resolution m r).launchable ↔ (t.merged r).errors.isEmpty ∧
      (∀ f x, f ≠ .extraVars → r.overrides.get f = some x →
        (t.decideField m r f x).violation? = none) ∧
      t.passwordViolations r = [] ∧ t.missingResources (t.resolution m r).accepted = [] := by
  have hd : (∀ f ∈ PromptField.all, ((t.decisions m r).get f).violation?.toList = []) ↔
      ∀ f x, f ≠ .extraVars → r.overrides.get f = some x →
        (t.decideField m r f x).violation? = none := by
    simp only [List.eq_nil_iff_forall_not_mem, violation_decisions,
      Option.eq_none_iff_forall_ne_some]
    grind [PromptField.mem_all]
  rw [show (t.resolution m r).launchable = (t.resolution m r).errors.isEmpty from rfl,
    errors_resolution, Errors.isEmpty_add, Errors.isEmpty_add, Errors.isEmpty_foldl_add, hd,
    and_assoc, and_assoc]

end JobTemplate
end JobLaunch
