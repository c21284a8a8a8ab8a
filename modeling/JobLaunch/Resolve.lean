import JobLaunch.Planning
import JobLaunch.Readiness
/-!
Resolving a request against a template. Every requested field is decided on its own: it repeats what
the template has, it is accepted, or it is rejected with a reason. `Resolution` collects the
decisions.
-/
namespace JobLaunch

/-- What is requested beyond what is assigned. -/
def PromptField.beyond : (f : PromptField) → (assigned requested : f.Carrier) → f.Carrier
  | .credentials, (assigned : List Credential), (requested : List Credential) =>
    credentialDelta assigned requested
  | .labels, (assigned : List Id), (requested : List Id) => idDelta assigned requested
  | _, _, requested => requested

inductive Decision (α : Type) where
  | unchanged
  | accept (value : α)
  | reject (value : α) (violation : Option Violation)

namespace Decision
variable {α : Type}

def accepted? : Decision α → Option α
  | accept value => some value
  | _ => none

def rejected? : Decision α → Option α
  | reject value _ => some value
  | _ => none

def violation? : Decision α → Option Violation
  | reject _ violation => violation
  | _ => none

end Decision

namespace JobTemplate
variable (t : JobTemplate)

/-- What a requested value changes, if anything, as the field's strategy compares it. -/
def change? (f : PromptField) (requested : f.Carrier) : Option f.Carrier :=
  match f.strategy with
  | .scalar => if (t.value? f).any fun own => f.same own requested then none else some requested
  | .orderedSet =>
    if !f.isEmptySelection requested && (t.value? f).bind f.ids? == f.ids? requested then none
    else some requested
  | .unorderedSet =>
    let beyond := match t.value? f with
      | some own => f.beyond own requested
      | none => requested
    if f.isEmptySelection beyond then none else some beyond

/-- Whether a branch is the one that the template runs anyway: the project's, when it names none. -/
def runsBranch : (f : PromptField) → f.Carrier → Bool
  | .scmBranch, (branch : String) =>
    t.options.scmBranch == "" && t.project.any fun p => p.scmBranch == branch
  | _, _ => false

/-- Why a field that the template prompts for cannot have a value. -/
def violation? (maxForks : UInt32) (overrides : Overrides) :
    (f : PromptField) → f.Carrier → Option Violation
  | .scmBranch, (branch : String) =>
    match t.project with
    | none => some ⟨.validation, "Project is missing."⟩
    | some p =>
      if branch ≠ p.scmBranch ∧ !p.allowOverride then
        some ⟨.validation, "Project does not allow override of branch."⟩
      else none
  | .jobSliceCount, (count : UInt32) =>
    if count > 1 ∧ t.effectiveSliceCount overrides ≤ 1 then
      some ⟨.validation, "Job inventory does not have enough hosts for slicing"⟩
    else none
  | .forks, (forks : UInt32) =>
    if maxForks > 0 ∧ forks > maxForks then
      some ⟨.validation, s!"Maximum number of forks ({maxForks}) exceeded."⟩
    else none
  | _, _ => none

def decideField (maxForks : UInt32) (request : LaunchRequest) (f : PromptField)
    (requested : f.Carrier) : Decision f.Carrier :=
  match (t.change? f requested).filter fun v => !t.runsBranch f v with
  | none => .unchanged
  | some v =>
    if !t.ask.get f then
      .reject v (if request.excludes .prompts then none
        else some ⟨.policy, "Field is not configured to prompt on launch."⟩)
    else match t.violation? maxForks request.overrides f v with
      | some violation => .reject v (some violation)
      | none => .accept v

def decisions (maxForks : UInt32) (request : LaunchRequest) :
    PerField fun f => Decision f.Carrier :=
  .ofFn fun f =>
    if f = .extraVars then .unchanged
    else match request.overrides.get f with
      | some requested => t.decideField maxForks request f requested
      | none => .unchanged

/-- Passwords cannot be given where the template does not prompt for credentials. -/
def passwordViolations (request : LaunchRequest) : List Violation :=
  if !request.excludes .prompts && !t.ask.credentials &&
      !(missingPasswords t.credentials request.credentialPasswords).isEmpty then
    [⟨.resourceMissing, "Saved launch configurations cannot provide passwords needed to start."⟩]
  else []

end JobTemplate

/-- Variables as the override of a field; no variables are no override. -/
def Vars.override? (vars : Vars) : Option Vars := if vars.isEmpty then none else some vars

def JobTemplate.resolve (t : JobTemplate) (maxForks : UInt32) (request : LaunchRequest)
    (merge : VariableMerge) : Resolution :=
  let decisions := t.decisions maxForks request
  let accepted : Overrides :=
    (PerField.ofFn fun f => (decisions.get f).accepted?).set .extraVars merge.accepted.override?
  let rejected : Overrides :=
    (PerField.ofFn fun f => (decisions.get f).rejected?).set .extraVars merge.rejected.override?
  let fieldErrors := PromptField.all.foldl
    (fun (e : Errors) f => e.add f.name (decisions.get f).violation?.toList) merge.errors
  let errors := (fieldErrors.add "passwords_needed_to_start" (t.passwordViolations request)).add
    "resources_needed_to_start" (t.missingResources accepted)
  { accepted, rejected, errors
    launchable := errors.isEmpty
    surveyPasswords := merge.surveyPasswords }

/-- Resolves a request against a template. A forks ceiling of zero is none. -/
def Template.resolve (t : Template) (maxForks : UInt32) (request : LaunchRequest) : Resolution :=
  let merge := mergeVariables t (request.overrides.extraVars.getD ∅) request.surveyAnswers
    request.excludedErrors
  match t with
  | .job t => t.resolve maxForks request merge
  | .system _ =>
    { accepted := (∅ : Overrides).set .extraVars merge.accepted.override?
      rejected := (∅ : Overrides).set .extraVars merge.rejected.override?
      errors := merge.errors
      launchable := merge.errors.isEmpty
      surveyPasswords := merge.surveyPasswords }

end JobLaunch
