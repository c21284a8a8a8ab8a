import JobLaunch.Novel
import JobLaunch.Resolution
import JobLaunch.Template
/-!
Readiness: what a job template still lacks before a job of it can start.
-/
namespace JobLaunch.JobTemplate
variable (t : JobTemplate)

/-- Problems of the template that no launch can mend. -/
def validationErrors : Errors :=
  ((∅ : Errors).add "inventory"
    (if t.inventory.isNone && !t.ask.inventory then
      [⟨.resourceMissing, "Job Template must provide 'inventory' or allow prompting for it."⟩]
    else [])).add "project"
    (if t.project.isNone then
      [⟨.resourceMissing, "Job Templates must have a project assigned."⟩]
    else [])

/-- Resources that the template lacks and the launch does not supply; it can supply an inventory. -/
def missingResources (accepted : Overrides) : List Violation :=
  (t.resourcesNeeded.filter fun r => !(r == "inventory" && accepted.inventory.isSome)).map fun r =>
    ⟨.resourceMissing, s!"Job Template {r} is missing or undefined."⟩

/-- Variables that the survey requires and has no default for. -/
def variablesNeeded : List String :=
  (t.activeQuestions.filter fun q => q.required && q.effectiveDefault.isNone).map (·.varName)

/-- Whether a job can start from the template alone. A provisioning callback brings variables, and
is launched with whatever the template has for the fields it prompts for. -/
def startsWithoutInput (callbackVars : Option Vars) : Bool :=
  let answered := callbackVars.getD ∅
  (t.variablesNeeded.all fun v => answered.contains v) &&
    (callbackVars.isSome || !t.ask.any) &&
    (missingPasswords t.credentials ∅).isEmpty

end JobLaunch.JobTemplate
