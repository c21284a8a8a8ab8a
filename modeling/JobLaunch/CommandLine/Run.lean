import JobLaunch.CommandLine.Arguments
import JobLaunch.CommandLine.Document
import JobLaunch.CommandLine.Report
import JobLaunch.Service
/-!
Running a command: from the texts of its files to what it prints.
-/
namespace JobLaunch.Invocation

def config (i : Invocation) : Except CommandError Config := do
  let globalInstanceGroups ← (parseIdList i.instanceGroups).mapError .config
  let config : Config :=
    { maxForks := i.maxForks, scheduleMaxJobs := i.scheduleMaxJobs, globalInstanceGroups }
  match config.invalid? with
  | some cause => throw (.config cause)
  | none => return config

/-- Runs a service on a store that holds one template. -/
def serve {α : Type} (template : Template) (service : Service α) : Except CommandError α :=
  (service.run.run ((∅ : Store).saveTemplate template)).1.mapError .launch

/-- Carries out a command. It launches in a store of its own, so nothing comes of it but a
report. -/
def run (i : Invocation) (files : Files) (stamp : Stamp) : Except CommandError String := do
  let config ← i.config
  match i.command with
  | .checkTemplate path =>
    let template : Template ← files.load path
    match template with
    | .job t => return if i.json then Report.json (Report.checkJson t) else Report.check t
    | .system t =>
      return if i.json then Report.json Report.checkSystemJson else Report.checkSystem t
  | .resolve path request =>
    let template : Template ← files.load path
    let request : LaunchRequest ← files.loadOr {} request
    let resolution ← serve template (Service.preview config template.id request)
    return if i.json then Report.json (encode resolution) else Report.resolution resolution
  | .plan path request =>
    let template : Template ← files.load path
    let request : LaunchRequest ← files.loadOr {} request
    let outcome ← serve template (Service.launch config stamp template.id request)
    if i.json then return Report.json (encode outcome.plan)
    else (Report.launch template outcome config.globalInstanceGroups).mapError .overflow
  | .checkRelaunch path recorded =>
    let template : Template ← files.load path
    let recorded : LaunchConfig ← files.load recorded
    let policy := PolicySnapshot.of template
    return if i.json then Report.json (Report.relaunchJson recorded policy)
      else Report.relaunch recorded policy
  | .parseVars path => return Report.json (encode (← files.loadVars path))
  | .showPrompts path =>
    let recorded : LaunchConfig ← files.load path
    return if i.json then Report.json (encode recorded.displayPrompts) else Report.prompts recorded

end JobLaunch.Invocation
