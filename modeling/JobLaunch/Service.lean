import JobLaunch.Admission
import JobLaunch.Error
import JobLaunch.Replay
import JobLaunch.Resolve
import JobLaunch.Store
/-!
Launch services: preview, launch and relaunch, and the host summaries from which a relaunch takes
its hosts. A service runs on a store; what it has stored stays stored when it fails later.
-/
namespace JobLaunch

/-- An operation on the store that may be refused. -/
abbrev Service (α : Type) := ExceptT LaunchError (StateM Store) α

/-- The time of an operation and the ids that its records get. -/
structure Stamp where
  now : Timestamp
  workflowId : Id
  jobId : Nat → Id

structure LaunchOutcome where
  plan : LaunchPlan
  resolution : Resolution
  jobs : List Job
  workflow : Option WorkflowJob
deriving DecidableEq

namespace Service

def found {α : Type} (cause : LaunchError) : Option α → Service α
  | some a => pure a
  | none => throw cause

def loadTemplate (id : Id) : Service Template := do
  found (.templateNotFound id) ((← get).templates[id]?)

def loadJob (id : Id) : Service Job := do
  found (.jobNotFound id) ((← get).findJob? id)

def preview (config : Config) (templateId : Id) (request : LaunchRequest) : Service Resolution := do
  return (← loadTemplate templateId).resolve config.maxForks request

def planLaunch (config : Config) (template : Template) (request : LaunchRequest) :
    Service (LaunchPlan × Resolution) := do
  let active := countActive (← get).jobs template.id
  if template.isBlocked config.scheduleMaxJobs active then
    throw (.capacityBlocked template.name active)
  let resolution := template.resolve config.maxForks request
  if resolution.launchable then return (template.plan resolution request, resolution)
  throw (.rejected resolution.errors)

/-- The records of a plan: its jobs, and the workflow above them when they are slices. -/
def records (stamp : Stamp) : LaunchPlan → List Job × Option WorkflowJob
  | .single spec => ([.pending (stamp.jobId 0) (.playbook spec) none stamp.now], none)
  | .system spec => ([.pending (stamp.jobId 0) (.system spec) none stamp.now], none)
  | .sliced workflow slices =>
    (slices.mapIdx fun i spec =>
      .pending (stamp.jobId i) (.playbook spec) (some stamp.workflowId) stamp.now,
      some (.pending stamp.workflowId workflow stamp.now))

def createJob (config : Job → LaunchConfig) (job : Job) : Service Unit := do
  set (← found (.jobExists job.id) ((← get).createJob? job))
  modify (·.saveLaunchConfig (config job))

def persist (stamp : Stamp) (request : LaunchRequest) (plan : LaunchPlan)
    (resolution : Resolution) : Service LaunchOutcome := do
  let (jobs, workflow) := records stamp plan
  if let some w := workflow then modify (·.createWorkflow w)
  jobs.forM <| createJob fun job =>
    ⟨job.id, request.launchType, resolution.accepted, resolution.surveyPasswords, stamp.now⟩
  return { plan, resolution, jobs, workflow }

def launch (config : Config) (stamp : Stamp) (templateId : Id) (request : LaunchRequest) :
    Service LaunchOutcome := do
  let template ← loadTemplate templateId
  let (plan, resolution) ← planLaunch config template request
  persist stamp request plan resolution

def listSummaries (jobId : Id) : Service (List HostSummary) := do
  let _ ← loadJob jobId
  return (← get).summariesOf jobId

/-- Records the counters of a host while its job has not ended. -/
def recordSummary (now : Timestamp) (jobId : Id) (host : String) (counters : HostCounters) :
    Service HostSummary := do
  let job ← loadJob jobId
  if job.status.isFinished then
    let id := job.id.toText
    let status := word job.status
    throw (.invalidState s!"Job {id} is {status}, host summaries can no longer change")
  let summary := match ((← get).summaryTable jobId)[host]? with
    | some old => old.update counters now
    | none => .record jobId host counters now
  modify (·.putSummary summary)
  return summary

def hostsWith (jobId : Id) (status : HostStatus) (s : Store) : List String :=
  ((s.summariesOf jobId).filter status.selects).map (·.hostName)

def retryHosts (jobId : Id) (status : String) : Service (List String) := do
  let status ← found (.invalidStatusFilter status) (ofWord? status)
  let _ ← loadJob jobId
  return hostsWith jobId status (← get)

def retryLimit (jobId : Id) (status : HostStatus) : Service String := do
  let hosts := hostsWith jobId status (← get)
  if hosts.isEmpty then
    let status := word status
    throw (.invalidState s!"No hosts with status {status} to relaunch")
  return ",".intercalate hosts

/-- The request that replays a recorded configuration: a slice stays the slice it was, and the limit
of a callback is no override. -/
def replayRequest (job : Job) (recorded : LaunchConfig) (passwords : Table String) :
    LaunchRequest :=
  let overrides : Overrides :=
    if recorded.launchType = .callback then recorded.overrides.set .limit none
    else recorded.overrides
  let slice := (job.spec?.map (·.slice)).filter Slice.isSliced
  { overrides
    credentialPasswords := passwords
    preventSlicing := slice.isSome
    pinnedSlice := slice
    launchType := .relaunch }

end Service

def LaunchPlan.withLimit (limit : String) : LaunchPlan → LaunchPlan
  | .single spec => .single { spec with options := { spec.options with limit } }
  | .sliced workflow slices => .sliced workflow (slices.map fun spec =>
      { spec with options := { spec.options with limit } })
  | .system spec => .system spec

namespace Service

/-- Launches a job's template as it is now, with the overrides that the job was launched with. With a
host status the new job is limited to the job's hosts with it; a callback keeps its limit. -/
def relaunch (config : Config) (stamp : Stamp) (jobId : Id) (request : RelaunchRequest) :
    Service LaunchOutcome := do
  let job ← loadJob jobId
  let template ← loadTemplate job.templateId
  let recorded := (← get).configOf job stamp.now
  let unprompted := recorded.unpromptedFields (.of template)
  if !unprompted.isEmpty then throw (.relaunchBlocked unprompted)
  let retry ← request.hosts.mapM (retryLimit job.id)
  let replay := replayRequest job recorded request.credentialPasswords
  let (plan, resolution) ← planLaunch config template replay
  let callback := if recorded.launchType = .callback then recorded.overrides.limit else none
  let plan := match retry.or callback with
    | some limit => plan.withLimit limit
    | none => plan
  persist stamp replay plan resolution

end Service
end JobLaunch
