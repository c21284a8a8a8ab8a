import JobLaunch.Plan
/-!
Jobs and slice workflows that launches have created.
-/
namespace JobLaunch

inductive JobStatus where
  | pending | waiting | running | succeeded | failed | error | cancelled
deriving DecidableEq, Repr, Inhabited

instance : Words JobStatus where
  all := [.pending, .waiting, .running, .succeeded, .failed, .error, .cancelled]
  word
    | .pending => "pending"
    | .waiting => "waiting"
    | .running => "running"
    | .succeeded => "succeeded"
    | .failed => "failed"
    | .error => "error"
    | .cancelled => "cancelled"

namespace JobStatus

def isActive : JobStatus → Bool
  | pending | waiting | running => true
  | succeeded | failed | error | cancelled => false

def isFinished (s : JobStatus) : Bool := !s.isActive

end JobStatus

inductive JobDefinition where
  | playbook (spec : JobSpec)
  | system (spec : SystemJobSpec)
deriving DecidableEq

namespace JobDefinition

instance : Inhabited JobDefinition := ⟨playbook default⟩

def templateId : JobDefinition → Id
  | playbook spec => spec.templateId
  | system spec => spec.templateId

def launchType : JobDefinition → LaunchType
  | playbook spec => spec.launchType
  | system spec => spec.launchType

def asPlaybook? : JobDefinition → Option JobSpec
  | playbook spec => some spec
  | system _ => none

/-- What runs is written as a tag. -/
instance : Coded JobDefinition where
  encode
    | playbook spec => withTag "type" "playbook" (encode spec)
    | system spec => withTag "type" "system" (encode spec)
  decode? j := do
    let (type, body) ← untag? "type" j
    match type with
    | "playbook" => return playbook (← decode? body)
    | "system" => return system (← decode? body)
    | _ => none

end JobDefinition

structure Job where
  id : Id
  templateId : Id
  workflowId : Option Id
  status : JobStatus
  launchType : LaunchType
  requestedAt : Timestamp
  finishedAt : Option Timestamp
  definition : JobDefinition
deriving DecidableEq, Inhabited

namespace Job

def pending (id : Id) (definition : JobDefinition) (workflowId : Option Id) (now : Timestamp) :
    Job where
  id
  templateId := definition.templateId
  workflowId
  status := .pending
  launchType := definition.launchType
  requestedAt := now
  finishedAt := none
  definition

def spec? (j : Job) : Option JobSpec := j.definition.asPlaybook?

/-- The number of the job's slice; a system job has none and counts as zero. -/
def sliceNumber (j : Job) : UInt32 := (j.spec?.map (·.slice.number)).getD 0

instance : Coded Job where
  encode j := .object [
    ("id", encode j.id), ("template_id", encode j.templateId),
    ("workflow_id", encode j.workflowId), ("status", encode j.status),
    ("launch_type", encode j.launchType), ("requested_at", encode j.requestedAt),
    ("finished_at", encode j.finishedAt), ("definition", encode j.definition)]
  decode? j := do
    let r ← Record.ofJson? 8 j
    return {
      id := ← r.required 0 "id"
      templateId := ← r.required 1 "template_id"
      workflowId := ← r.nullable 2 "workflow_id"
      status := ← r.required 3 "status"
      launchType := ← r.required 4 "launch_type"
      requestedAt := ← r.required 5 "requested_at"
      finishedAt := ← r.nullable 6 "finished_at"
      definition := ← r.required 7 "definition" }

end Job

/-- The workflow above the jobs of a sliced launch. -/
structure WorkflowJob where
  id : Id
  templateId : Id
  status : JobStatus
  requestedAt : Timestamp
  spec : WorkflowSpec
deriving DecidableEq, Inhabited

namespace WorkflowJob

def pending (id : Id) (spec : WorkflowSpec) (now : Timestamp) : WorkflowJob :=
  ⟨id, spec.templateId, .pending, now, spec⟩

instance : Coded WorkflowJob where
  encode w := .object [
    ("id", encode w.id), ("template_id", encode w.templateId), ("status", encode w.status),
    ("requested_at", encode w.requestedAt), ("spec", encode w.spec)]
  decode? j := do
    let r ← Record.ofJson? 5 j
    return {
      id := ← r.required 0 "id"
      templateId := ← r.required 1 "template_id"
      status := ← r.required 2 "status"
      requestedAt := ← r.required 3 "requested_at"
      spec := ← r.required 4 "spec" }

end WorkflowJob
end JobLaunch
