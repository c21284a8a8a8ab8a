import JobLaunch.Job
import JobLaunch.LaunchConfig
import JobLaunch.Summary
/-!
The store: templates, organizations, jobs in the order of their creation, slice workflows, launch
configurations, host summaries and hosts.
-/
namespace JobLaunch

abbrev IdTable (α : Type) := Std.ExtTreeMap Id α

/-- Everything that launches read and write. Host summaries are kept by job and host name. -/
structure Store where
  templates : IdTable Template := ∅
  organizations : IdTable Organization := ∅
  jobs : List Job := []
  workflows : IdTable WorkflowJob := ∅
  launchConfigs : IdTable LaunchConfig := ∅
  summaries : IdTable (Table HostSummary) := ∅
  hosts : IdTable (List Host) := ∅
deriving DecidableEq

def modifyFirst? {α : Type} (p : α → Bool) (f : α → α) : List α → Option (List α)
  | [] => none
  | x :: xs => if p x then some (f x :: xs) else (modifyFirst? p f xs).map (x :: ·)

namespace Store

instance : EmptyCollection Store := ⟨{}⟩

instance : Inhabited Store := ⟨∅⟩

def saveTemplate (s : Store) (t : Template) : Store :=
  { s with templates := s.templates.insert t.id t }

def insertOrganization (s : Store) (o : Organization) : Store :=
  { s with organizations := s.organizations.insert o.id o }

def findJob? (s : Store) (id : Id) : Option Job := s.jobs.find? fun j => j.id == id

def createJob? (s : Store) (j : Job) : Option Store :=
  if (s.findJob? j.id).isSome then none else some { s with jobs := s.jobs ++ [j] }

/-- The store with a new status of a job, which has ended when the status says so. -/
def updateStatus? (s : Store) (id : Id) (status : JobStatus) (now : Timestamp) : Option Store :=
  let update (j : Job) : Job :=
    { j with status, finishedAt := if status.isFinished then some now else none }
  (modifyFirst? (fun j => j.id == id) update s.jobs).map fun jobs => { s with jobs }

def createWorkflow (s : Store) (w : WorkflowJob) : Store :=
  { s with workflows := s.workflows.insert w.id w }

/-- Jobs of a workflow in the order of their slices. -/
def workflowJobs (s : Store) (id : Id) : List Job :=
  (s.jobs.filter fun j => j.workflowId == some id).mergeSort fun a b =>
    a.sliceNumber ≤ b.sliceNumber

def saveLaunchConfig (s : Store) (c : LaunchConfig) : Store :=
  { s with launchConfigs := s.launchConfigs.insert c.jobId c }

/-- The configuration that a job was launched with; a job without one has no overrides. -/
def configOf (s : Store) (j : Job) (now : Timestamp) : LaunchConfig :=
  (s.launchConfigs[j.id]?).getD ⟨j.id, j.launchType, ∅, ∅, now⟩

def summaryTable (s : Store) (jobId : Id) : Table HostSummary := (s.summaries[jobId]?).getD ∅

def summariesOf (s : Store) (jobId : Id) : List HostSummary :=
  (s.summaryTable jobId).toList.map fun (entry : String × HostSummary) => entry.2

def putSummary (s : Store) (h : HostSummary) : Store :=
  { s with summaries := s.summaries.insert h.jobId ((s.summaryTable h.jobId).insert h.hostName h) }

def hostsOf (s : Store) (inventoryId : Id) : List Host := (s.hosts[inventoryId]?).getD []

def insertHosts (s : Store) (inventoryId : Id) (hosts : List Host) : Store :=
  { s with hosts := s.hosts.insert inventoryId (s.hostsOf inventoryId ++ hosts) }

/-- Hosts with a fact update made, and whether there is the host that it is for. -/
def updateHost (hosts : List Host) (u : FactUpdate) : List Host × Bool :=
  let update (h : Host) : Host := { h with facts := u.facts, factsModified := some u.modifiedAt }
  match modifyFirst? (fun h => h.name == u.hostName) update hosts with
  | some hosts => (hosts, true)
  | none => (hosts, false)

/-- Makes fact updates of an inventory one after another, and counts those that found their host. -/
def updateFacts (s : Store) (inventoryId : Id) (updates : List FactUpdate) : Store × Nat :=
  let (hosts, count) := updates.foldl (fun (hosts, count) u =>
    let (hosts, found) := updateHost hosts u
    (hosts, count + if found then 1 else 0)) (s.hostsOf inventoryId, 0)
  if count = 0 then (s, 0) else ({ s with hosts := s.hosts.insert inventoryId hosts }, count)

end Store
end JobLaunch
