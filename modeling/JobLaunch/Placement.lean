import JobLaunch.Novel
import JobLaunch.Job
/-!
Around a job: the instance groups it should run on, the notifications it sends, and the variables
that describe it to its playbook.
-/
namespace JobLaunch

/-- Instance groups that may serve a job, and whether the search stops with them. -/
structure GroupLevel where
  groups : List Id
  stops : Bool
deriving DecidableEq, Repr

def GroupLevel.reached : List GroupLevel → List Id
  | [] => []
  | level :: levels => level.groups ++ if level.stops then [] else reached levels

def JobSpec.groupLevels (s : JobSpec) (template : Option JobTemplate)
    (organization : Option Organization) : List GroupLevel :=
  (template.map fun t => ⟨t.instanceGroups, s.preventFallback⟩).toList ++
  (s.inventory.map fun i => ⟨i.instanceGroups, i.preventFallback⟩).toList ++
  (organization.map fun o => ⟨o.instanceGroups, false⟩).toList

/-- Instance groups for a job, the preferred first. Groups chosen at launch win, and choosing none
leaves the global ones; without a choice they come from the levels. -/
def JobSpec.preferredGroups (s : JobSpec) (template : Option JobTemplate)
    (organization : Option Organization) (global : List Id) : List Id :=
  let found := s.instanceGroups.getD
    (novel id ∅ (GroupLevel.reached (s.groupLevels template organization)))
  if found.isEmpty then global else found

/-- Notifications of jobs of a template. Those of a playbook job include its project's and its
organization's. -/
def Template.notificationsWith (t : Template) (organization : Option Organization) :
    Notifications :=
  match t with
  | .system t => t.notifications
  | .job t =>
    let withProject := match t.project with
      | some p => t.notifications.merge p.notifications
      | none => t.notifications
    match organization with
    | some o => withProject.merge o.notifications
    | none => withProject

def Job.metaVars (j : Job) (template : Option JobTemplate) : Vars :=
  let ofProject := match j.spec?.bind (·.project) with
    | some p => [("project_revision", p.scmRevision), ("project_scm_branch", p.scmBranch)]
    | none => []
  let ofBranch := ((j.spec?.map (·.options.scmBranch)).filter (· ≠ "")).map (("job_scm_branch", ·))
  let ofTemplate := match template with
    | some t => [("job_template_id", t.id.toText), ("job_template_name", t.name)]
    | none => []
  let entries := [("job_id", j.id.toText), ("job_launch_type", word j.launchType)] ++ ofProject ++
    ofBranch.toList ++ ofTemplate
  Table.ofEntries (entries.map fun (name, text) => ("tarmac_" ++ name, Value.text text))

end JobLaunch
