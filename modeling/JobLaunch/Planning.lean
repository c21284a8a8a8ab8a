import JobLaunch.Novel
import JobLaunch.Request
import JobLaunch.Resolution
import JobLaunch.Variables
/-!
Planning. A resolved launch of a job template becomes one job, or one job for each slice of the
inventory when the template is sliced and the inventory has hosts enough.
-/
namespace JobLaunch

/-- How many slices can be used: no more than there are hosts. -/
def effectiveSliceCount (inventory : Option Inventory) (requested : UInt32) : UInt32 :=
  match inventory with
  | some i => (min requested.toUInt64 i.hostCount).toUInt32
  | none => requested

namespace JobTemplate
variable (t : JobTemplate)

/-- How many slices a launch with given overrides can use. An override counts only where the
template prompts for its field. -/
def effectiveSliceCount (o : Overrides) : UInt32 :=
  let inventory := (if t.ask.inventory then o.inventory else none).or t.inventory
  let requested := (if t.ask.jobSliceCount then o.jobSliceCount else none).getD t.sliceCount
  JobLaunch.effectiveSliceCount inventory requested

def jobOptions (o : Overrides) : JobOptions :=
  { t.options with
    jobType := o.jobType.getD t.options.jobType
    scmBranch := o.scmBranch.getD t.options.scmBranch
    forks := o.forks.getD t.options.forks
    limit := o.limit.getD t.options.limit
    verbosity := o.verbosity.getD t.options.verbosity
    extraVars := t.withSurveyDefaults (t.options.extraVars.overlay (o.extraVars.getD ∅))
    jobTags := o.jobTags.getD t.options.jobTags
    skipTags := o.skipTags.getD t.options.skipTags
    timeout := o.timeout.getD t.options.timeout
    diffMode := o.diffMode.getD t.options.diffMode }

/-- The job that a resolved launch runs, on all hosts. -/
def jobSpec (resolution : Resolution) (request : LaunchRequest) : JobSpec :=
  let o := resolution.accepted
  { templateId := t.id
    name := t.name
    launchType := request.launchType
    options := t.jobOptions o
    inventory := o.inventory.or t.inventory
    project := t.project
    executionEnvironment := o.executionEnvironment.or t.executionEnvironment
    credentials := effectiveCredentials t.credentials (o.credentials.getD [])
    labels := t.labels ++ idDelta t.labels (o.labels.getD [])
    instanceGroups := o.instanceGroups
    preventFallback := t.preventFallback
    surveyPasswords := resolution.surveyPasswords
    slice := .whole }

end JobTemplate

def Slice.parts (count : UInt32) : List Slice :=
  (List.range count.toNat).map fun i => ⟨UInt32.ofNat (i + 1), count⟩

def JobTemplate.plan (t : JobTemplate) (resolution : Resolution) (request : LaunchRequest) :
    LaunchPlan :=
  let spec := t.jobSpec resolution request
  let count := t.effectiveSliceCount resolution.accepted
  if request.preventSlicing then .single { spec with slice := request.pinnedSlice.getD .whole }
  else if count ≤ 1 then .single spec
  else
    let workflow : WorkflowSpec := {
      templateId := t.id
      name := t.name
      launchType := request.launchType
      sliceCount := count
      inventory := spec.inventory
      extraVars := spec.options.extraVars }
    .sliced workflow ((Slice.parts count).map fun slice => { spec with slice })

def SystemJobTemplate.jobSpec (t : SystemJobTemplate) (resolution : Resolution)
    (request : LaunchRequest) : SystemJobSpec where
  templateId := t.id
  name := t.name
  jobType := t.jobType
  launchType := request.launchType
  extraVars := t.extraVars.overlay (resolution.accepted.extraVars.getD ∅)

def Template.plan (t : Template) (resolution : Resolution) (request : LaunchRequest) :
    LaunchPlan :=
  match t with
  | .job t => t.plan resolution request
  | .system t => .system (t.jobSpec resolution request)

end JobLaunch
