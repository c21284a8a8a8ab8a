import JobLaunch.Prompt
import JobLaunch.Survey
/-!
Templates. A job template runs a playbook on an inventory and says which fields a launch may
override; a system job template runs a maintenance command.
-/
namespace JobLaunch

/-- A template of playbook jobs. Instance groups are in order of preference. -/
structure JobTemplate where
  id : Id
  name : String
  description : Option String := none
  organizationId : Option Id := none
  options : JobOptions := {}
  ask : AskFlags := ∅
  inventory : Option Inventory := none
  project : Option Project := none
  executionEnvironment : Option Id := none
  credentials : List Credential := []
  labels : List Id := []
  instanceGroups : List Id := []
  preventFallback : Bool := false
  surveyEnabled : Bool := false
  survey : Survey := .empty
  sliceCount : UInt32 := 1
  hostConfigKey : String := ""
  notifications : Notifications := {}
deriving DecidableEq

namespace JobTemplate

/-- The survey, when it decides about variables: it is enabled and asks something. -/
def surveyActive (t : JobTemplate) : Bool := t.surveyEnabled && !t.survey.questions.isEmpty

def activeQuestions (t : JobTemplate) : List Question :=
  if t.surveyActive then t.survey.questions else []

def passwordsNeeded (t : JobTemplate) : List String := t.credentials.flatMap (·.passwordsNeeded)

/-- Names of the resources that a job cannot do without and the template does not have. -/
def resourcesNeeded (t : JobTemplate) : List String :=
  (if t.project.isNone then ["project"] else []) ++
    (if t.inventory.isNone then ["inventory"] else [])

/-- The template's own value of a field, unless the field is a link that is not set. -/
def value? (t : JobTemplate) : (f : PromptField) → Option f.Carrier
  | .extraVars => some t.options.extraVars
  | .inventory => t.inventory
  | .scmBranch => some t.options.scmBranch
  | .limit => some t.options.limit
  | .jobTags => some t.options.jobTags
  | .skipTags => some t.options.skipTags
  | .jobType => some t.options.jobType
  | .verbosity => some t.options.verbosity
  | .diffMode => some t.options.diffMode
  | .credentials => some t.credentials
  | .executionEnvironment => t.executionEnvironment
  | .labels => some t.labels
  | .forks => some t.options.forks
  | .jobSliceCount => some t.sliceCount
  | .timeout => some t.options.timeout
  | .instanceGroups => some t.instanceGroups

/-- Options and ask flags stand among the template's own fields. -/
instance : Coded JobTemplate where
  encode t := .object <|
    [("id", encode t.id), ("name", encode t.name), ("description", encode t.description),
      ("organization_id", encode t.organizationId)] ++
    t.options.fields ++ t.ask.fields ++
    [("inventory", encode t.inventory), ("project", encode t.project),
      ("execution_environment", encode t.executionEnvironment),
      ("credentials", encode t.credentials), ("labels", encode t.labels),
      ("instance_groups", encode t.instanceGroups),
      ("prevent_instance_group_fallback", encode t.preventFallback),
      ("survey_enabled", encode t.surveyEnabled), ("survey_spec", encode t.survey),
      ("job_slice_count", encode t.sliceCount), ("host_config_key", encode t.hostConfigKey),
      ("notifications", encode t.notifications)]
  decode? j := do
    let r ← Record.ofObject? j
    return {
      id := ← r.required 0 "id"
      name := ← r.required 1 "name"
      description := ← r.optional 2 "description"
      organizationId := ← r.optional 3 "organization_id"
      options := ← JobOptions.ofRecord? r
      ask := ← AskFlags.ofRecord? r
      inventory := ← r.optional 4 "inventory"
      project := ← r.optional 5 "project"
      executionEnvironment := ← r.optional 6 "execution_environment"
      credentials := ← r.orElse 7 "credentials" []
      labels := ← r.orElse 8 "labels" []
      instanceGroups := ← r.orElse 9 "instance_groups" []
      preventFallback := ← r.orElse 10 "prevent_instance_group_fallback" false
      surveyEnabled := ← r.orElse 11 "survey_enabled" false
      survey := ← r.orElse 12 "survey_spec" .empty
      sliceCount := ← r.orElse 13 "job_slice_count" 1
      hostConfigKey := ← r.orElse 14 "host_config_key" ""
      notifications := ← r.orElse 15 "notifications" {} }

end JobTemplate

structure SystemJobTemplate where
  id : Id
  name : String
  description : Option String := none
  jobType : SystemJobType
  extraVars : Vars := ∅
  notifications : Notifications := {}
deriving DecidableEq

instance : Coded SystemJobTemplate where
  encode t := .object [
    ("id", encode t.id), ("name", encode t.name), ("description", encode t.description),
    ("job_type", encode t.jobType), ("extra_vars", encode t.extraVars),
    ("notifications", encode t.notifications)]
  decode? j := do
    let r ← Record.ofJson? 6 j
    return {
      id := ← r.required 0 "id"
      name := ← r.required 1 "name"
      description := ← r.optional 2 "description"
      jobType := ← r.required 3 "job_type"
      extraVars := ← r.orElse 4 "extra_vars" ∅
      notifications := ← r.orElse 5 "notifications" {} }

inductive TemplateKind where
  | job | system
deriving DecidableEq, Repr, Inhabited

instance : Words TemplateKind where
  all := [.job, .system]
  word
    | .job => "job"
    | .system => "system"

inductive Template where
  | job (t : JobTemplate)
  | system (t : SystemJobTemplate)
deriving DecidableEq

namespace Template

def id : Template → Id
  | job t => t.id
  | system t => t.id

def name : Template → String
  | job t => t.name
  | system t => t.name

def kind : Template → TemplateKind
  | job _ => .job
  | system _ => .system

def extraVars : Template → Vars
  | job t => t.options.extraVars
  | system t => t.extraVars

def asJob? : Template → Option JobTemplate
  | job t => some t
  | system _ => none

/-- Fields that a launch may override. System templates have no ask flags: only their variables may
be overridden, and always. -/
def ask : Template → AskFlags
  | job t => t.ask
  | system _ => (∅ : AskFlags).set .extraVars true

instance : Coded Template where
  encode
    | job t => withTag "kind" "job" (encode t)
    | system t => withTag "kind" "system" (encode t)
  decode? j := do
    let (kind, body) ← untag? "kind" j
    match ← ofWord? kind with
    | TemplateKind.job => return job (← decode? body)
    | TemplateKind.system => return system (← decode? body)

end Template
end JobLaunch
