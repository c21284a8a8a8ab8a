import JobLaunch.Plan
/-!
Launch configurations: the record, kept with every job, of the overrides it was launched with.
-/
namespace JobLaunch

/-- The overrides that a job was launched with, as a relaunch replays them. -/
structure LaunchConfig where
  jobId : Id
  launchType : LaunchType
  overrides : Overrides
  surveyPasswords : Table String
  createdAt : Timestamp
deriving DecidableEq

namespace LaunchConfig

instance : Inhabited LaunchConfig := ⟨default, default, ∅, ∅, default⟩

def extraVars (c : LaunchConfig) : Vars := c.overrides.extraVars.getD ∅

/-- The values worth showing, in field order: no empty variables and no empty selections. -/
def provided (c : LaunchConfig) : List FieldValue :=
  c.overrides.values.filter fun
    | ⟨.extraVars, (vars : Vars)⟩ => !vars.isEmpty
    | v => !v.isEmptySelection

def prompts (c : LaunchConfig) : Vars :=
  Table.ofEntries (c.provided.map fun v => (v.field.name, Value.ofJson v.toJson))

/-- As `prompts`, with survey passwords hidden. -/
def displayPrompts (c : LaunchConfig) : Vars :=
  Table.ofEntries (c.provided.map fun
    | ⟨.extraVars, (vars : Vars)⟩ =>
      (PromptField.extraVars.name, Value.ofJson (displayVars vars c.surveyPasswords).toJson)
    | v => (v.field.name, Value.ofJson v.toJson))

instance : Coded LaunchConfig where
  encode c := .object [
    ("job_id", encode c.jobId), ("launch_type", encode c.launchType),
    ("prompts", encode c.overrides), ("survey_passwords", encode c.surveyPasswords),
    ("created_at", encode c.createdAt)]
  decode? j := do
    let r ← Record.ofJson? 5 j
    return {
      jobId := ← r.required 0 "job_id"
      launchType := ← r.required 1 "launch_type"
      overrides := ← r.required 2 "prompts"
      surveyPasswords := ← r.required 3 "survey_passwords"
      createdAt := ← r.required 4 "created_at" }

end LaunchConfig
end JobLaunch
