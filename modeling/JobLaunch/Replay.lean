import JobLaunch.LaunchConfig
import JobLaunch.Policy
/-!
Whether a relaunch is legitimate. It replays the overrides of a past job, so the template must still
prompt for every field that the job was launched with.
-/
namespace JobLaunch

/-- What a template lets launches override, at one moment. -/
structure PolicySnapshot where
  kind : TemplateKind
  ask : AskFlags
  surveyEnabled : Bool
  surveyVariables : List String
deriving DecidableEq

namespace PolicySnapshot

def of (t : Template) : PolicySnapshot where
  kind := t.kind
  ask := t.ask
  surveyEnabled := (t.asJob?.map (·.surveyEnabled)).getD false
  surveyVariables := (t.asJob?.map (·.survey.variableNames)).getD []

/-- Whether the survey alone decides which variables are prompted for. -/
def surveyGoverns (p : PolicySnapshot) : Bool := p.surveyEnabled && !p.ask.extraVars

/-- Whether an override is one that the template does not prompt for. A callback always limits the
job to the calling host. -/
def unprompted (p : PolicySnapshot) (c : LaunchConfig) (f : PromptField) : Bool :=
  if f = .extraVars ∧ p.surveyGoverns then
    c.extraVars.keys.any fun name => !p.surveyVariables.contains name
  else !p.ask.get f && !(f == .limit && c.launchType == .callback)

/-- Whether an override was the caller's choice. -/
def chosen (p : PolicySnapshot) (c : LaunchConfig) (f : PromptField) : Bool :=
  (f == .extraVars && p.surveyGoverns) || !(f == .limit && c.launchType == .callback)

end PolicySnapshot

namespace LaunchConfig

def fieldsUnder (c : LaunchConfig) (p : PolicySnapshot) : List PromptField :=
  p.kind.fields.filter fun f => c.provided.any fun v => v.field == f

def unpromptedFields (c : LaunchConfig) (p : PolicySnapshot) : List PromptField :=
  (c.fieldsUnder p).filter (p.unprompted c)

def wasFullyPrompted (c : LaunchConfig) (p : PolicySnapshot) : Bool :=
  (c.unpromptedFields p).isEmpty

/-- Whether anything was overridden, prompted for or not. -/
def hasAnyOverride (c : LaunchConfig) (p : PolicySnapshot) : Bool :=
  (c.fieldsUnder p).any (p.chosen c)

end LaunchConfig
end JobLaunch
