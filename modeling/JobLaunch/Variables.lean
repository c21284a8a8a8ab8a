import JobLaunch.Answer
import JobLaunch.Policy
import JobLaunch.Request
import JobLaunch.Resolution
/-!
Variables of a launch. Survey answers overlay the other variables; the survey decides about its own
variables, and everything else is accepted only where the template prompts for variables.
-/
namespace JobLaunch

/-- Which variables hold, which do not, and why. -/
structure VariableMerge where
  accepted : Vars := ∅
  rejected : Vars := ∅
  errors : Errors := ∅
  surveyPasswords : Table String := ∅
deriving DecidableEq

/-- Variables with every question that they do not answer answered by its default. -/
def JobTemplate.withSurveyDefaults (t : JobTemplate) (vars : Vars) : Vars :=
  t.activeQuestions.foldl (fun vars q =>
    match q.effectiveDefault with
    | some v => vars.insertIfNew q.varName v
    | none => vars) vars

/-- Password variables of the survey that a job will have, each with the marker that is shown for
it. -/
def JobTemplate.surveyPasswords (t : JobTemplate) (accepted : Vars) : Table String :=
  Table.ofEntries <|
    (t.activeQuestions.filter fun q =>
      q.isPassword && (accepted.contains q.varName || q.effectiveDefault.isSome)).map
      fun q => (q.varName, redacted)

/-- Variables where a hidden password that was sent back stands for the question's default. -/
def Question.restorePassword (q : Question) (data : Vars) : Vars :=
  if q.isPassword ∧ data[q.varName]? = some (.text redacted) then
    match q.effectiveDefault with
    | some v => data.insert q.varName v
    | none => data.erase q.varName
  else data

/-- Variables on their way through a survey. -/
structure SurveyIntake where
  remaining : Vars
  accepted : Vars := ∅
  rejected : Vars := ∅
  problems : List String := []

namespace SurveyIntake

/-- Takes the answer to one question out of the remaining variables. -/
def ask (validateRequired : Bool) (s : SurveyIntake) (q : Question) : SurveyIntake :=
  let data := q.restorePassword s.remaining
  let problems := q.problems data validateRequired
  let answered (vars : Vars) : Vars :=
    match data[q.varName]? with
    | some v => vars.insert q.varName v
    | none => vars
  { remaining := data.erase q.varName
    accepted := if problems.isEmpty then answered s.accepted else s.accepted
    rejected := if problems.isEmpty then s.rejected else answered s.rejected
    problems := s.problems ++ problems }

def run (t : JobTemplate) (validateRequired : Bool) (data : Vars) : SurveyIntake :=
  t.activeQuestions.foldl (ask validateRequired) { remaining := data }

end SurveyIntake

def unsupportedVariables (rest : Vars) : Violation :=
  let names := ", ".intercalate rest.keys
  ⟨.unsupportedVariable,
    s!"Variables {names} provided, but this template cannot accept variables."⟩

def unknownVariables (unknown : Vars) : Violation :=
  let names := ", ".intercalate unknown.keys
  ⟨.unsupportedVariable, s!"Variables {names} are not allowed for system jobs."⟩

/-- Merges the variables of a playbook job. A variable that repeats the template's own value is not
an override, and is dropped where the template does not prompt for variables. -/
def mergeJobVariables (t : JobTemplate) (data : Vars) (excluded : ErrorCategories) :
    VariableMerge :=
  let intake := SurveyIntake.run t (!excluded.required) data
  let rest : Vars :=
    if t.ask.extraVars then ∅
    else intake.remaining.filter fun name v =>
      !(t.options.extraVars[name]?).any fun own => own.same v
  { accepted :=
      if t.ask.extraVars then intake.accepted.overlay intake.remaining else intake.accepted
    rejected := intake.rejected.overlay rest
    errors := ((∅ : Errors).add "variables_needed_to_start"
      (intake.problems.map (Violation.mk .validation))).add "extra_vars"
      (if rest.isEmpty || excluded.prompts then [] else [unsupportedVariables rest])
    surveyPasswords := t.surveyPasswords intake.accepted }

/-- The number of days that a value gives: a natural number, also as a text. Numbers beyond 64 bits
count as the greatest one within. -/
def retentionDays? (v : Value) : Option Nat :=
  match v.json with
  | .int i => if 0 ≤ i then some i.toNat else none
  | .float d => d.natural?.map (min · 0xFFFFFFFFFFFFFFFF)
  | .string s =>
    (Text.signed64? (Text.trimmed s)).bind fun i => if 0 ≤ i then some i.toNat else none
  | _ => none

/-- Merges the variables of a system job: only known ones, and days only as a number of days. -/
def mergeSystemVariables (t : SystemJobTemplate) (data : Vars) : VariableMerge :=
  let known (name : String) : Bool := systemVariables.contains name
  let unknown := data.filter fun name _ => !known name
  let badDays := t.jobType.takesDays && (data["days"]?).any fun v => (retentionDays? v).isNone
  let taken (name : String) : Bool := known name && !(badDays && name == "days")
  { accepted := data.filter fun name _ => taken name
    rejected := data.filter fun name _ => !taken name
    errors := (∅ : Errors).add "extra_vars" <|
      (if unknown.isEmpty then [] else [unknownVariables unknown]) ++
      (if badDays then [⟨.validation, "days must be a positive integer."⟩] else []) }

/-- Splits the proposed variables into those that hold and those that do not. -/
def mergeVariables (t : Template) (extraVars surveyAnswers : Vars) (excluded : ErrorCategories) :
    VariableMerge :=
  let data := extraVars.overlay surveyAnswers
  match t with
  | .job t => mergeJobVariables t data excluded
  | .system t => mergeSystemVariables t data

end JobLaunch
