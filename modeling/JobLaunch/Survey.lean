import JobLaunch.Record
/-!
Surveys: questions that a template asks at launch, each bound to one variable, and the marker that
stands for a password wherever variables are shown.
-/
namespace JobLaunch

inductive QuestionKind where
  | text | textarea | password | integer | float | multipleChoice | multiSelect
deriving DecidableEq, Repr, Inhabited

instance : Words QuestionKind where
  all := [.text, .textarea, .password, .integer, .float, .multipleChoice, .multiSelect]
  word
    | .text => "text"
    | .textarea => "textarea"
    | .password => "password"
    | .integer => "integer"
    | .float => "float"
    | .multipleChoice => "multiplechoice"
    | .multiSelect => "multiselect"

/-- A question. The bounds are on the length of texts and on the value of numbers. -/
structure Question where
  label : String
  varName : String
  kind : QuestionKind
  required : Bool
  default : Option Value
  min : Option Int64
  max : Option Int64
  choices : List String
deriving DecidableEq, Repr, Inhabited

namespace Question

/-- The default that answers the question when nobody does; null and the empty text are none. -/
def effectiveDefault (q : Question) : Option Value :=
  q.default.filter fun v => v.json ≠ .null ∧ v.json ≠ .string ""

def isPassword (q : Question) : Bool := q.kind == .password

/-- Choices given as text: the lines that are not blank, trimmed. -/
def choicesOfText (s : String) : List String :=
  ((Text.lines s).map Text.trimmed).filter fun line => line ≠ ""

/-- Choices are a list of texts, one text with a line for each, or null for none. -/
def decodeChoices? : Json → Option (List String)
  | .null => some []
  | .string s => some (choicesOfText s)
  | j => decode? j

structure Choices where
  items : List String

instance : Coded Choices where
  encode c := encode c.items
  decode? j := (decodeChoices? j).map Choices.mk

instance : Coded Question where
  encode q := .object [
    ("question_name", encode q.label), ("variable", encode q.varName), ("type", encode q.kind),
    ("required", encode q.required), ("default", encode q.default), ("min", encode q.min),
    ("max", encode q.max), ("choices", encode q.choices)]
  decode? j := do
    let r ← Record.ofJson? 8 j
    return {
      label := ← r.orElse 0 "question_name" ""
      varName := ← r.required 1 "variable"
      kind := ← r.required 2 "type"
      required := ← r.orElse 3 "required" false
      default := ← r.optional 4 "default"
      min := ← r.optional 5 "min"
      max := ← r.optional 6 "max"
      choices := (← r.orElse 7 "choices" (Choices.mk [])).items }

end Question

structure Survey where
  name : String
  description : String
  questions : List Question
deriving DecidableEq, Repr, Inhabited

namespace Survey

def empty : Survey := ⟨"", "", []⟩

def variableNames (s : Survey) : List String :=
  (Std.ExtTreeSet.ofList (s.questions.map (·.varName)) : Std.ExtTreeSet String).toList

instance : Coded Survey where
  encode s := .object [
    ("name", encode s.name), ("description", encode s.description), ("spec", encode s.questions)]
  decode? j := do
    let r ← Record.ofJson? 3 j
    return {
      name := ← r.orElse 0 "name" ""
      description := ← r.orElse 1 "description" ""
      questions := ← r.orElse 2 "spec" [] }

end Survey

/-- What is shown in place of a password. -/
def redacted : String := "$encrypted$"

/-- Variables as they may be shown: every recorded password that is present shows its marker. -/
def displayVars (vars : Vars) (passwords : Table String) : Vars :=
  vars.map fun name v => match passwords[name]? with
    | some marker => Value.text marker
    | none => v

end JobLaunch
