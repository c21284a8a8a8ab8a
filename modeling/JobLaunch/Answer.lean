import JobLaunch.Survey
import JobLaunch.Json.Write
/-!
Answers to survey questions: what is wrong with the value of a question's variable. A password is
never shown in a message.
-/
namespace JobLaunch

/-- A value inside a message: a text as it is, anything else as JSON. -/
def Value.shown (v : Value) : String :=
  match v.json with
  | .string s => s
  | j => j.compact

def shownChoices (choices : List String) : String :=
  "[" ++ ", ".intercalate (choices.map fun c => "'" ++ c ++ "'") ++ "]"

namespace Question

def offers (q : Question) : Json → Bool
  | .string s => q.choices.contains s
  | _ => false

def shown (q : Question) (v : Value) : String := if q.isPassword then redacted else v.shown

def unexpected (q : Question) (shown expected : String) : String :=
  s!"Value {shown} for '{q.varName}' expected to be {expected}."

def outOfBounds (q : Question) (shown note : String) (below above : Int64 → Bool) : List String :=
  ((q.min.filter below).map fun min =>
    s!"'{q.varName}' value {shown} is too small ({note}must be at least {min}).").toList ++
  ((q.max.filter above).map fun max =>
    s!"'{q.varName}' value {shown} is too large (must be no more than {max}).").toList

def textProblems (q : Question) (shown : String) : Json → List String
  | .string s =>
    q.outOfBounds shown s!"length is {s.length} "
      (fun min => s.length < min.toInt) (fun max => max.toInt < s.length)
  | _ => [q.unexpected shown "a string"]

/-- What is wrong with a number, compared with the bounds as doubles. -/
def numberProblems (q : Question) (shown : String) (d : Decimal.Double) : List String :=
  q.outOfBounds shown "" (fun min => d.less (.ofInt min.toInt))
    (fun max => (Decimal.Double.ofInt max.toInt).less d)

def choiceProblems (q : Question) (shown : String) (j : Json) : List String :=
  if q.offers j then [] else [q.unexpected shown ("one of " ++ shownChoices q.choices)]

def valueProblems (q : Question) (v : Value) : List String :=
  match q.kind, v.json with
  | .text, j | .textarea, j | .password, j => q.textProblems (q.shown v) j
  | .integer, .int i | .float, .int i => q.numberProblems (q.shown v) (.ofInt i)
  | .float, .float d => q.numberProblems (q.shown v) d
  | .integer, _ => [q.unexpected (q.shown v) "an integer"]
  | .float, _ => [q.unexpected (q.shown v) "a numeric type"]
  | .multipleChoice, j => q.choiceProblems (q.shown v) j
  | .multiSelect, .list items => items.flatMap fun item =>
      q.choiceProblems (Value.ofJson item).shown item
  | .multiSelect, _ => [s!"'{q.varName}' value is expected to be a list."]

/-- What is wrong with the answer among variables. A missing answer is wrong only where one is
required and no default stands in for it. -/
def problems (q : Question) (data : Vars) (validateRequired : Bool) : List String :=
  match data[q.varName]? with
  | some v => q.valueProblems v
  | none =>
    if q.required && validateRequired && q.effectiveDefault.isNone then
      [s!"'{q.varName}' value missing"]
    else []

end Question
end JobLaunch
