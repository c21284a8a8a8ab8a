import JobLaunch.Json.Read
import JobLaunch.Text.Blank
import JobLaunch.Value
import JobLaunch.Yaml.Schema
/-!
Variables as text: a mapping in JSON or in YAML. A blank text is an empty mapping.
-/
namespace JobLaunch

/-- What is wrong with a text of variables: it cannot be read, or it is not a mapping but something
else. -/
inductive VarsTextError where
  | unreadable
  | notAMapping (found : String)
deriving DecidableEq, Repr, Inhabited

def VarsTextError.message : VarsTextError → String
  | unreadable => "Cannot parse variables as JSON or YAML"
  | notAMapping found => "Variables must be a mapping, not " ++ found

namespace Vars

/-- Variables from a value; null is no variables. -/
def ofJson? : Json → Except VarsTextError Vars
  | .object fields => .ok (ofFields fields)
  | .null => .ok ∅
  | .bool _ => .error (.notAMapping "a boolean")
  | .int _ | .float _ => .error (.notAMapping "a number")
  | .string _ => .error (.notAMapping "a string")
  | .list _ => .error (.notAMapping "a list")

/-- Reads variables: as JSON if that is possible, and as YAML otherwise. -/
def ofText? (text : String) : Except VarsTextError Vars :=
  if (Text.trimmed text).isEmpty then .ok ∅
  else match (Json.parse? text).or ((Yaml.Tree.ofText? text).bind Yaml.Tree.toJson?) with
    | some j => ofJson? j
    | none => .error .unreadable

end Vars
end JobLaunch
