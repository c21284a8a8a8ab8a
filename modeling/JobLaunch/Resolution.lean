import JobLaunch.Prompt
/-!
Resolutions: which overrides of a request hold, which do not, and why.
-/
namespace JobLaunch

inductive ViolationKind where
  | validation | policy | resourceMissing | unsupportedVariable
deriving DecidableEq, Repr, Inhabited

instance : Words ViolationKind where
  all := [.validation, .policy, .resourceMissing, .unsupportedVariable]
  word
    | .validation => "validation"
    | .policy => "policy"
    | .resourceMissing => "resource_missing"
    | .unsupportedVariable => "unsupported_variable"

structure Violation where
  kind : ViolationKind
  message : String
deriving DecidableEq, Repr, Inhabited

instance : Coded Violation where
  encode v := .object [("kind", encode v.kind), ("message", encode v.message)]
  decode? j := do
    let r ← Record.ofJson? 2 j
    return { kind := ← r.required 0 "kind", message := ← r.required 1 "message" }

/-- Violations by what they concern, in the order in which they were found. -/
abbrev Errors := Table (List Violation)

namespace Errors

instance : DecidableEq Errors := inferInstance

/-- The errors with violations added under a name; the name stays out when there are none. -/
def add (e : Errors) (name : String) (vs : List Violation) : Errors :=
  if vs.isEmpty then e else e.insert name ((e[name]?).getD [] ++ vs)

def messages (e : Errors) (name : String) : List String := ((e[name]?).getD []).map (·.message)

instance : Coded Errors where
  encode e := .object (e.toList.map fun (entry : String × List Violation) =>
    (entry.1, encode entry.2))
  decode?
    | .object fields =>
      (fields.mapM fun (field : String × Json) =>
        (decode? field.2).map fun vs => (field.1, vs)).map Table.ofEntries
    | _ => none

end Errors

structure Resolution where
  accepted : Overrides := ∅
  rejected : Overrides := ∅
  errors : Errors := ∅
  launchable : Bool := false
  surveyPasswords : Table String := ∅
deriving DecidableEq

namespace Resolution

instance : Inhabited Resolution := ⟨{}⟩

instance : Coded Resolution where
  encode r := .object <| [
      ("accepted", encode r.accepted), ("rejected", encode r.rejected),
      ("errors", encode r.errors), ("launchable", encode r.launchable)] ++
    (if r.surveyPasswords.isEmpty then []
      else [("survey_passwords", encode r.surveyPasswords)])
  decode? j := do
    let r ← Record.ofJson? 5 j
    return {
      accepted := ← r.required 0 "accepted"
      rejected := ← r.required 1 "rejected"
      errors := ← r.required 2 "errors"
      launchable := ← r.required 3 "launchable"
      surveyPasswords := ← r.orElse 4 "survey_passwords" ∅ }

end Resolution
end JobLaunch
