import JobLaunch.Plan
import JobLaunch.Summary
/-!
Requests to launch a template and to relaunch a job.
-/
namespace JobLaunch

/-- Kinds of problems that a request may ask to leave out. -/
inductive ErrorCategory where
  | prompts | required
deriving DecidableEq, Repr, Inhabited

instance : Words ErrorCategory where
  all := [.prompts, .required]
  word
    | .prompts => "prompts"
    | .required => "required"

structure ErrorCategories where
  prompts : Bool := false
  required : Bool := false
deriving DecidableEq, Repr

namespace ErrorCategories

instance : EmptyCollection ErrorCategories := ⟨{}⟩

instance : Inhabited ErrorCategories := ⟨∅⟩

def contains (e : ErrorCategories) : ErrorCategory → Bool
  | .prompts => e.prompts
  | .required => e.required

def insert (e : ErrorCategories) : ErrorCategory → ErrorCategories
  | .prompts => { e with prompts := true }
  | .required => { e with required := true }

def ofList (cs : List ErrorCategory) : ErrorCategories := cs.foldl insert ∅

def toList (e : ErrorCategories) : List ErrorCategory :=
  [ErrorCategory.prompts, .required].filter e.contains

instance : Coded ErrorCategories where
  encode e := encode e.toList
  decode? j := (decode? j).map ofList

end ErrorCategories

/-- What a caller asks of a launch. A launch that must not be sliced may be pinned to a slice. -/
structure LaunchRequest where
  overrides : Overrides := ∅
  surveyAnswers : Vars := ∅
  credentialPasswords : Table String := ∅
  excludedErrors : ErrorCategories := ∅
  preventSlicing : Bool := false
  pinnedSlice : Option Slice := none
  launchType : LaunchType := .manual
deriving DecidableEq

namespace LaunchRequest

instance : Inhabited LaunchRequest := ⟨{}⟩

def excludes (r : LaunchRequest) (c : ErrorCategory) : Bool := r.excludedErrors.contains c

def excluding (r : LaunchRequest) (c : ErrorCategory) : LaunchRequest :=
  { r with excludedErrors := r.excludedErrors.insert c }

/-- A table that is written only when it holds something. -/
def unlessEmpty {α : Type} (name : String) (j : Json) (t : Table α) : List (String × Json) :=
  if t.isEmpty then [] else [(name, j)]

/-- The overrides stand among the request's own fields. -/
instance : Coded LaunchRequest where
  encode r := .object <|
    r.overrides.fields ++
    unlessEmpty "survey_answers" (encode r.surveyAnswers) r.surveyAnswers ++
    unlessEmpty "credential_passwords" (encode r.credentialPasswords) r.credentialPasswords ++
    (if r.excludedErrors = ∅ then [] else [("exclude_errors", encode r.excludedErrors)]) ++
    [("prevent_slicing", encode r.preventSlicing)] ++
    whenPresent "pinned_slice" r.pinnedSlice ++
    [("launch_type", encode r.launchType)]
  decode? j := do
    let r ← Record.ofObject? j
    return {
      overrides := ← Overrides.ofRecord? r
      surveyAnswers := ← r.orElse 0 "survey_answers" ∅
      credentialPasswords := ← r.orElse 1 "credential_passwords" ∅
      excludedErrors := ← r.orElse 2 "exclude_errors" ∅
      preventSlicing := ← r.orElse 3 "prevent_slicing" false
      pinnedSlice := ← r.optional 4 "pinned_slice"
      launchType := ← r.orElse 5 "launch_type" .manual }

end LaunchRequest

/-- What a caller asks of a relaunch: which hosts, and passwords for the credentials. -/
structure RelaunchRequest where
  hosts : Option HostStatus := none
  credentialPasswords : Table String := ∅
deriving DecidableEq

namespace RelaunchRequest

instance : Inhabited RelaunchRequest := ⟨{}⟩

instance : Coded RelaunchRequest where
  encode r := .object <|
    whenPresent "hosts" r.hosts ++
    LaunchRequest.unlessEmpty "credential_passwords" (encode r.credentialPasswords)
      r.credentialPasswords
  decode? j := do
    let r ← Record.ofJson? 2 j
    return {
      hosts := ← r.optional 0 "hosts"
      credentialPasswords := ← r.orElse 1 "credential_passwords" ∅ }

end RelaunchRequest
end JobLaunch
