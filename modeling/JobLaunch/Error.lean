import JobLaunch.Prompt
import JobLaunch.Resolution
/-!
Why a launch service refuses an operation.
-/
namespace JobLaunch

/-- Causes of refused operations. Problems with single fields stand in a resolution; `rejected` has
those of one that was to be launched. -/
inductive LaunchError where
  | templateNotFound (id : Id)
  | jobNotFound (id : Id)
  | capacityBlocked (template : String) (active : Nat)
  | rejected (errors : Errors)
  | relaunchBlocked (fields : List PromptField)
  | invalidStatusFilter (status : String)
  | invalidState (reason : String)
  | jobExists (id : Id)
  | storage
  | calendarExceeded
deriving DecidableEq

namespace LaunchError

def summary (errors : Errors) : String :=
  "; ".intercalate <| errors.toList.map fun (entry : String × List Violation) =>
    entry.1 ++ ": " ++ " ".intercalate (entry.2.map (·.message))

/-- The message of an error, for those whose wording is ours. -/
def message : LaunchError → String
  | templateNotFound id => "Template not found: " ++ id.toText
  | jobNotFound id => "Job not found: " ++ id.toText
  | capacityBlocked template active =>
    s!"Job template {template} could not be started because there are {active} other jobs from " ++
      "that template waiting to run"
  | rejected errors => "Launch rejected: " ++ summary errors
  | relaunchBlocked fields =>
    "Relaunch blocked, no longer prompted on launch: " ++
      ", ".intercalate (fields.map PromptField.name)
  | invalidStatusFilter status => s!"{status} is not a valid status option."
  | invalidState reason => "Invalid state: " ++ reason
  | jobExists id => s!"Repository error: job {id.toText} already exists"
  | storage => "I/O error"
  | calendarExceeded => "Date out of range"

def isNotFound : LaunchError → Bool
  | templateNotFound _ | jobNotFound _ => true
  | _ => false

end LaunchError
end JobLaunch
