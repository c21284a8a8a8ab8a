import JobLaunch.Error
import JobLaunch.Config
import JobLaunch.Replay
import JobLaunch.Resolve
import JobLaunch.VarsText
import JobLaunch.Yaml.Form
/-!
Documents that commands read from files: templates, launch requests, launch configurations and
variables. The name of a file says whether its document is YAML or JSON.
-/
namespace JobLaunch

inductive CommandError where
  | unreadable (path : String)
  | badYaml (path : String)
  | badJson (path : String)
  | badVars (path : String)
  | config (cause : ConfigError)
  | launch (cause : LaunchError)
  | overflow (printed : String)
deriving DecidableEq

def CommandError.message : CommandError → String
  | unreadable path => "Failed to read " ++ path
  | badYaml path => "Invalid YAML in " ++ path
  | badJson path => "Invalid JSON in " ++ path
  | badVars path => "Invalid variables in " ++ path
  | config cause => cause.message
  | launch cause => cause.message
  | overflow _ => "attempt to add with overflow"

/-- What a command has printed before it failed. -/
def CommandError.printed : CommandError → String
  | overflow printed => printed
  | _ => ""

def CommandError.code : CommandError → UInt32
  | overflow _ => 101
  | _ => 1

/-- Texts of the files that can be read, by path. -/
abbrev Files := Table String

/-- A type of documents, with its form in YAML. -/
class Document (α : Type) extends Coded α where
  form : Yaml.Form

namespace Document
open Yaml (Form)
open Yaml.Form

def inventory : Form := record [
  ("id", text), ("name", text), ("host_count", count), ("organization_id", optional text),
  ("instance_groups", listOf text), ("prevent_instance_group_fallback", flag)] none

def credential : Form := record [
  ("id", text), ("name", text), ("kind", choice), ("passwords_needed", listOf text)] none

def promptField : PromptField → Form
  | .extraVars => tableOf value
  | .inventory => inventory
  | .jobType => choice
  | .verbosity | .forks | .jobSliceCount => count
  | .diffMode => flag
  | .credentials => listOf credential
  | .labels | .instanceGroups => listOf text
  | .timeout => number
  | .scmBranch | .limit | .jobTags | .skipTags | .executionEnvironment => text

def overrides : Form :=
  record (PromptField.all.map fun f => (f.name, optional (promptField f))) none

def slice : Form := record [("number", count), ("count", count)] none

end Document

open Document Yaml.Form

instance : Document Template where
  form := selfDescribing

/-- Overrides stand among the request's own fields, and describe themselves. -/
instance : Document LaunchRequest where
  form := record [
    ("survey_answers", tableOf value), ("credential_passwords", tableOf text),
    ("exclude_errors", listOf choice), ("prevent_slicing", flag),
    ("pinned_slice", optional slice), ("launch_type", choice)] (some textNamed)

instance : Document LaunchConfig where
  form := record [
    ("job_id", text), ("launch_type", choice), ("prompts", overrides),
    ("survey_passwords", tableOf text), ("created_at", text)] none

/-- What follows the last point of a file's name, unless the name starts with that point. -/
def extension (path : String) : String :=
  let parts := (Text.splitOn '/' path.toList).filter fun part => part ≠ [] ∧ part ≠ ['.']
  let name := parts.getLast?.getD []
  let ending := name.reverse.takeWhile (· ≠ '.')
  if ending.length + 1 < name.length then String.ofList ending.reverse else ""

def isYamlPath (path : String) : Bool := ["yaml", "yml"].contains (extension path)

namespace Files

def read (files : Files) (path : String) : Except CommandError String :=
  match files[path]? with
  | some text => .ok text
  | none => .error (.unreadable path)

def load {α : Type} [Document α] (files : Files) (path : String) : Except CommandError α := do
  let text ← files.read path
  let yaml := isYamlPath path
  let tree? := if yaml then (Yaml.Tree.ofText? text).bind (Document.form α) else Json.parse? text
  match tree?.bind decode? with
  | some document => return document
  | none => throw (if yaml then .badYaml path else .badJson path)

/-- Loads a document, or takes the default when no file is named. -/
def loadOr {α : Type} [Document α] (files : Files) (default : α) :
    Option String → Except CommandError α
  | some path => files.load path
  | none => return default

def loadVars (files : Files) (path : String) : Except CommandError Vars := do
  match Vars.ofText? (← files.read path) with
  | .ok vars => return vars
  | .error _ => throw (.badVars path)

end Files
end JobLaunch
