import JobLaunch.Template
/-!
Plans: the jobs that a launch creates. A sliced plan is a workflow of jobs that share the hosts of
one inventory; `Slice.select` says which hosts are whose.
-/
namespace JobLaunch

inductive LaunchType where
  | manual | relaunch | callback | scheduled | workflow
deriving DecidableEq, Repr, Inhabited

instance : Words LaunchType where
  all := [.manual, .relaunch, .callback, .scheduled, .workflow]
  word
    | .manual => "manual"
    | .relaunch => "relaunch"
    | .callback => "callback"
    | .scheduled => "scheduled"
    | .workflow => "workflow"

/-- One of `count` shares of the hosts, numbered from one. -/
structure Slice where
  number : UInt32
  count : UInt32
deriving DecidableEq, Repr

namespace Slice

def whole : Slice := ⟨0, 1⟩

instance : Inhabited Slice := ⟨whole⟩

def isSliced (s : Slice) : Bool := s.count > 1

/-- Every `step`-th item, starting with the first. -/
def everyNth {α : Type} (step : Nat) : List α → List α
  | [] => []
  | x :: xs => x :: everyNth step (xs.drop (step - 1))
termination_by xs => xs.length
decreasing_by simp only [List.length_drop, List.length_cons]; omega

/-- Hosts of a slice: every `count`-th one, starting with the slice's number. -/
def select {α : Type} (s : Slice) (hosts : List α) : List α :=
  if s.isSliced ∧ s.number ≠ 0 then everyNth s.count.toNat (hosts.drop (s.number.toNat - 1))
  else hosts

instance : Coded Slice where
  encode s := .object [("number", encode s.number), ("count", encode s.count)]
  decode? j := do
    let r ← Record.ofJson? 2 j
    return { number := ← r.required 0 "number", count := ← r.required 1 "count" }

end Slice

/-- The sum of two words, none when no word holds it. -/
def wordSum? (a b : UInt64) : Option UInt64 :=
  if a.toNat + b.toNat < 0x10000000000000000 then some (a + b) else none

structure JobSpec where
  templateId : Id
  name : String
  launchType : LaunchType
  options : JobOptions
  inventory : Option Inventory
  project : Option Project
  executionEnvironment : Option Id
  credentials : List Credential
  labels : List Id
  instanceGroups : Option (List Id)
  preventFallback : Bool
  surveyPasswords : Table String
  slice : Slice
deriving DecidableEq, Inhabited

namespace JobSpec

def defaultForks : UInt64 := 5

def callbackHosts : UInt64 := 2

def effectiveForks (s : JobSpec) : UInt64 :=
  if s.options.forks = 0 then defaultForks else s.options.forks.toUInt64

/-- How many hosts the job is taken to have: its share of the inventory, or as many as it has forks
when there is no inventory. A share is counted from a sum that a word may not hold. -/
def expectedHosts? (s : JobSpec) : Option UInt64 :=
  if s.launchType = .callback then some callbackHosts
  else match s.inventory with
    | none => some s.effectiveForks
    | some inventory =>
      if s.slice.isSliced then
        let count := s.slice.count.toUInt64
        let number := s.slice.number.toUInt64
        (wordSum? inventory.hostCount count).map fun upTo =>
          (if upTo < number then 0 else upTo - number) / count
      else some inventory.hostCount

/-- Capacity the job is expected to take: the hosts it works on at a time, and one for itself. -/
def taskImpact? (s : JobSpec) : Option UInt64 :=
  s.expectedHosts?.bind fun hosts => wordSum? (min hosts s.effectiveForks) 1

instance : Coded JobSpec where
  encode s := .object [
    ("template_id", encode s.templateId), ("name", encode s.name),
    ("launch_type", encode s.launchType), ("options", encode s.options),
    ("inventory", encode s.inventory), ("project", encode s.project),
    ("execution_environment", encode s.executionEnvironment),
    ("credentials", encode s.credentials), ("labels", encode s.labels),
    ("instance_groups", encode s.instanceGroups),
    ("prevent_instance_group_fallback", encode s.preventFallback),
    ("survey_passwords", encode s.surveyPasswords), ("slice", encode s.slice)]
  decode? j := do
    let r ← Record.ofJson? 13 j
    return {
      templateId := ← r.required 0 "template_id"
      name := ← r.required 1 "name"
      launchType := ← r.required 2 "launch_type"
      options := ← r.required 3 "options"
      inventory := ← r.nullable 4 "inventory"
      project := ← r.nullable 5 "project"
      executionEnvironment := ← r.nullable 6 "execution_environment"
      credentials := ← r.required 7 "credentials"
      labels := ← r.required 8 "labels"
      instanceGroups := ← r.nullable 9 "instance_groups"
      preventFallback := ← r.required 10 "prevent_instance_group_fallback"
      surveyPasswords := ← r.orElse 11 "survey_passwords" ∅
      slice := ← r.orElse 12 "slice" .whole }

end JobSpec

/-- The workflow above the slices of a launch. -/
structure WorkflowSpec where
  templateId : Id
  name : String
  launchType : LaunchType
  sliceCount : UInt32
  inventory : Option Inventory
  extraVars : Vars
deriving DecidableEq, Inhabited

instance : Coded WorkflowSpec where
  encode s := .object [
    ("template_id", encode s.templateId), ("name", encode s.name),
    ("launch_type", encode s.launchType), ("slice_count", encode s.sliceCount),
    ("inventory", encode s.inventory), ("extra_vars", encode s.extraVars)]
  decode? j := do
    let r ← Record.ofJson? 6 j
    return {
      templateId := ← r.required 0 "template_id"
      name := ← r.required 1 "name"
      launchType := ← r.required 2 "launch_type"
      sliceCount := ← r.required 3 "slice_count"
      inventory := ← r.nullable 4 "inventory"
      extraVars := ← r.required 5 "extra_vars" }

structure SystemJobSpec where
  templateId : Id
  name : String
  jobType : SystemJobType
  launchType : LaunchType
  extraVars : Vars
deriving DecidableEq, Inhabited

instance : Coded SystemJobSpec where
  encode s := .object [
    ("template_id", encode s.templateId), ("name", encode s.name), ("job_type", encode s.jobType),
    ("launch_type", encode s.launchType), ("extra_vars", encode s.extraVars)]
  decode? j := do
    let r ← Record.ofJson? 5 j
    return {
      templateId := ← r.required 0 "template_id"
      name := ← r.required 1 "name"
      jobType := ← r.required 2 "job_type"
      launchType := ← r.required 3 "launch_type"
      extraVars := ← r.required 4 "extra_vars" }

inductive LaunchPlan where
  | single (spec : JobSpec)
  | sliced (workflow : WorkflowSpec) (slices : List JobSpec)
  | system (spec : SystemJobSpec)
deriving DecidableEq

namespace LaunchPlan

def jobCount : LaunchPlan → Nat
  | single _ | system _ => 1
  | sliced _ slices => slices.length

def jobSpecs : LaunchPlan → List JobSpec
  | single spec => [spec]
  | sliced _ slices => slices
  | system _ => []

/-- The form of a plan is written as a tag. -/
instance : Coded LaunchPlan where
  encode
    | single spec => withTag "plan" "single" (encode spec)
    | sliced workflow slices => .object [
        ("plan", .string "sliced"), ("workflow", encode workflow), ("slices", encode slices)]
    | system spec => withTag "plan" "system" (encode spec)
  decode? j := do
    let (form, body) ← untag? "plan" j
    match form with
    | "single" => return single (← decode? body)
    | "sliced" =>
      let r ← Record.ofJson? 2 body
      return sliced (← r.required 0 "workflow") (← r.required 1 "slices")
    | "system" => return system (← decode? body)
    | _ => none

end LaunchPlan
end JobLaunch
