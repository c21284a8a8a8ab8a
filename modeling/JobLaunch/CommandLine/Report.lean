import JobLaunch.Json.Write
import JobLaunch.Placement
import JobLaunch.Readiness
import JobLaunch.Service
/-!
Reports: what commands print, line by line.
-/
namespace JobLaunch.Report

def lines (ls : List String) : String := String.join (ls.map (· ++ "\n"))

/-- A value on lines of its own, with names in their order. -/
def json (j : Json) : String := lines [j.pretty]

def heading (title : String) : List String := [title, "".pushn '─' 80]

def errorLines (errors : Errors) : List String :=
  errors.toList.flatMap fun (entry : String × List Violation) =>
    entry.2.map fun v => "  " ++ entry.1 ++ ": " ++ v.message

def prompted (t : Template) : List String :=
  (t.kind.fields.filter t.ask.get).map PromptField.name

def check (t : JobTemplate) : String :=
  let errors := t.validationErrors
  let prompts := prompted (.job t)
  let needed := t.variablesNeeded
  let title := "Job template '" ++ t.name ++ "'"
  let starts := if t.startsWithoutInput none then "yes" else "no"
  lines <| heading title ++
    (if errors.isEmpty then ["✓ No template errors"]
      else "Template errors:" :: errorLines errors) ++
    ["  Prompts on launch: " ++ if prompts.isEmpty then "none" else ", ".intercalate prompts] ++
    (if needed.isEmpty then [] else ["  Required survey variables: " ++ ", ".intercalate needed]) ++
    ["  Starts without input: " ++ starts]

def checkJson (t : JobTemplate) : Json := .object [
  ("ask_mapping", (Json.object (TemplateKind.job.fields.map fun f =>
    (f.name, .string f.askName))).canonical),
  ("can_start_without_user_input", .bool (t.startsWithoutInput none)),
  ("errors", encode t.validationErrors),
  ("variables_needed_to_start", encode t.variablesNeeded)]

/-- A check of a system job template, which has nothing to check. -/
def checkSystem (t : SystemJobTemplate) : String :=
  lines ["✓ System job template '" ++ t.name ++ "'"]

def checkSystemJson : Json := .object [
  ("can_start_without_user_input", .bool true), ("errors", .object [])]

/-- The fields of a record by name; nothing at all for an empty one. -/
def titled (title : String) (fields : List (String × Json)) : List String :=
  match (Json.object fields).canonical with
  | .object (f :: fs) =>
    (title ++ ":") :: (f :: fs).map fun (name, j) => "  " ++ name ++ ": " ++ j.compact
  | _ => []

def resolution (r : Resolution) : String :=
  lines <| [if r.launchable then "✓ Launchable" else "✗ Not launchable"] ++
    titled "Accepted" r.accepted.fields ++ titled "Rejected" r.rejected.fields ++
    (if r.errors.isEmpty then [] else "Errors:" :: errorLines r.errors)

/-- Lines, or those that were printed before a number outgrew its word. -/
abbrev Printed := Except (List String) (List String)

def Printed.after (before : List String) (p : Printed) : Printed :=
  (p.map (before ++ ·)).mapError (before ++ ·)

/-- One report after the other, as far as the first that breaks off. -/
def inTurn : List Printed → Printed
  | [] => .ok []
  | .error printed :: _ => .error printed
  | .ok printed :: rest => (inTurn rest).after printed

def job (j : Job) (template : Option JobTemplate) (global : List Id) : Printed :=
  match j.spec? with
  | none => .ok ["  System job " ++ j.id.toText]
  | some spec =>
    let number := spec.slice.number.toNat
    let count := spec.slice.count.toNat
    let slice := if spec.slice.isSliced then s!"slice {number}/{count}" else "unsliced"
    let groups := (spec.preferredGroups template none global).length
    let printed := ["  Job " ++ j.id.toText, "    Slice: " ++ slice] ++
      (spec.inventory.map fun i => "    Inventory: " ++ i.name).toList ++
      (if spec.options.limit = "" then [] else ["    Limit: " ++ spec.options.limit])
    match spec.taskImpact? with
    | none => .error printed
    | some impact =>
      let cost := impact.toNat
      .ok (printed ++ [s!"    Task impact: {cost}", s!"    Instance groups: {groups}",
        "    Meta variables: " ++ ", ".intercalate (j.metaVars template).keys])

def notifications (n : Notifications) : List String :=
  let error := n.error.size
  let started := n.started.size
  let success := n.success.size
  if n.isEmpty then []
  else [s!"  Notifications: {error} error, {started} started, {success} success"]

/-- The jobs that a launch has created, or what was printed of them. -/
def launch (template : Template) (outcome : LaunchOutcome) (global : List Id) :
    Except String String :=
  let title := match outcome.workflow with
    | some w =>
      let count := w.spec.sliceCount.toNat
      "Sliced launch of '" ++ w.spec.name ++ s!"' into {count} jobs"
    | none => "Launch of '" ++ template.name ++ "'"
  let jobs := outcome.jobs.map fun j => job j template.asJob? global
  let closing := .ok (notifications (template.notificationsWith none))
  ((inTurn (jobs ++ [closing])).after (heading title)).map lines |>.mapError lines

def relaunch (c : LaunchConfig) (policy : PolicySnapshot) : String :=
  let id := c.jobId.toText
  let blocked := c.unpromptedFields policy
  lines <|
    (if blocked.isEmpty then [s!"✓ Job {id} can be relaunched"]
      else [s!"✗ Job {id} cannot be relaunched", "No longer prompted on launch:"] ++
        blocked.map fun f => "  - " ++ f.name) ++
    (if c.hasAnyOverride policy then [] else ["  Launched without overrides."])

def relaunchJson (c : LaunchConfig) (policy : PolicySnapshot) : Json := .object [
  ("allowed", .bool (c.wasFullyPrompted policy)),
  ("has_overrides", .bool (c.hasAnyOverride policy)),
  ("unprompted_fields", encode ((c.unpromptedFields policy).map PromptField.name))]

/-- A value as users write it: texts stand without quotes. -/
def plain (v : Value) : String := v.asText?.getD v.json.compact

def prompts (c : LaunchConfig) : String :=
  let id := c.jobId.toText
  let shown := c.displayPrompts.toList
  lines <| if shown.isEmpty then ["No prompts recorded."]
    else s!"Prompts for job {id}:" :: shown.map fun (entry : String × Value) =>
      "  " ++ entry.1 ++ ": " ++ plain entry.2

end JobLaunch.Report
