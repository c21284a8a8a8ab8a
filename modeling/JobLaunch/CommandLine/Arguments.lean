import JobLaunch.Config
/-!
Arguments of the command line. Two words say what to do, as in `template check`, and files follow
them. Options stand anywhere, but each is known only between certain words; how far the words have
been read is the level of a reading. Arguments are read one by one, and the first that cannot be
there decides.
-/
namespace JobLaunch

inductive Command where
  | checkTemplate (template : String)
  | resolve (template : String) (request : Option String)
  | plan (template : String) (request : Option String)
  | checkRelaunch (template launchConfig : String)
  | parseVars (file : String)
  | showPrompts (launchConfig : String)
deriving DecidableEq, Repr

def Command.paths : Command → List String
  | checkTemplate template => [template]
  | resolve template request | plan template request => template :: request.toList
  | checkRelaunch template launchConfig => [template, launchConfig]
  | parseVars file => [file]
  | showPrompts launchConfig => [launchConfig]

/-- A command with its settings. The global instance groups are still to be read as ids. -/
structure Invocation where
  maxForks : UInt32
  scheduleMaxJobs : UInt64
  instanceGroups : String
  json : Bool
  command : Command
deriving DecidableEq, Repr

/-- Why arguments are no invocation: they ask for help, or they are not understood. -/
inductive Refusal where
  | help | misuse
deriving DecidableEq, Repr, Inhabited

inductive Setting where
  | maxForks | scheduleMaxJobs | globalInstanceGroups | request
deriving DecidableEq, Repr, Inhabited

namespace Setting

/-- The name after two hyphens. -/
def name : Setting → String
  | maxForks => "max-forks"
  | scheduleMaxJobs => "schedule-max-jobs"
  | globalInstanceGroups => "global-instance-groups"
  | request => "request"

def letter? : Setting → Option Char
  | request => some 'r'
  | _ => none

/-- The environment variable that stands in for the option. -/
def environmentName? : Setting → Option String
  | maxForks => some Config.maxForksVariable
  | scheduleMaxJobs => some Config.scheduleMaxJobsVariable
  | globalInstanceGroups => some Config.globalInstanceGroupsVariable
  | request => none

def forks? (text : String) : Option UInt32 :=
  (Text.signed64? text).bind fun i =>
    if 0 ≤ i ∧ i ≤ 0xFFFFFFFF then some (UInt32.ofNat i.toNat) else none

def jobs? (text : String) : Option UInt64 :=
  (Text.boundedNatural? settingLimit text).map UInt64.ofNat

def accepts (s : Setting) (text : String) : Bool :=
  match s with
  | maxForks => (forks? text).isSome
  | scheduleMaxJobs => (jobs? text).isSome
  | globalInstanceGroups => true
  | request => text ≠ ""

end Setting

inductive Argument where
  | operand (text : String)
  | escape
  | long (name : String) (value : Option String)
  | short (letter : Char) (rest : List Char)
deriving DecidableEq, Repr

/-- One hyphen starts a letter, two a name; a name may carry its value behind a sign of equality.
Two hyphens alone say that options end, and one hyphen alone is an operand. -/
def Argument.of (text : String) : Argument :=
  match text.toList with
  | ['-', '-'] => escape
  | '-' :: '-' :: cs =>
    let name := cs.takeWhile (· ≠ '=')
    long (String.ofList name)
      (if name = cs then none else some (String.ofList (cs.drop (name.length + 1))))
  | '-' :: c :: cs => short c cs
  | _ => operand text

inductive Verb where
  | checkTemplate | resolve | plan | checkRelaunch | parseVars | showPrompts
deriving DecidableEq, Repr, Inhabited

inductive Topic where
  | template | relaunch | vars
deriving DecidableEq, Repr, Inhabited

/-- How far the words have been read. -/
inductive Level where
  | top
  | topic (topic : Topic)
  | verb (verb : Verb)
deriving DecidableEq, Repr, Inhabited

namespace Level

def next? : Level → String → Option Level
  | top, "template" => some (topic .template)
  | top, "relaunch" => some (topic .relaunch)
  | top, "vars" => some (topic .vars)
  | topic .template, "check" => some (verb .checkTemplate)
  | topic .template, "resolve" => some (verb .resolve)
  | topic .template, "plan" => some (verb .plan)
  | topic .relaunch, "check" => some (verb .checkRelaunch)
  | topic .vars, "parse" => some (verb .parseVars)
  | topic .vars, "prompts" => some (verb .showPrompts)
  | _, _ => none

def settings : Level → List Setting
  | top => [.maxForks, .scheduleMaxJobs, .globalInstanceGroups]
  | verb .resolve | verb .plan => [.request]
  | _ => []

/-- How many operands a level takes; above the verbs the words themselves are the operands. -/
def operandCount : Level → Option Nat
  | top | topic _ => none
  | verb .checkRelaunch => some 2
  | verb _ => some 1

end Level

structure Reading where
  level : Level := .top
  /-- Help is asked about the words that follow. -/
  helping : Bool := false
  json : Bool := false
  /-- The level at which JSON was asked for last. -/
  jsonLevel : Option Level := none
  settings : List (Setting × String) := []
  /-- The option whose value is the next argument. -/
  awaiting : Option Setting := none
  /-- Options have ended. -/
  escaped : Bool := false
  operands : List String := []
deriving DecidableEq, Repr

namespace Reading

instance : Inhabited Reading := ⟨{}⟩

def set (r : Reading) (s : Setting) (text : String) : Except Refusal Reading :=
  if (r.settings.lookup s).isSome || !s.accepts text then .error .misuse
  else .ok { r with settings := (s, text) :: r.settings, awaiting := none }

/-- Asks for JSON, at most once at a level. -/
def askJson (r : Reading) : Except Refusal Reading :=
  if r.jsonLevel = some r.level then .error .misuse
  else .ok { r with json := true, jsonLevel := some r.level }

def long (r : Reading) (name : String) (value : Option String) : Except Refusal Reading :=
  match r.level.settings.find? (fun s => s.name == name), value with
  | some s, some text => r.set s text
  | some s, none => .ok { r with awaiting := some s }
  | none, some _ => .error .misuse
  | none, none =>
    if name = "json" then r.askJson
    else if name = "help" then .error .help
    else .error .misuse

/-- Reads an option by its letter; what follows the letter is its value, with or without a sign of
equality. -/
def short (r : Reading) (letter : Char) (rest : List Char) : Except Refusal Reading :=
  match r.level.settings.find? (fun s => s.letter? == some letter) with
  | some s =>
    match rest with
    | [] => .ok { r with awaiting := some s }
    | '=' :: text => r.set s (String.ofList text)
    | text => r.set s (String.ofList text)
  | none => .error (if letter = 'h' then .help else .misuse)

def operand (r : Reading) (text : String) : Except Refusal Reading :=
  match r.level.operandCount with
  | some n =>
    if r.operands.length < n ∧ text ≠ "" then .ok { r with operands := r.operands ++ [text] }
    else .error .misuse
  | none =>
    if text = "help" ∧ !r.helping then .ok { r with helping := true }
    else match r.level.next? text with
      | some level => .ok { r with level }
      | none => .error .misuse

/-- Reads one more argument. A value does not start with a hyphen, but may be one. -/
def step (r : Reading) (text : String) : Except Refusal Reading :=
  match r.awaiting, Argument.of text with
  | some s, .operand text => r.set s text
  | some _, _ => .error .misuse
  | none, argument =>
    if r.escaped || r.helping then r.operand text
    else match argument with
      | .operand text => r.operand text
      | .escape =>
        if r.level.operandCount.isSome then .ok { r with escaped := true } else .error .misuse
      | .long name value => r.long name value
      | .short letter rest => r.short letter rest

def command? (r : Reading) : Option Command :=
  let request := r.settings.lookup .request
  match r.level, r.operands with
  | .verb .checkTemplate, [template] => some (.checkTemplate template)
  | .verb .resolve, [template] => some (.resolve template request)
  | .verb .plan, [template] => some (.plan template request)
  | .verb .checkRelaunch, [template, launchConfig] => some (.checkRelaunch template launchConfig)
  | .verb .parseVars, [file] => some (.parseVars file)
  | .verb .showPrompts, [launchConfig] => some (.showPrompts launchConfig)
  | _, _ => none

/-- The text of a setting: its option's value, or else that of its environment variable. -/
def text? (r : Reading) (env : Table String) (s : Setting) : Option String :=
  (r.settings.lookup s).or (s.environmentName?.bind fun name => env[name]?)

def invocation? (r : Reading) (env : Table String) : Option Invocation := do
  guard r.awaiting.isNone
  return {
    command := ← r.command?
    maxForks := ← ((r.text? env .maxForks).map Setting.forks?).getD (some 0)
    scheduleMaxJobs := ← ((r.text? env .scheduleMaxJobs).map Setting.jobs?).getD (some 10)
    instanceGroups := (r.text? env .globalInstanceGroups).getD ""
    json := r.json }

end Reading

def Invocation.ofArguments (arguments : List String) (env : Table String) :
    Except Refusal Invocation := do
  let r ← arguments.foldlM Reading.step {}
  if r.helping then .error .help
  else match r.invocation? env with
    | some invocation => .ok invocation
    | none => .error .misuse

end JobLaunch
