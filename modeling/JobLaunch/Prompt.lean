import JobLaunch.Options
import JobLaunch.Resource
/-!
Fields that a launch may override. `PerField` holds one entry for each of them and is read and
written pointwise: `get_ofFn`, `get_set_self` and `get_set_of_ne` say how. The ask flags of a
template and the overrides of a launch are two such records.
-/
namespace JobLaunch

/-- Fields that a launch may override, in the order in which they are decided. -/
inductive PromptField where
  | extraVars | inventory | scmBranch | limit | jobTags | skipTags | jobType | verbosity | diffMode
  | credentials | executionEnvironment | labels | forks | jobSliceCount | timeout | instanceGroups
deriving DecidableEq, Repr, Inhabited

namespace PromptField

def all : List PromptField := [
  .extraVars, .inventory, .scmBranch, .limit, .jobTags, .skipTags, .jobType, .verbosity, .diffMode,
  .credentials, .executionEnvironment, .labels, .forks, .jobSliceCount, .timeout, .instanceGroups]

theorem mem_all (f : PromptField) : f ∈ all := by
  cases f <;> decide

theorem nodup_all : all.Nodup := by
  decide

def place (f : PromptField) : Nat := f.ctorIdx

def name : PromptField → String
  | extraVars => "extra_vars"
  | inventory => "inventory"
  | scmBranch => "scm_branch"
  | limit => "limit"
  | jobTags => "job_tags"
  | skipTags => "skip_tags"
  | jobType => "job_type"
  | verbosity => "verbosity"
  | diffMode => "diff_mode"
  | credentials => "credentials"
  | executionEnvironment => "execution_environment"
  | labels => "labels"
  | forks => "forks"
  | jobSliceCount => "job_slice_count"
  | timeout => "timeout"
  | instanceGroups => "instance_groups"

theorem name_inj {f g : PromptField} (h : f.name = g.name) : f = g := by
  revert h
  cases f <;> cases g <;> decide

instance : Words PromptField where
  all := all
  word := name

/-- The word for the permission to override the field. -/
def askWord : PromptField → String
  | extraVars => "variables"
  | jobTags => "tags"
  | credentials => "credential"
  | f => f.name

/-- The template attribute that permits overriding the field. -/
def askName (f : PromptField) : String := "ask_" ++ f.askWord ++ "_on_launch"

def isMultiValued : PromptField → Bool
  | credentials | labels | instanceGroups => true
  | _ => false

@[reducible] def Carrier : PromptField → Type
  | extraVars => Vars
  | inventory => Inventory
  | scmBranch | limit | jobTags | skipTags => String
  | jobType => JobType
  | verbosity => UInt8
  | diffMode => Bool
  | credentials => List Credential
  | executionEnvironment => Id
  | labels | instanceGroups => List Id
  | forks | jobSliceCount => UInt32
  | timeout => Int64

instance : (f : PromptField) → DecidableEq f.Carrier
  | extraVars => inferInstanceAs (DecidableEq Vars)
  | inventory => inferInstanceAs (DecidableEq Inventory)
  | scmBranch | limit | jobTags | skipTags => inferInstanceAs (DecidableEq String)
  | jobType => inferInstanceAs (DecidableEq JobType)
  | verbosity => inferInstanceAs (DecidableEq UInt8)
  | diffMode => inferInstanceAs (DecidableEq Bool)
  | credentials => inferInstanceAs (DecidableEq (List Credential))
  | executionEnvironment => inferInstanceAs (DecidableEq Id)
  | labels | instanceGroups => inferInstanceAs (DecidableEq (List Id))
  | forks | jobSliceCount => inferInstanceAs (DecidableEq UInt32)
  | timeout => inferInstanceAs (DecidableEq Int64)

instance : (f : PromptField) → Coded f.Carrier
  | extraVars => inferInstanceAs (Coded Vars)
  | inventory => inferInstanceAs (Coded Inventory)
  | scmBranch | limit | jobTags | skipTags => inferInstanceAs (Coded String)
  | jobType => inferInstanceAs (Coded JobType)
  | verbosity => inferInstanceAs (Coded UInt8)
  | diffMode => inferInstanceAs (Coded Bool)
  | credentials => inferInstanceAs (Coded (List Credential))
  | executionEnvironment => inferInstanceAs (Coded Id)
  | labels | instanceGroups => inferInstanceAs (Coded (List Id))
  | forks | jobSliceCount => inferInstanceAs (Coded UInt32)
  | timeout => inferInstanceAs (Coded Int64)

/-- Whether a field means the same with two values. Inventories are the same when their ids are, and
variables when they hold the same data. -/
def same : (f : PromptField) → f.Carrier → f.Carrier → Bool
  | extraVars, (a : Vars), (b : Vars) => a.toJson.same b.toJson
  | inventory, (a : Inventory), (b : Inventory) => a.id == b.id
  | _, a, b => decide (a = b)

def ids? : (f : PromptField) → f.Carrier → Option (List Id)
  | credentials, (cs : List Credential) => some (cs.map (·.id))
  | labels, (ids : List Id) => some ids
  | instanceGroups, (ids : List Id) => some ids
  | _, _ => none

def isEmptySelection (f : PromptField) (v : f.Carrier) : Bool := (f.ids? v).any List.isEmpty

end PromptField

/-- One entry for every prompt field. -/
@[ext] structure PerField (α : PromptField → Type) where
  extraVars : α .extraVars
  inventory : α .inventory
  scmBranch : α .scmBranch
  limit : α .limit
  jobTags : α .jobTags
  skipTags : α .skipTags
  jobType : α .jobType
  verbosity : α .verbosity
  diffMode : α .diffMode
  credentials : α .credentials
  executionEnvironment : α .executionEnvironment
  labels : α .labels
  forks : α .forks
  jobSliceCount : α .jobSliceCount
  timeout : α .timeout
  instanceGroups : α .instanceGroups

namespace PerField
variable {α : PromptField → Type}

def get (r : PerField α) : (f : PromptField) → α f
  | .extraVars => r.extraVars
  | .inventory => r.inventory
  | .scmBranch => r.scmBranch
  | .limit => r.limit
  | .jobTags => r.jobTags
  | .skipTags => r.skipTags
  | .jobType => r.jobType
  | .verbosity => r.verbosity
  | .diffMode => r.diffMode
  | .credentials => r.credentials
  | .executionEnvironment => r.executionEnvironment
  | .labels => r.labels
  | .forks => r.forks
  | .jobSliceCount => r.jobSliceCount
  | .timeout => r.timeout
  | .instanceGroups => r.instanceGroups

def ofFn (g : ∀ f, α f) : PerField α where
  extraVars := g .extraVars
  inventory := g .inventory
  scmBranch := g .scmBranch
  limit := g .limit
  jobTags := g .jobTags
  skipTags := g .skipTags
  jobType := g .jobType
  verbosity := g .verbosity
  diffMode := g .diffMode
  credentials := g .credentials
  executionEnvironment := g .executionEnvironment
  labels := g .labels
  forks := g .forks
  jobSliceCount := g .jobSliceCount
  timeout := g .timeout
  instanceGroups := g .instanceGroups

@[simp] theorem get_ofFn (g : ∀ f, α f) (f : PromptField) : (ofFn g).get f = g f := by
  cases f <;> rfl

@[simp] theorem ofFn_get (r : PerField α) : ofFn r.get = r := rfl

theorem ext_get {r s : PerField α} (h : ∀ f, r.get f = s.get f) : r = s := by
  rw [← ofFn_get r, ← ofFn_get s, funext h]

instance [∀ f, DecidableEq (α f)] : DecidableEq (PerField α) := fun r s =>
  decidable_of_iff (∀ f ∈ PromptField.all, r.get f = s.get f)
    ⟨fun h => ext_get fun f => h f f.mem_all, fun h _ _ => h ▸ rfl⟩

instance [∀ f, Inhabited (α f)] : Inhabited (PerField α) := ⟨ofFn fun f => (default : α f)⟩

def ofFn? (g : ∀ f, Option (α f)) : Option (PerField α) :=
  if h : ∀ f ∈ PromptField.all, (g f).isSome then
    some (ofFn fun f => (g f).get (h f f.mem_all))
  else none

theorem ofFn?_eq_some_iff {g : ∀ f, Option (α f)} {r : PerField α} :
    ofFn? g = some r ↔ ∀ f, g f = some (r.get f) := by
  constructor
  · intro h f
    by_cases hg : ∀ f ∈ PromptField.all, (g f).isSome
    · rw [ofFn?, dif_pos hg, Option.some.injEq] at h
      rw [← h, get_ofFn, Option.some_get]
    · rw [ofFn?, dif_neg hg] at h
      exact absurd h (by simp)
  · intro h
    have hg : ∀ f ∈ PromptField.all, (g f).isSome := fun f _ => by rw [h f]; rfl
    rw [ofFn?, dif_pos hg, Option.some.injEq]
    refine ext_get fun f => ?_
    rw [get_ofFn]
    exact Option.get_of_eq_some _ (h f)

def set (r : PerField α) (f : PromptField) (a : α f) : PerField α :=
  ofFn fun g => if h : g = f then h ▸ a else r.get g

@[simp] theorem get_set_self (r : PerField α) (f : PromptField) (a : α f) :
    (r.set f a).get f = a := by
  simp [set]

theorem get_set_of_ne (r : PerField α) {f g : PromptField} (a : α f) (h : g ≠ f) :
    (r.set f a).get g = r.get g := by
  simp [set, h]

end PerField

/-- For every field, whether a launch may override it. -/
abbrev AskFlags := PerField fun (_ : PromptField) => Bool

namespace AskFlags

instance : EmptyCollection AskFlags := ⟨.ofFn fun _ => false⟩

def any (ask : AskFlags) : Bool := PromptField.all.any ask.get

def fields (ask : AskFlags) : List (String × Json) :=
  PromptField.all.map fun f => (f.askName, .bool (ask.get f))

/-- The flags from the fields of a record; one that is left out is off. -/
def ofRecord? (r : Record) : Option AskFlags :=
  PerField.ofFn? fun f => r.orElse f.place f.askName false

end AskFlags

structure FieldValue where
  field : PromptField
  value : field.Carrier
deriving DecidableEq

namespace FieldValue

def toJson (v : FieldValue) : Json := encode v.value

def ids? (v : FieldValue) : Option (List Id) := v.field.ids? v.value

def isEmptySelection (v : FieldValue) : Bool := v.field.isEmptySelection v.value

end FieldValue

/-- At most one value for every field; no value means that none was provided. -/
abbrev Overrides := PerField fun f => Option f.Carrier

namespace Overrides

instance : EmptyCollection Overrides := ⟨.ofFn fun _ => none⟩

instance : Inhabited Overrides := ⟨∅⟩

@[simp] theorem get_empty (f : PromptField) : (∅ : Overrides).get f = none :=
  PerField.get_ofFn _ f

def insert (o : Overrides) (v : FieldValue) : Overrides := o.set v.field (some v.value)

/-- A value written over what the record has for its field, one field at a time. -/
def overwrite (o : Overrides) : FieldValue → Overrides
  | ⟨.extraVars, vars⟩ => { o with extraVars := some vars }
  | ⟨.inventory, inventory⟩ => { o with inventory := some inventory }
  | ⟨.scmBranch, branch⟩ => { o with scmBranch := some branch }
  | ⟨.limit, limit⟩ => { o with limit := some limit }
  | ⟨.jobTags, tags⟩ => { o with jobTags := some tags }
  | ⟨.skipTags, tags⟩ => { o with skipTags := some tags }
  | ⟨.jobType, jobType⟩ => { o with jobType := some jobType }
  | ⟨.verbosity, level⟩ => { o with verbosity := some level }
  | ⟨.diffMode, on⟩ => { o with diffMode := some on }
  | ⟨.credentials, credentials⟩ => { o with credentials := some credentials }
  | ⟨.executionEnvironment, id⟩ => { o with executionEnvironment := some id }
  | ⟨.labels, ids⟩ => { o with labels := some ids }
  | ⟨.forks, forks⟩ => { o with forks := some forks }
  | ⟨.jobSliceCount, count⟩ => { o with jobSliceCount := some count }
  | ⟨.timeout, seconds⟩ => { o with timeout := some seconds }
  | ⟨.instanceGroups, ids⟩ => { o with instanceGroups := some ids }

theorem insert_eq_overwrite (o : Overrides) (v : FieldValue) : o.insert v = o.overwrite v := by
  obtain ⟨f, x⟩ := v
  cases f <;> rfl

def values (o : Overrides) : List FieldValue :=
  PromptField.all.filterMap fun f => (o.get f).map (FieldValue.mk f)

def isEmpty (o : Overrides) : Bool := PromptField.all.all fun f => (o.get f).isNone

def fields (o : Overrides) : List (String × Json) :=
  o.values.map fun v => (v.field.name, v.toJson)

/-- The overrides from the fields of a record; null is no value. -/
def ofRecord? (r : Record) : Option Overrides :=
  PerField.ofFn? fun f => r.optional f.place f.name

instance : Coded Overrides where
  encode o := .object o.fields
  decode? j := (Record.ofJson? 16 j).bind ofRecord?

end Overrides
end JobLaunch
