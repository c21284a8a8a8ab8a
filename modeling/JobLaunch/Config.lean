import JobLaunch.Record
/-!
Settings of the launch services, and how they are read from texts such as environment variables.
-/
namespace JobLaunch

def settingLimit : Nat := 0xFFFFFFFFFFFFFFFF

/-- Settings. A forks ceiling of zero is none, and a fact cache timeout of zero lets facts be as old
as they are; the timeout is in seconds. -/
structure Config where
  maxForks : UInt32 := 0
  scheduleMaxJobs : UInt64 := 10
  factCacheTimeout : UInt64 := 0
  factBatchSize : UInt64 := 100
  globalInstanceGroups : List Id := []
deriving DecidableEq, Repr

inductive ConfigError where
  | badInstanceGroup (text : String)
  | noScheduledJobs
  | emptyFactBatch
deriving DecidableEq, Repr, Inhabited

def ConfigError.message : ConfigError → String
  | badInstanceGroup text => s!"invalid instance group id '{text}'"
  | noScheduledJobs => "schedule_max_jobs must be greater than 0"
  | emptyFactBatch => "fact_batch_size must be greater than 0"

/-- Reads ids that are separated by commas; blank entries do not count. -/
def parseIdList (text : String) : Except ConfigError (List Id) :=
  (((Text.commaSeparated text).map Text.trimmed).filter (· ≠ "")).mapM fun part =>
    match Id.ofText? part with
    | some id => .ok id
    | none => .error (.badInstanceGroup part)

namespace Config

instance : Inhabited Config := ⟨{}⟩

/-- The first reason why services cannot run with the settings. -/
def invalid? (c : Config) : Option ConfigError :=
  if c.scheduleMaxJobs = 0 then some .noScheduledJobs
  else if c.factBatchSize = 0 then some .emptyFactBatch
  else none

def maxForksVariable : String := "TARMAC_MAX_FORKS"
def scheduleMaxJobsVariable : String := "TARMAC_SCHEDULE_MAX_JOBS"
def factCacheTimeoutVariable : String := "TARMAC_FACT_CACHE_TIMEOUT"
def factBatchSizeVariable : String := "TARMAC_FACT_BATCH_SIZE"
def globalInstanceGroupsVariable : String := "TARMAC_GLOBAL_INSTANCE_GROUPS"

/-- Settings from environment variables. A number that cannot be read counts as not set. -/
def ofEnvironment (env : Table String) : Except ConfigError Config := do
  let number (name : String) (greatest : Nat) : Option Nat :=
    (env[name]?).bind (Text.boundedNatural? greatest)
  let groups ← match env[globalInstanceGroupsVariable]? with
    | some text => parseIdList text
    | none => .ok []
  return {
    maxForks := ((number maxForksVariable 0xFFFFFFFF).map UInt32.ofNat).getD 0
    scheduleMaxJobs := ((number scheduleMaxJobsVariable settingLimit).map UInt64.ofNat).getD 10
    factCacheTimeout := ((number factCacheTimeoutVariable settingLimit).map UInt64.ofNat).getD 0
    factBatchSize := ((number factBatchSizeVariable settingLimit).map UInt64.ofNat).getD 100
    globalInstanceGroups := groups }

instance : Coded Config where
  encode c := .object [
    ("max_forks", encode c.maxForks), ("schedule_max_jobs", encode c.scheduleMaxJobs),
    ("fact_cache_timeout", encode c.factCacheTimeout),
    ("fact_batch_size", encode c.factBatchSize),
    ("global_instance_groups", encode c.globalInstanceGroups)]
  decode? j := do
    let r ← Record.ofObject? j
    return {
      maxForks := ← r.orElse 0 "max_forks" 0
      scheduleMaxJobs := ← r.orElse 1 "schedule_max_jobs" 10
      factCacheTimeout := ← r.orElse 2 "fact_cache_timeout" 0
      factBatchSize := ← r.orElse 3 "fact_batch_size" 100
      globalInstanceGroups := ← r.orElse 4 "global_instance_groups" [] }

end Config
end JobLaunch
