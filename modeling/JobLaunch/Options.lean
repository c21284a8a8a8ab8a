import JobLaunch.Record
/-!
Options of playbook jobs, and the maintenance commands of system jobs.
-/
namespace JobLaunch

/-- Whether a playbook job changes its hosts or only reports what it would change. -/
inductive JobType where
  | run | check
deriving DecidableEq, Repr, Inhabited

instance : Words JobType where
  all := [.run, .check]
  word
    | .run => "run"
    | .check => "check"

inductive SystemJobType where
  | cleanupJobs | cleanupActivityStream | cleanupSessions | cleanupTokens
deriving DecidableEq, Repr, Inhabited

instance : Words SystemJobType where
  all := [.cleanupJobs, .cleanupActivityStream, .cleanupSessions, .cleanupTokens]
  word
    | .cleanupJobs => "cleanup_jobs"
    | .cleanupActivityStream => "cleanup_activitystream"
    | .cleanupSessions => "cleanup_sessions"
    | .cleanupTokens => "cleanup_tokens"

/-- Whether the command keeps what is younger than a number of days. -/
def SystemJobType.takesDays : SystemJobType → Bool
  | .cleanupJobs | .cleanupActivityStream => true
  | .cleanupSessions | .cleanupTokens => false

/-- Options that a template shares with its jobs. No forks means the runner's default, no timeout
means that a job may run for ever, and an empty branch means the project's. -/
structure JobOptions where
  jobType : JobType := .run
  playbook : String := ""
  scmBranch : String := ""
  forks : UInt32 := 0
  limit : String := ""
  verbosity : UInt8 := 0
  extraVars : Vars := ∅
  jobTags : String := ""
  skipTags : String := ""
  startAtTask : String := ""
  forceHandlers : Bool := false
  becomeEnabled : Bool := false
  allowSimultaneous : Bool := false
  timeout : Int64 := 0
  useFactCache : Bool := false
  diffMode : Bool := false
deriving DecidableEq, Repr

namespace JobOptions

instance : Inhabited JobOptions := ⟨{}⟩

def fields (o : JobOptions) : List (String × Json) := [
  ("job_type", encode o.jobType), ("playbook", encode o.playbook),
  ("scm_branch", encode o.scmBranch), ("forks", encode o.forks), ("limit", encode o.limit),
  ("verbosity", encode o.verbosity), ("extra_vars", encode o.extraVars),
  ("job_tags", encode o.jobTags), ("skip_tags", encode o.skipTags),
  ("start_at_task", encode o.startAtTask), ("force_handlers", encode o.forceHandlers),
  ("become_enabled", encode o.becomeEnabled), ("allow_simultaneous", encode o.allowSimultaneous),
  ("timeout", encode o.timeout), ("use_fact_cache", encode o.useFactCache),
  ("diff_mode", encode o.diffMode)]

def ofRecord? (r : Record) : Option JobOptions := do
  return {
    jobType := ← r.orElse 0 "job_type" .run
    playbook := ← r.orElse 1 "playbook" ""
    scmBranch := ← r.orElse 2 "scm_branch" ""
    forks := ← r.orElse 3 "forks" 0
    limit := ← r.orElse 4 "limit" ""
    verbosity := ← r.orElse 5 "verbosity" 0
    extraVars := ← r.orElse 6 "extra_vars" ∅
    jobTags := ← r.orElse 7 "job_tags" ""
    skipTags := ← r.orElse 8 "skip_tags" ""
    startAtTask := ← r.orElse 9 "start_at_task" ""
    forceHandlers := ← r.orElse 10 "force_handlers" false
    becomeEnabled := ← r.orElse 11 "become_enabled" false
    allowSimultaneous := ← r.orElse 12 "allow_simultaneous" false
    timeout := ← r.orElse 13 "timeout" 0
    useFactCache := ← r.orElse 14 "use_fact_cache" false
    diffMode := ← r.orElse 15 "diff_mode" false }

instance : Coded JobOptions where
  encode o := .object o.fields
  decode? j := (Record.ofJson? 16 j).bind ofRecord?

end JobOptions
end JobLaunch
