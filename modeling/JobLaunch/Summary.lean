import JobLaunch.Record
/-!
Host summaries: what happened on a host of a job, and the statuses by which a relaunch selects
hosts.
-/
namespace JobLaunch

/-- How many tasks ended in which way on a host; a dark host was out of reach. -/
structure HostCounters where
  ok : UInt32 := 0
  changed : UInt32 := 0
  failures : UInt32 := 0
  dark : UInt32 := 0
  skipped : UInt32 := 0
  processed : UInt32 := 0
  rescued : UInt32 := 0
  ignored : UInt32 := 0
deriving DecidableEq, Repr

namespace HostCounters

instance : Inhabited HostCounters := ⟨{}⟩

/-- A host failed when it was out of reach or a task failed on it. -/
def failed (c : HostCounters) : Bool := c.dark > 0 || c.failures > 0

instance : Coded HostCounters where
  encode c := .object [
    ("ok", encode c.ok), ("changed", encode c.changed), ("failures", encode c.failures),
    ("dark", encode c.dark), ("skipped", encode c.skipped), ("processed", encode c.processed),
    ("rescued", encode c.rescued), ("ignored", encode c.ignored)]
  decode? j := do
    let r ← Record.ofJson? 8 j
    return {
      ok := ← r.orElse 0 "ok" 0
      changed := ← r.orElse 1 "changed" 0
      failures := ← r.orElse 2 "failures" 0
      dark := ← r.orElse 3 "dark" 0
      skipped := ← r.orElse 4 "skipped" 0
      processed := ← r.orElse 5 "processed" 0
      rescued := ← r.orElse 6 "rescued" 0
      ignored := ← r.orElse 7 "ignored" 0 }

end HostCounters

structure HostSummary where
  jobId : Id
  hostName : String
  counters : HostCounters
  failed : Bool
  modifiedAt : Timestamp
deriving DecidableEq, Repr, Inhabited

namespace HostSummary

def record (jobId : Id) (hostName : String) (counters : HostCounters) (now : Timestamp) :
    HostSummary :=
  ⟨jobId, hostName, counters, counters.failed, now⟩

def update (s : HostSummary) (counters : HostCounters) (now : Timestamp) : HostSummary :=
  { s with counters, failed := counters.failed, modifiedAt := now }

instance : Coded HostSummary where
  encode s := .object [
    ("job_id", encode s.jobId), ("host_name", encode s.hostName), ("counters", encode s.counters),
    ("failed", encode s.failed), ("modified_at", encode s.modifiedAt)]
  decode? j := do
    let r ← Record.ofJson? 5 j
    return {
      jobId := ← r.required 0 "job_id"
      hostName := ← r.required 1 "host_name"
      counters := ← r.required 2 "counters"
      failed := ← r.required 3 "failed"
      modifiedAt := ← r.required 4 "modified_at" }

end HostSummary

inductive HostStatus where
  | all | failed | ok | changed | unreachable
deriving DecidableEq, Repr, Inhabited

instance : Words HostStatus where
  all := [.all, .failed, .ok, .changed, .unreachable]
  word
    | .all => "all"
    | .failed => "failed"
    | .ok => "ok"
    | .changed => "changed"
    | .unreachable => "unreachable"

def HostStatus.selects (s : HostStatus) (h : HostSummary) : Bool :=
  match s with
  | .all => true
  | .failed => h.failed
  | .ok => h.counters.ok > 0
  | .changed => h.counters.changed > 0
  | .unreachable => h.counters.dark > 0

end JobLaunch
