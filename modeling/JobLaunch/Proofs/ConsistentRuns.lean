import JobLaunch.Proofs.FactUpdates
import JobLaunch.Proofs.FailedServices
import JobLaunch.Proofs.StoreConsistency
/-!
Whole runs: operations on a store while the jobs that it describes run next to it. The fact cache of
a job is written before it runs and read afterwards, and in between the job may do anything to the
files.
-/
namespace JobLaunch

def Operation.Fresh (s : Store) : Operation → Prop
  | launch _ stamp _ _ | relaunch _ stamp _ _ => stamp.Fresh s
  | _ => True

namespace Store.Consistent
variable {s : Store}

theorem persist (h : s.Consistent) {stamp : Stamp} (hf : stamp.Fresh s) {plan : LaunchPlan}
    (hn : plan.jobCount ≤ UInt32.size) {r : LaunchRequest} (hp : plan.LaunchedAs r.launchType)
    (res : Resolution) : ((Service.persist stamp r plan res).exec s).2.Consistent := by
  rw [Service.exec_persist_of_fresh hf hn]
  exact h.withRecords hf hn hp (fun _ => rfl) fun _ => rfl

theorem launch (h : s.Consistent) (config : Config) {stamp : Stamp} (hf : stamp.Fresh s) (id : Id)
    (r : LaunchRequest) : ((Service.launch config stamp id r).exec s).2.Consistent := by
  rcases Service.launch_cases config stamp id r s with ⟨e, hs⟩ | ⟨t, -, -, -, hs⟩
  · rw [hs]
    exact h
  · rw [hs]
    exact h.persist hf (t.jobCount_plan_le _ r) (t.launchedAs_plan _ r) _

theorem relaunch (h : s.Consistent) (config : Config) {stamp : Stamp} (hf : stamp.Fresh s)
    (id : Id) (r : RelaunchRequest) :
    ((Service.relaunch config stamp id r).exec s).2.Consistent := by
  rcases Service.relaunch_cases config stamp id r s with
    ⟨e, hs⟩ | ⟨job, t, limit, -, -, -, -, -, hs⟩
  · rw [hs]
    exact h
  · rw [hs]
    apply h.persist hf _ ((t.launchedAs_plan _ _).limitedTo limit) _
    rw [LaunchPlan.jobCount_limitedTo]
    exact t.jobCount_plan_le _ _

theorem recordSummary (h : s.Consistent) (now : Timestamp) (id : Id) (host : String)
    (counters : HostCounters) :
    ((Service.recordSummary now id host counters).exec s).2.Consistent := by
  unfold Service.recordSummary
  rcases (Service.reads_loadJob id).exec_bind_cases _ s with ⟨e, hs⟩ | ⟨job, hj, hs⟩
  · rw [hs]
    exact h
  rw [hs]
  have hjob : ∃ j ∈ s.jobs, j.id = id := by
    have hfind := (Service.exec_loadJob_eq_ok.mp hj).1
    exact ⟨job, List.mem_of_find?_eq_some hfind, Store.id_of_findJob? hfind⟩
  have hfailed : counters.failed ↔ 0 < counters.dark ∨ 0 < counters.failures := by
    simp [HostCounters.failed]
  by_cases hend : job.status.isFinished
  · simp only [hend, if_true]
    exact h
  simp only [hend]
  change ((get >>= _ : Service HostSummary).exec s).2.Consistent
  rw [Service.exec_bind, Service.exec_get]
  simp only []
  cases hold : (s.summaryTable id)[host]? with
  | none =>
    -- the first summary of the host
    exact h.putSummary hjob hfailed
  | some old =>
    have hid : old.jobId = id := (h.summary id host old hold).1
    apply h.putSummary _ hfailed
    rw [← hid] at hjob
    exact hjob

theorem updateFacts (h : s.Consistent) (id : Id) (updates : List FactUpdate) :
    (s.updateFacts id updates).1.Consistent := by
  obtain ⟨hosts, hs⟩ := s.updateFacts_eq id updates
  rw [hs]
  exact h.of_eq rfl rfl rfl rfl

theorem apply (h : s.Consistent) {op : Operation} (hf : op.Fresh s) : (op.apply s).Consistent := by
  cases op with
  | saveTemplate t => exact h.of_eq rfl rfl rfl rfl
  | insertOrganization o => exact h.of_eq rfl rfl rfl rfl
  | insertHosts id hosts => exact h.of_eq rfl rfl rfl rfl
  | updateFacts id updates => exact h.updateFacts id updates
  | updateStatus id status now =>
    change ((s.updateStatus? id status now).getD s).Consistent
    cases hs : s.updateStatus? id status now with
    | none => exact h
    | some s' => exact h.updateStatus? hs
  | recordSummary now id host counters => exact h.recordSummary now id host counters
  | launch config stamp id r => exact h.launch config hf id r
  | relaunch config stamp id r => exact h.relaunch config hf id r

theorem collectFacts (h : s.Consistent) (config : Config) (now : Timestamp) (spec : JobSpec)
    (directory : FilePath) (since : Option Timestamp) (t : FileTree) :
    (JobLaunch.collectFacts config now s spec directory since t).1.Consistent := by
  obtain ⟨hosts, hs⟩ := collectFacts_eq config now s spec directory since t
  rw [hs]
  exact h.of_eq rfl rfl rfl rfl

end Store.Consistent

structure World where
  store : Store
  files : FileTree

/-- What goes on in a world: an operation on the store, work on the fact cache of a job, or a job
that leaves the files as it likes. -/
inductive Activity where
  | operation (op : Operation)
  | prepareFacts (clock : Nat → Timestamp) (config : Config) (now : Timestamp) (spec : JobSpec)
    (directory : FilePath)
  | runJob (files : FileTree)
  | collectFacts (config : Config) (now : Timestamp) (spec : JobSpec) (directory : FilePath)
    (since : Option Timestamp)

namespace Activity

/-- The world that an activity leaves, whether or not it fails. -/
def apply (w : World) : Activity → World
  | operation op => { w with store := op.apply w.store }
  | prepareFacts clock config now spec directory =>
    match prepareFactsBy clock config now w.store spec directory w.files with
    | .ok (files, _) => { w with files }
    | .error _ => w
  | runJob files => { w with files }
  | collectFacts config now spec directory since =>
    { w with store :=
        (JobLaunch.collectFacts config now w.store spec directory since w.files).1 }

def Fresh (w : World) : Activity → Prop
  | operation op => op.Fresh w.store
  | _ => True

theorem consistent_apply {w : World} (h : w.store.Consistent) {a : Activity} (hf : a.Fresh w) :
    (a.apply w).store.Consistent := by
  cases a with
  | operation op => exact h.apply hf
  | prepareFacts clock config now spec directory =>
    unfold apply
    simp only []
    split <;> exact h
  | runJob files => exact h
  | collectFacts config now spec directory since =>
    exact h.collectFacts config now spec directory since w.files

end Activity

namespace World

/-- The worlds that come from an empty store, whatever files there are at first. -/
inductive Reachable : World → Prop
  | start (files : FileTree) : Reachable ⟨∅, files⟩
  | step {w : World} (h : Reachable w) {a : Activity} (hf : a.Fresh w) : Reachable (a.apply w)

/-- In every world that comes from an empty store the records belong together. -/
theorem consistent_of_reachable {w : World} (h : w.Reachable) : w.store.Consistent := by
  induction h with
  | start files => exact Store.consistent_empty
  | step h hf ih => exact Activity.consistent_apply ih hf

end World

def JobTemplate.halves : JobTemplate := { JobTemplate.sample [] with sliceCount := 2 }

/-- The first slice of a launch fails on a host, ends, and is relaunched. -/
theorem World.consistent_after_relaunch : ∃ w : World, w.Reachable ∧
    w.store.jobs.map (·.sliceNumber) = [1, 2, 1] ∧ w.store.Consistent := by
  have hsaved := (Reachable.start ∅).step (a := .operation (.saveTemplate (.job .halves))) trivial
  have hlaunched := hsaved.step (a := .operation (.launch default (.counting 10) ⟨1⟩ {}))
    (Stamp.fresh_counting (by decide) Std.ExtTreeMap.getElem?_empty (by intro j hj; cases hj))
  have hsummary := hlaunched.step
    (a := .operation (.recordSummary default ⟨11⟩ "web" { failures := 1 })) trivial
  have hended := hsummary.step (a := .operation (.updateStatus ⟨11⟩ .failed default)) trivial
  have hrelaunched := hended.step (a := .operation (.relaunch default (.counting 20) ⟨11⟩ {}))
    (Stamp.fresh_counting (by decide) (by rfl) (by decide))
  exact ⟨_, hrelaunched, rfl, consistent_of_reachable hrelaunched⟩

end JobLaunch
