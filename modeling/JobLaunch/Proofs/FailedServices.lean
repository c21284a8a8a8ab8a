import JobLaunch.Proofs.JobResolution
import JobLaunch.Proofs.StoredLaunches
/-!
Services that fail. A service writes nothing before it is certain that it can finish, so a failure
leaves the store as it was.
-/
namespace JobLaunch
namespace Service
variable {α : Type}

/-- Whether a service that fails on a store leaves it exactly as it was. -/
def FailsCleanly (service : Service α) (s : Store) : Prop :=
  ∀ e s', service.exec s = (.error e, s') → s' = s

/-- Whether a launch that fails on a store leaves it exactly as it was, and one that does not fail
has stored the jobs that it returns. -/
structure AllOrNothing (launch : Service LaunchOutcome) (s : Store) : Prop where
  failed : launch.FailsCleanly s
  stored : ∀ outcome s', launch.exec s = (.ok outcome, s') → s'.jobs = s.jobs ++ outcome.jobs

theorem Reads.failsCleanly {service : Service α} (h : service.Reads) (s : Store) :
    service.FailsCleanly s := by
  intro e s' he
  have hs := h s
  rw [he] at hs
  exact hs

theorem reads_preview (config : Config) (id : Id) (r : LaunchRequest) :
    (preview config id r).Reads :=
  (reads_loadTemplate id).bind fun _ => reads_pure _

theorem reads_retryHosts (id : Id) (status : String) : (retryHosts id status).Reads :=
  (reads_found _ _).bind fun _ => (reads_loadJob id).bind fun _ =>
    reads_get.bind fun _ => reads_pure _

theorem failsCleanly_recordSummary (now : Timestamp) (id : Id) (host : String)
    (counters : HostCounters) (s : Store) :
    (recordSummary now id host counters).FailsCleanly s := by
  intro e s' he
  unfold recordSummary at he
  rcases (reads_loadJob id).exec_bind_cases _ s with ⟨cause, h⟩ | ⟨job, -, h⟩
  · rw [h] at he
    cases he
    rfl
  rw [h] at he
  by_cases hj : job.status.isFinished
  · simp only [hj, if_true] at he
    cases he
    rfl
  · -- a job that has not ended takes the summary
    simp only [hj] at he
    cases he

/-- A plan that is stored with fresh ids is stored as a whole. -/
theorem allOrNothing_of_persist {stamp : Stamp} {s : Store} {plan : LaunchPlan}
    (hf : stamp.Fresh s) (hn : plan.jobCount ≤ UInt32.size) {r : LaunchRequest} {res : Resolution}
    {launch : Service LaunchOutcome} (h : launch.exec s = (persist stamp r plan res).exec s) :
    launch.AllOrNothing s := by
  rw [exec_persist_of_fresh hf hn] at h
  constructor
  · intro e s' he
    rw [h] at he
    cases he
  · intro outcome s' ho
    rw [h] at ho
    cases ho
    simp [Store.withJobs]

theorem allOrNothing_of_error {s : Store} {e : LaunchError} {launch : Service LaunchOutcome}
    (h : launch.exec s = (.error e, s)) : launch.AllOrNothing s := by
  constructor
  · intro e' s' he
    rw [h] at he
    cases he
    rfl
  · intro outcome s' ho
    rw [h] at ho
    cases ho

theorem allOrNothing_launch (config : Config) {stamp : Stamp} {s : Store} (hf : stamp.Fresh s)
    (id : Id) (r : LaunchRequest) : (launch config stamp id r).AllOrNothing s := by
  rcases launch_cases config stamp id r s with ⟨e, h⟩ | ⟨t, -, -, -, h⟩
  · exact allOrNothing_of_error h
  · exact allOrNothing_of_persist hf (t.jobCount_plan_le _ r) h

theorem allOrNothing_relaunch (config : Config) {stamp : Stamp} {s : Store} (hf : stamp.Fresh s)
    (id : Id) (r : RelaunchRequest) : (relaunch config stamp id r).AllOrNothing s := by
  rcases relaunch_cases config stamp id r s with ⟨e, h⟩ | ⟨job, t, limit, -, -, -, -, -, h⟩
  · exact allOrNothing_of_error h
  · apply allOrNothing_of_persist hf _ h
    rw [LaunchPlan.jobCount_limitedTo]
    exact t.jobCount_plan_le _ _

end Service

/-- A service that fails leaves the store exactly as it was, whatever it was asked; a launch or a
relaunch that does not fail has stored all of its jobs. -/
theorem failures_change_nothing (config : Config) (stamp : Stamp) (s : Store)
    (hf : stamp.Fresh s) :
    (∀ id r, (Service.launch config stamp id r).AllOrNothing s) ∧
    (∀ id r, (Service.relaunch config stamp id r).AllOrNothing s) ∧
    (∀ now id host counters, (Service.recordSummary now id host counters).FailsCleanly s) ∧
    (∀ id status, (Service.retryHosts id status).FailsCleanly s) ∧
    (∀ id r, (Service.preview config id r).FailsCleanly s) :=
  ⟨Service.allOrNothing_launch config hf, Service.allOrNothing_relaunch config hf,
    fun now id host counters => Service.failsCleanly_recordSummary now id host counters s,
    fun id status => (Service.reads_retryHosts id status).failsCleanly s,
    fun id r => (Service.reads_preview config id r).failsCleanly s⟩

/-- Ids that count up from a number: first the workflow's, then those of the jobs. -/
def Stamp.counting (first : Nat) : Stamp :=
  ⟨default, ⟨.ofNat 128 first⟩, fun i => ⟨.ofNat 128 (first + 1 + i)⟩⟩

theorem Stamp.fresh_counting {first : Nat} {s : Store} (hn : first < UInt32.size)
    (hw : s.workflows[(⟨.ofNat 128 first⟩ : Id)]? = none)
    (hj : ∀ j ∈ s.jobs, j.id.bits.toNat ≤ first) : (Stamp.counting first).Fresh s where
  workflow := hw
  job i hi := by
    apply Store.findJob?_eq_none.mpr
    intro j hmem he
    have hle := hj j hmem
    rw [he] at hle
    simp only [counting, BitVec.toNat_ofNat, UInt32.size] at hle hn hi
    omega
  distinct i hi j hj h := by
    have hb := congrArg (fun id : Id => id.bits.toNat) h
    simp only [counting, BitVec.toNat_ofNat, UInt32.size] at hb hn hi hj
    omega

/-- The sample template is not launched with a limit that it does not prompt for. -/
theorem refused_launch_changes_nothing :
    (Stamp.counting 10).Fresh ((∅ : Store).saveTemplate (.job (.sample []))) ∧
    ∃ e s', (Service.launch default (.counting 10) ⟨1⟩
        { overrides := (∅ : Overrides).set .limit (some "web") }).exec
      ((∅ : Store).saveTemplate (.job (.sample []))) = (.error e, s') ∧
      s' = (∅ : Store).saveTemplate (.job (.sample [])) := by
  have hf : (Stamp.counting 10).Fresh ((∅ : Store).saveTemplate (.job (.sample []))) :=
    Stamp.fresh_counting (by decide) Std.ExtTreeMap.getElem?_empty (by intro j hj; cases hj)
  obtain ⟨e, s', h⟩ : ∃ e s', (Service.launch default (.counting 10) ⟨1⟩
      { overrides := (∅ : Overrides).set .limit (some "web") }).exec
        ((∅ : Store).saveTemplate (.job (.sample []))) = (.error e, s') := ⟨_, _, rfl⟩
  obtain ⟨hlaunch, -⟩ := failures_change_nothing default (.counting 10) _ hf
  exact ⟨hf, e, s', h, (hlaunch ⟨1⟩ _).failed e s' h⟩

end JobLaunch
