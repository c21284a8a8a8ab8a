import Mathlib.Data.List.Nodup
import JobLaunch.Proofs.PlannedSpecs
import JobLaunch.Proofs.StoreGrowth
/-!
Launches that give out fresh ids. Once such a launch has a plan it cannot fail any more: it stores
every record of the plan.
-/
namespace JobLaunch

/-- Whether the ids of a launch are new to a store and differ from each other. A launch has no more
jobs than there are slice numbers. -/
structure Stamp.Fresh (stamp : Stamp) (s : Store) : Prop where
  workflow : s.workflows[stamp.workflowId]? = none
  job : ∀ i < UInt32.size, s.findJob? (stamp.jobId i) = none
  distinct : ∀ i < UInt32.size, ∀ j < UInt32.size, stamp.jobId i = stamp.jobId j → i = j

def Store.withJobs (s : Store) (config : Job → LaunchConfig) (jobs : List Job) : Store :=
  { s with
    jobs := s.jobs ++ jobs
    launchConfigs := s.launchConfigs.insertMany (jobs.map fun j => ((config j).jobId, config j)) }

def Store.withWorkflow (s : Store) (w : Option WorkflowJob) : Store :=
  (w.map s.createWorkflow).getD s

@[simp] theorem Store.jobs_withWorkflow (s : Store) (w : Option WorkflowJob) :
    (s.withWorkflow w).jobs = s.jobs := by
  cases w <;> rfl

@[simp] theorem Store.launchConfigs_withWorkflow (s : Store) (w : Option WorkflowJob) :
    (s.withWorkflow w).launchConfigs = s.launchConfigs := by
  cases w <;> rfl

@[simp] theorem Store.summaries_withWorkflow (s : Store) (w : Option WorkflowJob) :
    (s.withWorkflow w).summaries = s.summaries := by
  cases w <;> rfl

@[simp] theorem Store.templates_withWorkflow (s : Store) (w : Option WorkflowJob) :
    (s.withWorkflow w).templates = s.templates := by
  cases w <;> rfl

theorem Store.withJobs_nil (s : Store) (config : Job → LaunchConfig) :
    s.withJobs config [] = s := by
  simp [withJobs]

theorem Store.withJobs_cons (s : Store) (config : Job → LaunchConfig) (job : Job)
    (jobs : List Job) : s.withJobs config (job :: jobs) =
      (({ s with jobs := s.jobs ++ [job] } : Store).saveLaunchConfig (config job)).withJobs config
        jobs := by
  simp [withJobs, saveLaunchConfig, Std.ExtTreeMap.insertMany_cons]

/-- The second store is the first one with a workflow and jobs added, if any. -/
def Store.GrowsTo (s s' : Store) : Prop :=
  ∃ w config created, s' = (s.withWorkflow w).withJobs config created

theorem Store.growsTo_refl (s : Store) : s.GrowsTo s :=
  ⟨none, fun job => ⟨job.id, job.launchType, ∅, ∅, default⟩, [], (withJobs_nil _ _).symm⟩

theorem Store.findJob?_eq_none {s : Store} {id : Id} :
    s.findJob? id = none ↔ ∀ j ∈ s.jobs, j.id ≠ id := by
  simp [findJob?]

namespace Service
variable {config : Job → LaunchConfig}

theorem exec_forM_createJob {jobs : List Job} {s : Store} (hd : (jobs.map (·.id)).Nodup)
    (hn : ∀ job ∈ jobs, s.findJob? job.id = none) :
    (jobs.forM (createJob config)).exec s = (.ok (), s.withJobs config jobs) := by
  induction jobs generalizing s with
  | nil => rw [Store.withJobs_nil]; rfl
  | cons job jobs ih =>
    obtain ⟨hj, hd⟩ := List.nodup_cons.mp hd
    change ((createJob config job) >>= fun _ => jobs.forM (createJob config)).exec s = _
    have hfirst : (createJob config job).exec s =
        (.ok (), ({ s with jobs := s.jobs ++ [job] } : Store).saveLaunchConfig (config job)) := by
      rw [exec_createJob, hn job List.mem_cons_self]
      rfl
    rw [exec_bind_of_ok hfirst, Store.withJobs_cons]
    apply ih hd
    intro other ho
    change ({ s with jobs := s.jobs ++ [job] } : Store).findJob? other.id = none
    have hne : job.id ≠ other.id := by
      intro he
      apply hj
      exact List.mem_map.mpr ⟨other, ho, he.symm⟩
    rw [Store.findJob?_append, hn other (List.mem_cons_of_mem _ ho), if_neg hne]
    rfl

/-- Jobs are created one after another, up to the first whose id is taken. -/
theorem exec_forM_createJob_cases (config : Job → LaunchConfig) (jobs : List Job) (s : Store) :
    (jobs.forM (createJob config)).exec s = (.ok (), s.withJobs config jobs) ∨
      ∃ e created, created <+: jobs ∧
        (jobs.forM (createJob config)).exec s = (.error e, s.withJobs config created) := by
  induction jobs generalizing s with
  | nil => exact Or.inl (by rw [Store.withJobs_nil]; rfl)
  | cons job jobs ih =>
    change ((createJob config job) >>= fun _ => jobs.forM (createJob config)).exec s = _ ∨
      ∃ e created, created <+: job :: jobs ∧
        ((createJob config job) >>= fun _ => jobs.forM (createJob config)).exec s = _
    by_cases hj : (s.findJob? job.id).isSome
    · have htaken : (createJob config job).exec s = (.error (.jobExists job.id), s) := by
        rw [exec_createJob, if_pos hj]
      refine Or.inr ⟨.jobExists job.id, [], List.nil_prefix, ?_⟩
      rw [exec_bind_of_error htaken, Store.withJobs_nil]
    · have hfirst : (createJob config job).exec s = (.ok (),
          ({ s with jobs := s.jobs ++ [job] } : Store).saveLaunchConfig (config job)) := by
        rw [exec_createJob, if_neg hj]
      simp only [exec_bind_of_ok hfirst, Store.withJobs_cons]
      rcases ih (({ s with jobs := s.jobs ++ [job] } : Store).saveLaunchConfig (config job)) with
        h | ⟨e, created, hp, h⟩
      · exact Or.inl h
      · refine Or.inr ⟨e, job :: created, List.cons_prefix_cons.mpr ⟨rfl, hp⟩, ?_⟩
        rw [h, Store.withJobs_cons]

/-- A plan is stored as a whole, or up to the first job whose id is taken. -/
theorem persist_cases (stamp : Stamp) (r : LaunchRequest) (plan : LaunchPlan) (res : Resolution)
    (s : Store) : ∃ created, created <+: (records stamp plan).1 ∧
      ((persist stamp r plan res).exec s).2 =
        (s.withWorkflow (records stamp plan).2).withJobs
          (fun job => .capture job.id r.launchType res stamp.now) created ∧
      ∀ outcome s', (persist stamp r plan res).exec s = (.ok outcome, s') →
        outcome.plan = plan ∧ created = (records stamp plan).1 := by
  rw [exec_persist]
  rcases exec_forM_createJob_cases (fun job => .capture job.id r.launchType res stamp.now)
    (records stamp plan).1 (s.withWorkflow (records stamp plan).2) with h | ⟨e, created, hp, h⟩
  · refine ⟨_, List.prefix_rfl, ?_, ?_⟩
    · exact congrArg Prod.snd (exec_bind_of_ok h _)
    · intro outcome s' ho
      cases (exec_bind_of_ok h _).symm.trans ho
      exact ⟨rfl, rfl⟩
  · refine ⟨created, hp, ?_, ?_⟩
    · exact congrArg Prod.snd (exec_bind_of_error h _)
    · intro outcome s' ho
      cases (exec_bind_of_error h _).symm.trans ho

theorem growsTo_persist (stamp : Stamp) (r : LaunchRequest) (plan : LaunchPlan) (res : Resolution)
    (s : Store) : s.GrowsTo ((persist stamp r plan res).exec s).2 := by
  obtain ⟨created, -, h, -⟩ := persist_cases stamp r plan res s
  exact ⟨_, _, created, h⟩

theorem growsTo_launch (config : Config) (stamp : Stamp) (id : Id) (r : LaunchRequest) (s : Store) :
    s.GrowsTo ((launch config stamp id r).exec s).2 := by
  rcases launch_cases config stamp id r s with ⟨e, h⟩ | ⟨t, -, -, -, h⟩
  · rw [h]
    exact s.growsTo_refl
  · rw [h]
    exact growsTo_persist _ _ _ _ s

theorem growsTo_relaunch (config : Config) (stamp : Stamp) (id : Id) (r : RelaunchRequest)
    (s : Store) : s.GrowsTo ((relaunch config stamp id r).exec s).2 := by
  rcases relaunch_cases config stamp id r s with ⟨e, h⟩ | ⟨j, t, limit, -, -, -, -, -, h⟩
  · rw [h]
    exact s.growsTo_refl
  · rw [h]
    exact growsTo_persist _ _ _ _ s

theorem map_id_records (stamp : Stamp) (plan : LaunchPlan) :
    (records stamp plan).1.map (·.id) = (List.range plan.jobCount).map stamp.jobId := by
  cases plan with
  | single spec => rfl
  | system spec => rfl
  | sliced w slices =>
    apply List.ext_getElem?
    intro i
    by_cases h : i < slices.length
    · simp [records, LaunchPlan.jobCount, h, Job.pending]
    · simp [records, LaunchPlan.jobCount, h]

theorem findJob?_of_mem_records {stamp : Stamp} {s : Store} {plan : LaunchPlan} {job : Job}
    (hf : stamp.Fresh s) (hn : plan.jobCount ≤ UInt32.size) (h : job ∈ (records stamp plan).1) :
    s.findJob? job.id = none := by
  have hid : job.id ∈ (List.range plan.jobCount).map stamp.jobId := by
    rw [← map_id_records]
    exact List.mem_map_of_mem h
  obtain ⟨i, hi, he⟩ := List.mem_map.mp hid
  rw [← he]
  exact hf.job i (Nat.lt_of_lt_of_le (List.mem_range.mp hi) hn)

theorem nodup_id_records {stamp : Stamp} {s : Store} {plan : LaunchPlan} (hf : stamp.Fresh s)
    (hn : plan.jobCount ≤ UInt32.size) : ((records stamp plan).1.map (·.id)).Nodup := by
  rw [map_id_records]
  apply List.Nodup.map_on
  · intro i hi j hj
    exact hf.distinct i (Nat.lt_of_lt_of_le (List.mem_range.mp hi) hn) j
      (Nat.lt_of_lt_of_le (List.mem_range.mp hj) hn)
  · exact List.nodup_range

theorem id_ne_of_mem_records {stamp : Stamp} {s : Store} {plan : LaunchPlan} {i j : Job}
    (hf : stamp.Fresh s) (hn : plan.jobCount ≤ UInt32.size) (hi : i ∈ s.jobs)
    (hj : j ∈ (records stamp plan).1) : j.id ≠ i.id := by
  intro he
  exact Store.findJob?_eq_none.mp (findJob?_of_mem_records hf hn hj) i hi he.symm

/-- With fresh ids every record of a plan is stored. -/
theorem exec_persist_of_fresh {stamp : Stamp} {s : Store} {plan : LaunchPlan} (hf : stamp.Fresh s)
    (hn : plan.jobCount ≤ UInt32.size) (r : LaunchRequest) (res : Resolution) :
    (persist stamp r plan res).exec s =
      (.ok ⟨plan, res, (records stamp plan).1, (records stamp plan).2⟩,
        (s.withWorkflow (records stamp plan).2).withJobs
          (fun job => .capture job.id r.launchType res stamp.now) (records stamp plan).1) := by
  rw [exec_persist]
  apply exec_bind_of_ok (exec_forM_createJob (nodup_id_records hf hn) _)
  intro job hj
  have hkept : (s.withWorkflow (records stamp plan).2).findJob? job.id = s.findJob? job.id := by
    rw [Store.findJob?, Store.jobs_withWorkflow]
    rfl
  exact hkept.trans (findJob?_of_mem_records hf hn hj)

end Service

theorem Template.jobCount_plan_le (t : Template) (res : Resolution) (r : LaunchRequest) :
    (t.plan res r).jobCount ≤ UInt32.size := by
  cases t with
  | system t => exact Nat.succ_le_of_lt (by decide)
  | job t =>
    change (t.plan res r).jobCount ≤ _
    rcases t.plan_cases res r with ⟨-, h⟩ | ⟨-, -, h⟩ | ⟨-, -, h⟩
    · rw [h]
      exact Nat.succ_le_of_lt (by decide)
    · rw [h]
      exact Nat.succ_le_of_lt (by decide)
    · rw [h]
      simp only [LaunchPlan.jobCount, List.length_map, Slice.parts, List.length_range]
      exact Nat.le_of_lt (UInt32.toNat_lt_size _)

theorem LaunchPlan.jobCount_limitedTo (plan : LaunchPlan) (limit : Option String) :
    (plan.limitedTo limit).jobCount = plan.jobCount := by
  cases limit with
  | none => rfl
  | some limit =>
    cases plan with
    | single spec => rfl
    | system spec => rfl
    | sliced w slices => exact List.length_map _

end JobLaunch
