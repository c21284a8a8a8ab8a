import JobLaunch.Proofs.StoredLaunches
import JobLaunch.Proofs.WorkflowSlices
/-!
How the records of a store belong together, and why every change that is made to a store keeps
them together.
-/
namespace JobLaunch

/-- Whether the jobs of a workflow, as they are listed, are its slices from the first to the last,
and equal apart from the slice. -/
def Store.HasSlices (s : Store) (w : WorkflowJob) : Prop :=
  ∃ (spec : JobSpec) (slices : List Slice),
    (s.workflowJobs w.id).map (·.definition) =
      slices.map (fun slice => .playbook { spec with slice }) ∧
    slices.map (·.number.toNat) = List.range' 1 w.spec.sliceCount.toNat ∧
    ∀ slice ∈ slices, slice.count = w.spec.sliceCount

/-- A store whose records belong together. -/
structure Store.Consistent (s : Store) : Prop where
  jobs_distinct : (s.jobs.map (·.id)).Nodup
  config_of_job : ∀ j ∈ s.jobs, ∃ c, s.launchConfigs[j.id]? = some c ∧ c.jobId = j.id ∧
    c.launchType = j.launchType
  job_of_config : ∀ (id : Id) (c : LaunchConfig), s.launchConfigs[id]? = some c →
    ∃ j ∈ s.jobs, j.id = id
  definition : ∀ j ∈ s.jobs, j.templateId = j.definition.templateId ∧
    j.launchType = j.definition.launchType
  workflow_of_job : ∀ j ∈ s.jobs, ∀ id, j.workflowId = some id → ∃ w, s.workflows[id]? = some w
  slices : ∀ (id : Id) (w : WorkflowJob), s.workflows[id]? = some w → w.id = id ∧ s.HasSlices w
  finished : ∀ j ∈ s.jobs, j.finishedAt.isSome = j.status.isFinished
  summary : ∀ (id : Id) (host : String) (h : HostSummary),
    (s.summaryTable id)[host]? = some h → h.jobId = id ∧ h.hostName = host ∧
      (∃ j ∈ s.jobs, j.id = id) ∧ (h.failed ↔ 0 < h.counters.dark ∨ 0 < h.counters.failures)

namespace Store
variable {s s' : Store}

theorem consistent_empty : (∅ : Store).Consistent where
  jobs_distinct := List.nodup_nil
  config_of_job j h := by cases h
  job_of_config id c h := by
    have hn : (∅ : Store).launchConfigs[id]? = none := Std.ExtTreeMap.getElem?_empty
    rw [hn] at h
    cases h
  definition j h := by cases h
  workflow_of_job j h := by cases h
  slices id w h := by
    have hn : (∅ : Store).workflows[id]? = none := Std.ExtTreeMap.getElem?_empty
    rw [hn] at h
    cases h
  finished j h := by cases h
  summary id host h hh := by
    have hn : (∅ : Store).summaryTable id = ∅ := by
      have he : (∅ : Store).summaries[id]? = none := Std.ExtTreeMap.getElem?_empty
      rw [summaryTable, he]
      rfl
    rw [hn, Std.ExtTreeMap.getElem?_empty] at hh
    cases hh

theorem HasSlices.of_eq {w : WorkflowJob} (h : s.HasSlices w)
    (he : s'.workflowDefinitions w.id = s.workflowDefinitions w.id) : s'.HasSlices w := by
  obtain ⟨spec, slices, hspec, hslices⟩ := h
  refine ⟨spec, slices, ?_, hslices⟩
  rw [← hspec, definitions_workflowJobs, definitions_workflowJobs, he]

/-- Templates, organizations and hosts are on their own. -/
theorem Consistent.of_eq (h : s.Consistent) (hj : s'.jobs = s.jobs)
    (hw : s'.workflows = s.workflows) (hc : s'.launchConfigs = s.launchConfigs)
    (hh : s'.summaries = s.summaries) : s'.Consistent := by
  obtain ⟨templates, organizations, jobs, workflows, configs, summaries, hosts⟩ := s
  obtain ⟨templates', organizations', jobs', workflows', configs', summaries', hosts'⟩ := s'
  cases hj
  cases hw
  cases hc
  cases hh
  exact ⟨h.jobs_distinct, h.config_of_job, h.job_of_config, h.definition, h.workflow_of_job,
    h.slices, h.finished, h.summary⟩

theorem workflowDefinitions_of_map {id : Id}
    (h : s'.jobs.map (fun j => (j.workflowId, j.definition)) =
      s.jobs.map fun j => (j.workflowId, j.definition)) :
    s'.workflowDefinitions id = s.workflowDefinitions id := by
  have hs (s : Store) : s.workflowDefinitions id =
      ((s.jobs.map fun j => (j.workflowId, j.definition)).filter fun entry =>
        entry.1 == some id).map (·.2) := by
    rw [List.filter_map, List.map_map]
    rfl
  rw [hs, hs, h]

theorem Consistent.updateStatus? (h : s.Consistent) {id : Id} {status : JobStatus}
    {now : Timestamp} (hs : s.updateStatus? id status now = some s') : s'.Consistent := by
  obtain ⟨jobs, hm, rfl⟩ := Option.map_eq_some_iff.mp hs
  -- a job is in its new status, and otherwise as it was
  have hjobs (P : Job → Prop) (hold : ∀ i ∈ s.jobs, P i) (hnew : ∀ i ∈ s.jobs,
      P { i with status, finishedAt := if status.isFinished then some now else none }) :
      ∀ j ∈ jobs, P j := by
    intro j hj
    rcases mem_of_mem_modifyFirst? hm hj with hi | ⟨i, hi, rfl⟩
    · exact hold j hi
    · exact hnew i hi
  have hids : jobs.map (·.id) = s.jobs.map (·.id) := map_modifyFirst? hm fun _ => rfl
  have hstays {id : Id} (he : ∃ i ∈ s.jobs, i.id = id) : ∃ j ∈ jobs, j.id = id := by
    have hmem : id ∈ s.jobs.map (·.id) := List.mem_map.mpr he
    rw [← hids] at hmem
    exact List.mem_map.mp hmem
  constructor
  · change (jobs.map (·.id)).Nodup
    rw [hids]
    exact h.jobs_distinct
  · exact hjobs _ h.config_of_job h.config_of_job
  · intro id c hc
    exact hstays (h.job_of_config id c hc)
  · exact hjobs _ h.definition h.definition
  · exact hjobs _ h.workflow_of_job h.workflow_of_job
  · intro id w hw
    obtain ⟨hid, hslices⟩ := h.slices id w hw
    refine ⟨hid, hslices.of_eq ?_⟩
    exact workflowDefinitions_of_map (map_modifyFirst? hm fun _ => rfl)
  · apply hjobs _ h.finished
    intro i _
    cases status.isFinished <;> rfl
  · intro id host summary hh
    obtain ⟨hid, hhost, hjob, hfailed⟩ := h.summary id host summary hh
    exact ⟨hid, hhost, hstays hjob, hfailed⟩

theorem summaryTable_putSummary (s : Store) (h : HostSummary) (id : Id) :
    (s.putSummary h).summaryTable id =
      if h.jobId = id then (s.summaryTable id).insert h.hostName h else s.summaryTable id := by
  by_cases he : h.jobId = id
  · subst he
    simp [putSummary, summaryTable]
  · simp [putSummary, summaryTable, he, Std.ExtTreeMap.getElem?_insert]

theorem Consistent.putSummary (hs : s.Consistent) {h : HostSummary}
    (hj : ∃ j ∈ s.jobs, j.id = h.jobId)
    (hf : h.failed ↔ 0 < h.counters.dark ∨ 0 < h.counters.failures) :
    (s.putSummary h).Consistent := by
  refine { hs with summary := ?_ }
  intro id host summary hh
  rw [summaryTable_putSummary] at hh
  split at hh
  · rename_i he
    rw [Std.ExtTreeMap.getElem?_insert] at hh
    split at hh
    · cases hh
      exact ⟨he, Std.compare_eq_iff_eq.mp ‹_›, he ▸ hj, hf⟩
    · exact hs.summary id host summary hh
  · exact hs.summary id host summary hh

section
variable {config : Job → LaunchConfig} {jobs : List Job}

theorem getElem?_withJobs_of_mem (hc : ∀ j, (config j).jobId = j.id)
    (hd : (jobs.map (·.id)).Nodup) {j : Job} (h : j ∈ jobs) :
    (s.withJobs config jobs).launchConfigs[j.id]? = some (config j) := by
  apply Std.ExtTreeMap.getElem?_insertMany_list_of_mem (k := (config j).jobId)
  · rw [hc]
    exact Std.ReflCmp.compare_self
  · apply List.pairwise_map.mpr
    apply (List.pairwise_map.mp hd).imp
    intro a b hne he
    rw [Std.compare_eq_iff_eq, hc, hc] at he
    exact hne he
  · exact List.mem_map.mpr ⟨j, h, rfl⟩

theorem getElem?_withJobs_of_ne (hc : ∀ j, (config j).jobId = j.id) {id : Id}
    (h : ∀ j ∈ jobs, j.id ≠ id) :
    (s.withJobs config jobs).launchConfigs[id]? = s.launchConfigs[id]? := by
  apply Std.ExtTreeMap.getElem?_insertMany_list_of_contains_eq_false
  simpa [hc] using h

end

theorem getElem?_withWorkflow (s : Store) (w : Option WorkflowJob) (id : Id) :
    (s.withWorkflow w).workflows[id]? =
      (w.filter fun w => w.id = id).or s.workflows[id]? := by
  cases w with
  | none => rfl
  | some w =>
    rw [Option.filter_some]
    by_cases he : w.id = id
    · simp [withWorkflow, createWorkflow, he]
    · simp [withWorkflow, createWorkflow, he, Std.ExtTreeMap.getElem?_insert]

/-- No job is below a workflow that is not there. -/
theorem Consistent.workflowDefinitions_eq_nil (h : s.Consistent) {id : Id}
    (hn : s.workflows[id]? = none) : s.workflowDefinitions id = [] := by
  apply List.map_eq_nil_iff.mpr
  apply List.filter_eq_nil_iff.mpr
  intro j hj he
  obtain ⟨w, hw⟩ := h.workflow_of_job j hj id (eq_of_beq he)
  rw [hn] at hw
  cases hw

section
variable {stamp : Stamp} {plan : LaunchPlan} {type : LaunchType} {config : Job → LaunchConfig}

def withRecords (s : Store) (stamp : Stamp) (plan : LaunchPlan) (config : Job → LaunchConfig) :
    Store :=
  (s.withWorkflow (Service.records stamp plan).2).withJobs config (Service.records stamp plan).1

theorem jobs_withRecords (s : Store) (stamp : Stamp) (plan : LaunchPlan)
    (config : Job → LaunchConfig) :
    (s.withRecords stamp plan config).jobs = s.jobs ++ (Service.records stamp plan).1 := by
  simp [withRecords, withJobs]

theorem mem_jobs_withRecords {j : Job} : j ∈ (s.withRecords stamp plan config).jobs ↔
    j ∈ s.jobs ∨ j ∈ (Service.records stamp plan).1 := by
  rw [jobs_withRecords, List.mem_append]

theorem summaryTable_withRecords (s : Store) (stamp : Stamp) (plan : LaunchPlan)
    (config : Job → LaunchConfig) (id : Id) :
    (s.withRecords stamp plan config).summaryTable id = s.summaryTable id := by
  simp [summaryTable, withRecords, withJobs]

theorem workflow_withRecords (s : Store) (stamp : Stamp) (plan : LaunchPlan)
    (config : Job → LaunchConfig) (id : Id) : (s.withRecords stamp plan config).workflows[id]? =
      ((Service.records stamp plan).2.filter fun w => w.id = id).or s.workflows[id]? :=
  s.getElem?_withWorkflow _ id

theorem workflowDefinitions_withRecords (s : Store) (stamp : Stamp) (plan : LaunchPlan)
    (config : Job → LaunchConfig) (id : Id) :
    (s.withRecords stamp plan config).workflowDefinitions id = s.workflowDefinitions id ++
      if (Service.records stamp plan).2.map (·.id) = some id then
        (Service.records stamp plan).1.map (·.definition) else [] := by
  rw [workflowDefinitions, jobs_withRecords, List.filter_append, List.map_append]
  congr 1
  -- all jobs of a plan are below the same workflow
  split
  · rename_i he
    congr 1
    apply List.filter_eq_self.mpr
    intro j hj
    obtain ⟨i, hi⟩ := Service.of_mem_records hj
    rw [hi, ← he]
    exact beq_self_eq_true _
  · rename_i hne
    apply List.map_eq_nil_iff.mpr
    apply List.filter_eq_nil_iff.mpr
    intro j hj he
    obtain ⟨i, hi⟩ := Service.of_mem_records hj
    rw [hi] at he
    exact hne (eq_of_beq he)

/-- The jobs of a plan are those of its workflow, so every workflow has the jobs it should have. -/
theorem Consistent.slices_withRecords (h : s.Consistent) (hf : stamp.Fresh s)
    (hp : plan.LaunchedAs type) {id : Id} {w : WorkflowJob}
    (hw : (s.withRecords stamp plan config).workflows[id]? = some w) :
    w.id = id ∧ (s.withRecords stamp plan config).HasSlices w := by
  rw [workflow_withRecords] at hw
  by_cases hnew : (Service.records stamp plan).2.map (·.id) = some id
  · obtain ⟨v, hv, hvid⟩ := Option.map_eq_some_iff.mp hnew
    obtain ⟨hstamp, spec, hspec⟩ := Service.of_workflow_records hp hv
    have hvw : v = w := by simpa [hv, hvid, Option.filter_some] using hw
    have hid : id = stamp.workflowId := hvid.symm.trans hstamp
    subst hvw
    refine ⟨hvid, spec, _, definitions_workflowJobs_of_parts ?_, Slice.numbers_parts _,
      fun _ => Slice.count_of_mem_parts⟩
    rw [workflowDefinitions_withRecords, hvid, if_pos hnew, hspec,
      h.workflowDefinitions_eq_nil (hid ▸ hf.workflow), List.nil_append]
  · have hn : (Service.records stamp plan).2.filter (fun w => w.id = id) = none := by
      apply Option.filter_eq_none_iff.mpr
      intro v hv he
      apply hnew
      rw [hv, Option.map_some, of_decide_eq_true he]
    rw [hn, Option.none_or] at hw
    obtain ⟨hid, hslices⟩ := h.slices id w hw
    refine ⟨hid, hslices.of_eq ?_⟩
    rw [workflowDefinitions_withRecords, hid, if_neg hnew, List.append_nil]

theorem Consistent.nodup_withRecords (h : s.Consistent) (hf : stamp.Fresh s)
    (hn : plan.jobCount ≤ UInt32.size) :
    ((s.withRecords stamp plan config).jobs.map (·.id)).Nodup := by
  rw [jobs_withRecords, List.map_append, List.nodup_append]
  refine ⟨h.jobs_distinct, Service.nodup_id_records hf hn, ?_⟩
  intro a ha b hb
  obtain ⟨i, hi, rfl⟩ := List.mem_map.mp ha
  obtain ⟨j, hj, rfl⟩ := List.mem_map.mp hb
  exact (Service.id_ne_of_mem_records hf hn hi hj).symm

theorem Consistent.config_withRecords (h : s.Consistent) (hf : stamp.Fresh s)
    (hn : plan.jobCount ≤ UInt32.size) (hp : plan.LaunchedAs type)
    (hc : ∀ j, (config j).jobId = j.id) (ht : ∀ j, (config j).launchType = type) {j : Job}
    (hj : j ∈ (s.withRecords stamp plan config).jobs) :
    ∃ c, (s.withRecords stamp plan config).launchConfigs[j.id]? = some c ∧ c.jobId = j.id ∧
      c.launchType = j.launchType := by
  rcases mem_jobs_withRecords.mp hj with hj | hj
  · have hne : ∀ k ∈ (Service.records stamp plan).1, k.id ≠ j.id := by
      intro k hk
      exact Service.id_ne_of_mem_records hf hn hj hk
    rw [Store.withRecords, getElem?_withJobs_of_ne hc hne, launchConfigs_withWorkflow]
    exact h.config_of_job j hj
  · rw [Store.withRecords, getElem?_withJobs_of_mem hc (Service.nodup_id_records hf hn) hj]
    refine ⟨_, rfl, hc j, ?_⟩
    rw [ht, Service.launchType_of_mem_records hp hj]

theorem Consistent.job_of_config_withRecords (h : s.Consistent)
    (hc : ∀ j, (config j).jobId = j.id) {id : Id} {c : LaunchConfig}
    (hid : (s.withRecords stamp plan config).launchConfigs[id]? = some c) :
    ∃ j ∈ (s.withRecords stamp plan config).jobs, j.id = id := by
  by_cases hmem : ∃ j ∈ (Service.records stamp plan).1, j.id = id
  · obtain ⟨j, hj, he⟩ := hmem
    exact ⟨j, mem_jobs_withRecords.mpr (Or.inr hj), he⟩
  · rw [Store.withRecords, getElem?_withJobs_of_ne hc (by simpa using hmem),
      launchConfigs_withWorkflow] at hid
    obtain ⟨j, hj, he⟩ := h.job_of_config id c hid
    exact ⟨j, mem_jobs_withRecords.mpr (Or.inl hj), he⟩

theorem Consistent.workflow_of_job_withRecords (h : s.Consistent) {j : Job}
    (hj : j ∈ (s.withRecords stamp plan config).jobs) {id : Id} (hid : j.workflowId = some id) :
    ∃ w, (s.withRecords stamp plan config).workflows[id]? = some w := by
  rw [workflow_withRecords]
  rcases mem_jobs_withRecords.mp hj with hj | hj
  · obtain ⟨w, hw⟩ := h.workflow_of_job j hj id hid
    rw [hw]
    apply Option.isSome_iff_exists.mp
    simp
  · obtain ⟨i, he⟩ := Service.of_mem_records hj
    rw [he] at hid
    obtain ⟨v, hv, hvid⟩ := Option.map_eq_some_iff.mp hid
    rw [hv, Option.filter_some, if_pos (decide_eq_true hvid)]
    exact ⟨v, rfl⟩

theorem Consistent.withRecords (h : s.Consistent) (hf : stamp.Fresh s)
    (hn : plan.jobCount ≤ UInt32.size) (hp : plan.LaunchedAs type)
    (hc : ∀ j, (config j).jobId = j.id) (ht : ∀ j, (config j).launchType = type) :
    (s.withRecords stamp plan config).Consistent where
  jobs_distinct := h.nodup_withRecords hf hn
  config_of_job _ hj := h.config_withRecords hf hn hp hc ht hj
  job_of_config _ _ hid := h.job_of_config_withRecords hc hid
  definition j hj := by
    rcases mem_jobs_withRecords.mp hj with hj | hj
    · exact h.definition j hj
    · obtain ⟨i, he⟩ := Service.of_mem_records hj
      rw [he]
      exact ⟨rfl, rfl⟩
  workflow_of_job _ hj _ hid := h.workflow_of_job_withRecords hj hid
  slices _ _ hw := h.slices_withRecords hf hp hw
  finished j hj := by
    rcases mem_jobs_withRecords.mp hj with hj | hj
    · exact h.finished j hj
    · obtain ⟨i, he⟩ := Service.of_mem_records hj
      rw [he]
      rfl
  summary id host summary hh := by
    rw [summaryTable_withRecords] at hh
    obtain ⟨hid, hhost, ⟨j, hj, he⟩, hfailed⟩ := h.summary id host summary hh
    exact ⟨hid, hhost, ⟨j, mem_jobs_withRecords.mpr (Or.inl hj), he⟩, hfailed⟩

end

end Store
end JobLaunch
