import JobLaunch.Proofs.ServiceRuns
/-!
What launches add to the store. Jobs that are there stay as they are, with their configurations;
every new job is one of the plan's, and has its configuration recorded.
-/
namespace JobLaunch

def LaunchConfig.capture (jobId : Id) (launchType : LaunchType) (res : Resolution)
    (now : Timestamp) : LaunchConfig :=
  ⟨jobId, launchType, res.accepted, res.surveyPasswords, now⟩

/-- The second store comes from the first by creating some of given jobs, each with its
configuration. -/
structure Store.Creates (config : Job → LaunchConfig) (jobs : List Job) (s s' : Store) : Prop where
  templates : s'.templates = s.templates
  job_kept : ∀ {id j}, s.findJob? id = some j → s'.findJob? id = some j
  config_kept : ∀ {id j}, s.findJob? id = some j → s'.launchConfigs[id]? = s.launchConfigs[id]?
  created : ∀ {id j}, s.findJob? id = none → s'.findJob? id = some j →
    j ∈ jobs ∧ s'.launchConfigs[id]? = some (config j)

namespace Store
variable {config : Job → LaunchConfig} {jobs : List Job} {s s' s'' : Store}

theorem id_of_findJob? {id : Id} {j : Job} (h : s.findJob? id = some j) : j.id = id := by
  simpa using List.find?_some h

namespace Creates

theorem of_eq (ht : s'.templates = s.templates) (hj : s'.jobs = s.jobs)
    (hc : s'.launchConfigs = s.launchConfigs) : Creates config jobs s s' where
  templates := ht
  job_kept h := by
    rw [findJob?, hj]
    exact h
  config_kept _ := by rw [hc]
  created hn h := by
    rw [findJob?, hj] at h
    rw [findJob?, h] at hn
    cases hn

theorem trans {jobs' : List Job} (h : Creates config jobs s s') (h' : Creates config jobs' s' s'') :
    Creates config (jobs ++ jobs') s s'' where
  templates := h'.templates.trans h.templates
  job_kept hj := h'.job_kept (h.job_kept hj)
  config_kept hj := (h'.config_kept (h.job_kept hj)).trans (h.config_kept hj)
  created {id j} hn hj := by
    cases hm : s'.findJob? id with
    | none =>
      obtain ⟨hmem, hc⟩ := h'.created hm hj
      exact ⟨List.mem_append_right _ hmem, hc⟩
    | some i =>
      -- created by the first step, and kept by the second
      have hi := h'.job_kept hm
      rw [hj, Option.some.injEq] at hi
      subst hi
      obtain ⟨hmem, hc⟩ := h.created hn hm
      exact ⟨List.mem_append_left _ hmem, (h'.config_kept hm).trans hc⟩

end Creates

theorem findJob?_append (s : Store) (j : Job) (id : Id) :
    { s with jobs := s.jobs ++ [j] }.findJob? id =
      (s.findJob? id).or (if j.id = id then some j else none) := by
  simp only [findJob?, List.find?_append, List.find?_singleton, beq_iff_eq]

end Store

namespace Service
variable {config : Job → LaunchConfig}

theorem exec_createJob (config : Job → LaunchConfig) (job : Job) (s : Store) :
    (createJob config job).exec s = if (s.findJob? job.id).isSome then
      (.error (.jobExists job.id), s)
    else (.ok (), ({ s with jobs := s.jobs ++ [job] } : Store).saveLaunchConfig (config job)) := by
  rw [createJob, exec_bind, exec_get]
  by_cases h : (s.findJob? job.id).isSome
  · simp only [Store.createJob?, h, if_true]
    rfl
  · simp only [Store.createJob?, h]
    rfl

theorem creates_createJob {job : Job} (hc : (config job).jobId = job.id) (s : Store) :
    Store.Creates config [job] s ((createJob config job).exec s).2 := by
  rw [exec_createJob]
  split
  · exact .of_eq rfl rfl rfl
  rename_i hn
  have hfresh : s.findJob? job.id = none := by simpa using hn
  have hfind (id : Id) : (({ s with jobs := s.jobs ++ [job] } : Store).saveLaunchConfig
      (config job)).findJob? id = (s.findJob? id).or (if job.id = id then some job else none) :=
    s.findJob?_append job id
  have hrec (id : Id) : (({ s with jobs := s.jobs ++ [job] } : Store).saveLaunchConfig
      (config job)).launchConfigs[id]? =
        if job.id = id then some (config job) else s.launchConfigs[id]? := by
    simp [Store.saveLaunchConfig, hc, Std.ExtTreeMap.getElem?_insert]
  constructor
  · rfl
  · intro id j h
    rw [hfind, h, Option.some_or]
  · intro id j h
    rw [hrec, if_neg]
    rintro rfl
    rw [hfresh] at h
    cases h
  · intro id j hn h
    rw [hfind, hn, Option.none_or] at h
    split at h
    · cases h
      rename_i he
      rw [hrec, if_pos he]
      exact ⟨List.mem_singleton_self _, rfl⟩
    · cases h

theorem creates_forM (hc : ∀ job, (config job).jobId = job.id) (jobs : List Job) (s : Store) :
    Store.Creates config jobs s ((jobs.forM (createJob config)).exec s).2 := by
  induction jobs generalizing s with
  | nil => exact .of_eq rfl rfl rfl
  | cons job jobs ih =>
    have hj := creates_createJob (hc job) s
    change Store.Creates config (job :: jobs) s
      (((createJob config job) >>= fun _ => jobs.forM (createJob config)).exec s).2
    rw [exec_bind]
    cases h : (createJob config job).exec s with
    | mk r s' =>
      rw [h] at hj
      cases r with
      | ok _ => exact hj.trans (ih s')
      | error _ =>
        have hrest : Store.Creates config jobs s' s' := .of_eq rfl rfl rfl
        exact hj.trans hrest

/-- Jobs are created after the workflow above them. -/
theorem exec_persist (stamp : Stamp) (r : LaunchRequest) (plan : LaunchPlan) (res : Resolution)
    (s : Store) : (persist stamp r plan res).exec s =
      (((records stamp plan).1.forM <| createJob fun job =>
          .capture job.id r.launchType res stamp.now) >>= fun _ =>
        pure ⟨plan, res, (records stamp plan).1, (records stamp plan).2⟩ :
          Service LaunchOutcome).exec (((records stamp plan).2.map s.createWorkflow).getD s) := by
  unfold persist
  cases h : records stamp plan with
  | mk jobs workflow =>
    cases workflow with
    | none => rfl
    | some w => exact exec_bind_of_ok (exec_modify _ s) _

theorem creates_persist (stamp : Stamp) (r : LaunchRequest) (plan : LaunchPlan) (res : Resolution)
    (s : Store) : Store.Creates (fun job => .capture job.id r.launchType res stamp.now)
      (records stamp plan).1 s ((persist stamp r plan res).exec s).2 := by
  have hw : Store.Creates (fun job => .capture job.id r.launchType res stamp.now) [] s
      (((records stamp plan).2.map s.createWorkflow).getD s) := by
    cases (records stamp plan).2 <;> exact .of_eq rfl rfl rfl
  have hj := hw.trans (creates_forM (fun _ => rfl) (records stamp plan).1 _)
  rw [exec_persist, exec_bind]
  split
  · rename_i h
    rw [h] at hj
    exact hj
  · rename_i h
    rw [h] at hj
    exact hj

theorem created_of_persist {stamp : Stamp} {r : LaunchRequest} {plan : LaunchPlan}
    {res : Resolution} {s : Store} {j : Job} (hn : s.findJob? j.id = none)
    (hj : ((persist stamp r plan res).exec s).2.findJob? j.id = some j) :
    ((persist stamp r plan res).exec s).2.templates = s.templates ∧ j ∈ (records stamp plan).1 ∧
      ((persist stamp r plan res).exec s).2.launchConfigs[j.id]? =
        some (.capture j.id r.launchType res stamp.now) := by
  have h := creates_persist stamp r plan res s
  exact ⟨h.templates, h.created hn hj⟩

/-- What a launch returns are the records of its plan. -/
theorem of_exec_persist_eq_ok {stamp : Stamp} {r : LaunchRequest} {plan : LaunchPlan}
    {res : Resolution} {s s' : Store} {outcome : LaunchOutcome}
    (h : (persist stamp r plan res).exec s = (.ok outcome, s')) :
    outcome = ⟨plan, res, (records stamp plan).1, (records stamp plan).2⟩ := by
  rw [exec_persist] at h
  obtain ⟨_, _, _, h⟩ := of_exec_bind_eq_ok h
  cases h
  rfl

end Service

/-- The plan with the limit that is given for its playbook jobs, if there is one. -/
def LaunchPlan.limitedTo (plan : LaunchPlan) : Option String → LaunchPlan
  | some limit => plan.withLimit limit
  | none => plan

def LaunchConfig.callbackLimit (c : LaunchConfig) : Option String :=
  if c.launchType = .callback then c.overrides.limit else none

namespace Service
variable {config : Config} {stamp : Stamp} {s s' : Store}

/-- A launch fails with the store as it is, or stores a plan of the template, for which there is
room. -/
theorem launch_cases (config : Config) (stamp : Stamp) (id : Id) (r : LaunchRequest) (s : Store) :
    (∃ e, (launch config stamp id r).exec s = (.error e, s)) ∨
      ∃ t, s.templates[id]? = some t ∧ (t.resolve config.maxForks r).launchable ∧
        t.isBlocked config.scheduleMaxJobs (countActive s.jobs t.id) = false ∧
        (launch config stamp id r).exec s = (persist stamp r
          (t.plan (t.resolve config.maxForks r) r) (t.resolve config.maxForks r)).exec s := by
  unfold launch
  rcases (reads_loadTemplate id).exec_bind_cases _ s with h | ⟨t, ht, h⟩
  · exact Or.inl h
  rw [h]
  rcases (reads_planLaunch config t r).exec_bind_cases _ s with h | ⟨⟨plan, res⟩, hp, h⟩
  · exact Or.inl h
  rw [h]
  obtain ⟨rfl, rfl, hl, hb⟩ := of_exec_planLaunch_eq_ok hp
  exact Or.inr ⟨t, (exec_loadTemplate_eq_ok.mp ht).1, hl, hb, rfl⟩

theorem reads_retryLimit (id : Id) (status : HostStatus) : (retryLimit id status).Reads := by
  refine reads_get.bind fun s => ?_
  simp only []
  split
  · exact (reads_throw _).bind fun _ => reads_pure _
  · exact reads_pure _

theorem reads_mapM_retryLimit (id : Id) (hosts : Option HostStatus) :
    (hosts.mapM (retryLimit id)).Reads := by
  cases hosts with
  | none => exact reads_pure _
  | some status => exact (reads_retryLimit id status).bind fun _ => reads_pure _

/-- A relaunch fails with the store as it is, or stores a plan of the replay of what is recorded of
the job, which has passed the gate and for which there is room. Without a host status only a
callback's limit is put on it. -/
theorem relaunch_cases (config : Config) (stamp : Stamp) (id : Id) (r : RelaunchRequest)
    (s : Store) : (∃ e, (relaunch config stamp id r).exec s = (.error e, s)) ∨
      ∃ job t limit, s.findJob? id = some job ∧ s.templates[job.templateId]? = some t ∧
        (r.hosts = none → limit = (s.configOf job stamp.now).callbackLimit) ∧
        let replay := replayRequest job (s.configOf job stamp.now) r.credentialPasswords
        (t.resolve config.maxForks replay).launchable ∧
        t.isBlocked config.scheduleMaxJobs (countActive s.jobs t.id) = false ∧
        (relaunch config stamp id r).exec s = (persist stamp replay
          ((t.plan (t.resolve config.maxForks replay) replay).limitedTo limit)
          (t.resolve config.maxForks replay)).exec s := by
  unfold relaunch
  rcases (reads_loadJob id).exec_bind_cases _ s with h | ⟨job, hj, h⟩
  · exact Or.inl h
  rw [h]
  rcases (reads_loadTemplate job.templateId).exec_bind_cases _ s with h | ⟨t, ht, h⟩
  · exact Or.inl h
  rw [h, exec_bind, exec_get]
  simp only []
  split
  · exact Or.inl ⟨_, exec_bind_of_error (exec_throw _ s) _⟩
  rcases (reads_mapM_retryLimit job.id r.hosts).exec_bind_cases _ s with h | ⟨retry, hr, h⟩
  · exact Or.inl h
  rw [h]
  rcases (reads_planLaunch config t _).exec_bind_cases _ s with h | ⟨⟨plan, res⟩, hp, h⟩
  · exact Or.inl h
  rw [h]
  obtain ⟨rfl, rfl, hl, hb⟩ := of_exec_planLaunch_eq_ok hp
  refine Or.inr ⟨job, t, retry.or (s.configOf job stamp.now).callbackLimit,
    (exec_loadJob_eq_ok.mp hj).1, (exec_loadTemplate_eq_ok.mp ht).1, fun hn => ?_, hl, hb, ?_⟩
  · rw [hn] at hr
    cases hr
    rfl
  · rfl

end Service
end JobLaunch
