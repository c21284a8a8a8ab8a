import JobLaunch.Proofs.JoinedTexts
import JobLaunch.Proofs.RecordedSummaries
import JobLaunch.Proofs.RelaunchChains
/-!
Relaunches on the hosts of a job that have a status. Such a relaunch is limited to the hosts that a
retry lists, by a text of their names with commas between them. A name with a comma in it stands for
its pieces there, and not for the host.
-/
namespace JobLaunch

namespace Service
variable {config : Config} {stamp : Stamp} {s s' : Store} {id : Id} {status : HostStatus}

theorem exec_mapM_retryLimit (id : Id) (status : HostStatus) (s : Store) :
    ((some status).mapM (retryLimit id)).exec s = (if hostsWith id status s = [] then
        .error (.invalidState s!"No hosts with status {word status} to relaunch")
      else .ok (some (",".intercalate (hostsWith id status s))), s) := by
  change (retryLimit id status >>= fun limit => pure (some limit)).exec s = _
  rw [retryLimit, exec_bind, exec_bind, exec_get]
  by_cases hn : hostsWith id status s = []
  · simp only [hn]
    rfl
  · simp only [List.isEmpty_eq_false_iff.mpr hn, if_neg hn]
    rfl

/-- Jobs are refused only for ids that are taken. -/
theorem jobExists_of_exec_forM {create : Job → LaunchConfig} {jobs : List Job} {e : LaunchError}
    (h : (jobs.forM (createJob create)).exec s = (.error e, s')) : ∃ id, e = .jobExists id := by
  induction jobs generalizing s with
  | nil => cases h
  | cons job jobs ih =>
    change ((createJob create job) >>= fun _ => jobs.forM (createJob create)).exec s = _ at h
    rw [exec_bind, exec_createJob] at h
    split at h
    · rename_i hcreated
      split at hcreated
      · cases hcreated
      · exact ih h
    · rename_i hrefused
      split at hrefused
      · cases hrefused
        cases h
        exact ⟨_, rfl⟩
      · cases hrefused

theorem jobExists_of_exec_persist {r : LaunchRequest} {plan : LaunchPlan} {res : Resolution}
    {e : LaunchError} (h : (persist stamp r plan res).exec s = (.error e, s')) :
    ∃ id, e = .jobExists id := by
  rw [exec_persist, exec_bind] at h
  split at h
  · cases h
  · rename_i hrefused
    cases h
    exact jobExists_of_exec_forM hrefused

theorem hostsWith_eq_nil :
    hostsWith id status s = [] ↔ ∀ h ∈ s.summariesOf id, ¬ status.selects h := by
  rw [hostsWith, List.map_eq_nil_iff, List.filter_eq_nil_iff]

theorem ofWord?_word_hostStatus (status : HostStatus) : ofWord? (word status) = some status := by
  cases status <;> decide

variable {job : Job} {t : Template} {passwords : Table String}

section
variable (hj : s.findJob? id = some job) (ht : s.templates[job.templateId]? = some t)
  (hp : (s.configOf job stamp.now).unpromptedFields (.of t) = [])
include hj ht hp

/-- A relaunch that passes the gate selects hosts before it is planned. -/
theorem exec_relaunch_of_passes :
    (relaunch config stamp id ⟨some status, passwords⟩).exec s =
      if hostsWith id status s = [] then
        (.error (.invalidState s!"No hosts with status {word status} to relaunch"), s)
      else (planLaunch config t (replayRequest job (s.configOf job stamp.now) passwords) >>= fun p =>
        persist stamp (replayRequest job (s.configOf job stamp.now) passwords)
          (p.1.withLimit (",".intercalate (hostsWith id status s))) p.2).exec s := by
  rw [relaunch, exec_bind_of_ok (exec_loadJob_eq_ok.mpr ⟨hj, rfl⟩),
    exec_bind_of_ok (exec_loadTemplate_eq_ok.mpr ⟨ht, rfl⟩), exec_bind_of_ok (exec_get s)]
  simp only [hp, List.isEmpty_nil, Bool.not_true, Bool.false_eq_true, if_false,
    Store.id_of_findJob? hj]
  by_cases hn : hostsWith id status s = []
  · have hselect := exec_mapM_retryLimit id status s
    rw [if_pos hn] at hselect ⊢
    exact exec_bind_of_error hselect _
  · have hselect := exec_mapM_retryLimit id status s
    rw [if_neg hn] at hselect ⊢
    rw [exec_bind_of_ok hselect]
    rfl

/-- A relaunch that passes the gate reports an invalid state for the want of hosts only. -/
theorem relaunch_invalidState_iff {reason : String} :
    (relaunch config stamp id ⟨some status, passwords⟩).exec s =
        (.error (.invalidState reason), s') ↔
      hostsWith id status s = [] ∧
        reason = s!"No hosts with status {word status} to relaunch" ∧ s' = s := by
  rw [exec_relaunch_of_passes hj ht hp]
  constructor
  · intro h
    by_cases hn : hostsWith id status s = []
    · rw [if_pos hn] at h
      cases h
      exact ⟨hn, rfl, rfl⟩
    · -- what is refused later is the launch or the id of a job
      rw [if_neg hn, exec_bind, exec_planLaunch] at h
      split at h
      · obtain ⟨id, he⟩ := jobExists_of_exec_persist h
        cases he
      · rename_i hrefused
        cases h
        split at hrefused
        · cases hrefused
        · split at hrefused <;> cases hrefused
  · rintro ⟨hn, rfl, rfl⟩
    rw [if_pos hn]

/-- The limit of every playbook job of a relaunch with a host status names the hosts. -/
theorem limit_of_relaunch {outcome : LaunchOutcome}
    (h : (relaunch config stamp id ⟨some status, passwords⟩).exec s = (.ok outcome, s')) :
    hostsWith id status s ≠ [] ∧ ∀ spec ∈ outcome.plan.jobSpecs,
      spec.options.limit = ",".intercalate (hostsWith id status s) := by
  rw [exec_relaunch_of_passes hj ht hp] at h
  split at h
  · cases h
  rename_i hn
  obtain ⟨p, s₁, -, h⟩ := of_exec_bind_eq_ok h
  refine ⟨hn, fun spec hs => ?_⟩
  rw [of_exec_persist_eq_ok h] at hs
  have hjobs := LaunchPlan.jobSpecs_limitedTo p.1 (some (",".intercalate (hostsWith id status s)))
  rw [LaunchPlan.limitedTo] at hjobs
  rw [hjobs] at hs
  obtain ⟨own, -, rfl⟩ := List.mem_map.mp hs
  rfl

end
end Service

/-- A relaunch with a host status that passes the gate reports an invalid state exactly when no
summary of the job has the status. One that ends well limits each of its playbook jobs to the
pieces, between commas, of the names that a retry lists. These are the names themselves exactly when
none of them has a comma in it. -/
theorem filtered_relaunch_names_pieces (config : Config) (stamp : Stamp) {s : Store} {id : Id}
    {job : Job} {t : Template} (hj : s.findJob? id = some job)
    (ht : s.templates[job.templateId]? = some t)
    (hp : (s.configOf job stamp.now).unpromptedFields (.of t) = []) (status : HostStatus)
    (passwords : Table String) :
    ∃ hosts, (Service.retryHosts id (word status)).exec s = (.ok hosts, s) ∧
      (∀ reason s', (Service.relaunch config stamp id ⟨some status, passwords⟩).exec s =
          (.error (.invalidState reason), s') ↔
        (∀ h ∈ s.summariesOf id, ¬ status.selects h) ∧
          reason = s!"No hosts with status {word status} to relaunch" ∧ s' = s) ∧
      ∀ outcome s', (Service.relaunch config stamp id ⟨some status, passwords⟩).exec s =
          (.ok outcome, s') →
        ∀ spec ∈ outcome.plan.jobSpecs, spec.options.limit = ",".intercalate hosts ∧
          Text.commaSeparated spec.options.limit = hosts.flatMap Text.commaSeparated ∧
          (Text.commaSeparated spec.options.limit = hosts ↔
            ∀ host ∈ hosts, ',' ∉ host.toList) := by
  refine ⟨Service.hostsWith id status s,
    Service.exec_retryHosts (Service.ofWord?_word_hostStatus status) hj, fun reason s' => ?_,
    fun outcome s' h spec hs => ?_⟩
  · rw [Service.relaunch_invalidState_iff hj ht hp, Service.hostsWith_eq_nil]
  obtain ⟨hn, hlimit⟩ := Service.limit_of_relaunch hj ht hp h
  have hpieces := Text.commaSeparated_intercalate hn
  rw [← hlimit spec hs] at hpieces
  refine ⟨hlimit spec hs, hpieces, ?_⟩
  rw [hpieces]
  exact Text.flatMap_commaSeparated_eq_self

def Operation.commaRun : List Operation := [
  .saveTemplate (.job (.sample [])),
  .launch default (.counting 10) ⟨1⟩ {},
  .recordSummary default ⟨11⟩ "web-1,web-2" { failures := 1 }]

/-- The relaunch on the host that failed is limited to two other hosts. -/
theorem limit_names_other_hosts : ∃ outcome s', ∃ spec ∈ outcome.plan.jobSpecs,
    (Service.relaunch default (.counting 20) ⟨11⟩ ⟨some .failed, ∅⟩).exec
      ((∅ : Store).after Operation.commaRun) = (.ok outcome, s') ∧
    (Service.retryHosts ⟨11⟩ "failed").exec ((∅ : Store).after Operation.commaRun) =
      (.ok ["web-1,web-2"], (∅ : Store).after Operation.commaRun) ∧
    Text.commaSeparated spec.options.limit = ["web-1", "web-2"] := by
  obtain ⟨job, hj, ht, hp⟩ : ∃ job,
      ((∅ : Store).after Operation.commaRun).findJob? ⟨11⟩ = some job ∧
      ((∅ : Store).after Operation.commaRun).templates[job.templateId]? =
        some (.job (.sample [])) ∧
      (((∅ : Store).after Operation.commaRun).configOf job
        (Stamp.counting 20).now).unpromptedFields (.of (.job (.sample []))) = [] :=
    ⟨_, rfl, rfl, rfl⟩
  obtain ⟨outcome, s', spec, h, hs⟩ : ∃ outcome s' spec,
      (Service.relaunch default (.counting 20) ⟨11⟩ ⟨some .failed, ∅⟩).exec
        ((∅ : Store).after Operation.commaRun) = (.ok outcome, s') ∧
      spec ∈ outcome.plan.jobSpecs := ⟨_, _, _, rfl, List.mem_singleton_self _⟩
  have hretry : (Service.retryHosts ⟨11⟩ "failed").exec ((∅ : Store).after Operation.commaRun) =
      (.ok ["web-1,web-2"], (∅ : Store).after Operation.commaRun) := rfl
  obtain ⟨hosts, hhosts, -, hlimits⟩ :=
    filtered_relaunch_names_pieces default (.counting 20) hj ht hp .failed ∅
  cases hretry.symm.trans hhosts
  exact ⟨outcome, s', spec, hs, h, hretry, (hlimits outcome s' h spec hs).2.1⟩

end JobLaunch
