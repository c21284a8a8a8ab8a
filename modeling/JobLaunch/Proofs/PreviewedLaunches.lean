import JobLaunch.CommandLine.Run
import JobLaunch.Proofs.FailedServices
import JobLaunch.Proofs.RelaunchChains
import JobLaunch.Proofs.StoreConsistency
import JobLaunch.Proofs.TaskImpact
/-!
Previews and launches. A launch does what its preview says: it needs room for one more job and a
preview without problems, and then it stores the jobs that are planned from the preview. On the
command line a plan is launched in a store of its own, where there is room, so there the preview
alone decides what is launched. It is printed as a whole unless a job has no impact to print.
-/
namespace JobLaunch

/-- Whether there is room for one more launch of a template: only job templates need any. -/
def Template.Admitted (t : Template) (config : Config) (s : Store) : Prop :=
  t.kind = .system ∨ countActive s.jobs t.id < config.scheduleMaxJobs.toNat

theorem Template.isBlocked_eq_false_iff {t : Template} {config : Config} {s : Store} :
    t.isBlocked config.scheduleMaxJobs (countActive s.jobs t.id) = false ↔ t.Admitted config s := by
  cases t with
  | job t => simp [isBlocked, Admitted, kind]
  | system t => simp [isBlocked, Admitted, kind]

/-- Whether the jobs of an outcome are what a store has beyond another one. They are those of the
plan, in its order; none has started, and the accepted overrides are on record for each. -/
structure LaunchOutcome.StoredBetween (outcome : LaunchOutcome) (s s' : Store) : Prop where
  jobs : s'.jobs = s.jobs ++ outcome.jobs
  definitions : outcome.jobs.map (·.definition) = outcome.plan.definitions
  pending : ∀ j ∈ outcome.jobs, j.status = .pending
  recorded : ∀ j ∈ outcome.jobs, ∃ c, s'.launchConfigs[j.id]? = some c ∧ c.jobId = j.id ∧
    c.overrides = outcome.resolution.accepted

theorem Store.getElem?_saveTemplate (s : Store) (t : Template) :
    (s.saveTemplate t).templates[t.id]? = some t := by
  simp [saveTemplate]

namespace Service
variable {config : Config} {stamp : Stamp} {id : Id} {r : LaunchRequest} {s s' : Store}
  {t : Template}

theorem exec_preview (config : Config) (r : LaunchRequest) (ht : s.templates[id]? = some t) :
    (preview config id r).exec s = (.ok (t.resolve config.maxForks r), s) :=
  exec_bind_of_ok (exec_loadTemplate_eq_ok.mpr ⟨ht, rfl⟩) _

def created (stamp : Stamp) (t : Template) (res : Resolution) (r : LaunchRequest) : LaunchOutcome :=
  ⟨t.plan res r, res, (records stamp (t.plan res r)).1, (records stamp (t.plan res r)).2⟩

def storeAfter (stamp : Stamp) (t : Template) (res : Resolution) (r : LaunchRequest) (s : Store) :
    Store :=
  s.withRecords stamp (t.plan res r) fun job => .capture job.id r.launchType res stamp.now

theorem storedBetween_created (hf : stamp.Fresh s) (t : Template) (res : Resolution)
    (r : LaunchRequest) :
    (created stamp t res r).StoredBetween s (storeAfter stamp t res r s) where
  jobs := s.jobs_withRecords stamp _ _
  definitions := definitions_records stamp _
  pending j hj := by
    obtain ⟨i, hi⟩ := of_mem_records hj
    rw [hi]
    rfl
  recorded j hj := by
    refine ⟨_, Store.getElem?_withJobs_of_mem (fun _ => rfl) ?_ hj, rfl, rfl⟩
    exact nodup_id_records hf (t.jobCount_plan_le res r)

section
variable (hf : stamp.Fresh s) (ht : s.templates[id]? = some t) (ha : t.Admitted config s)
include hf ht ha

theorem exec_launch_of_launchable (hl : (t.resolve config.maxForks r).launchable) :
    (launch config stamp id r).exec s = (.ok (created stamp t (t.resolve config.maxForks r) r),
      storeAfter stamp t (t.resolve config.maxForks r) r s) := by
  have hp := exec_planLaunch config t r s
  rw [Template.isBlocked_eq_false_iff.mpr ha, if_neg Bool.false_ne_true, if_pos hl] at hp
  rw [launch, exec_bind_of_ok (exec_loadTemplate_eq_ok.mpr ⟨ht, rfl⟩), exec_bind_of_ok hp]
  exact exec_persist_of_fresh hf (t.jobCount_plan_le _ r) r _

omit hf in
theorem exec_launch_of_not_launchable (hl : (t.resolve config.maxForks r).launchable = false) :
    (launch config stamp id r).exec s =
      (.error (.rejected (t.resolve config.maxForks r).errors), s) := by
  have hp := exec_planLaunch config t r s
  rw [Template.isBlocked_eq_false_iff.mpr ha, if_neg Bool.false_ne_true, hl,
    if_neg Bool.false_ne_true] at hp
  rw [launch, exec_bind_of_ok (exec_loadTemplate_eq_ok.mpr ⟨ht, rfl⟩)]
  exact exec_bind_of_error hp _

end

/-- What a launch has passed when it succeeds, and what it has created. -/
theorem of_exec_launch_eq_ok (hf : stamp.Fresh s) {outcome : LaunchOutcome}
    (h : (launch config stamp id r).exec s = (.ok outcome, s')) :
    ∃ t, s.templates[id]? = some t ∧ t.Admitted config s ∧
      (t.resolve config.maxForks r).launchable ∧
      outcome = created stamp t (t.resolve config.maxForks r) r ∧
      s' = storeAfter stamp t (t.resolve config.maxForks r) r s := by
  obtain ⟨t, s₁, hload, hrest⟩ := of_exec_bind_eq_ok h
  obtain ⟨ht, rfl⟩ := exec_loadTemplate_eq_ok.mp hload
  obtain ⟨⟨plan, res⟩, s₂, hp, -⟩ := of_exec_bind_eq_ok hrest
  obtain ⟨rfl, -, hl, hb⟩ := of_exec_planLaunch_eq_ok hp
  have ha : t.Admitted config s := Template.isBlocked_eq_false_iff.mp hb
  rw [exec_launch_of_launchable hf ht ha hl] at h
  cases h
  exact ⟨t, ht, ha, hl, rfl, rfl⟩

/-- Whether a launch does what its preview says. -/
structure FollowsPreview (config : Config) (stamp : Stamp) (id : Id) (r : LaunchRequest)
    (s : Store) : Prop where
  succeeds : (∃ outcome s', (launch config stamp id r).exec s = (.ok outcome, s')) ↔
    ∃ t, s.templates[id]? = some t ∧ t.Admitted config s ∧
      ∃ res, (preview config id r).exec s = (.ok res, s) ∧ res.launchable
  rejected : ∀ t res, s.templates[id]? = some t → t.Admitted config s →
    (preview config id r).exec s = (.ok res, s) → res.launchable = false →
    (launch config stamp id r).exec s = (.error (.rejected res.errors), s)
  stored : ∀ outcome s', (launch config stamp id r).exec s = (.ok outcome, s') →
    (preview config id r).exec s = (.ok outcome.resolution, s) ∧
    (∃ t, s.templates[id]? = some t ∧ outcome.plan = t.plan outcome.resolution r) ∧
    outcome.StoredBetween s s'

theorem followsPreview (hf : stamp.Fresh s) : FollowsPreview config stamp id r s where
  succeeds := by
    constructor
    · rintro ⟨outcome, s', h⟩
      obtain ⟨t, ht, ha, hl, -⟩ := of_exec_launch_eq_ok hf h
      exact ⟨t, ht, ha, _, exec_preview config r ht, hl⟩
    · rintro ⟨t, ht, ha, res, hp, hl⟩
      rw [exec_preview config r ht] at hp
      cases hp
      exact ⟨_, _, exec_launch_of_launchable hf ht ha hl⟩
  rejected t res ht ha hp hl := by
    rw [exec_preview config r ht] at hp
    cases hp
    exact exec_launch_of_not_launchable ht ha hl
  stored outcome s' h := by
    obtain ⟨t, ht, -, -, rfl, rfl⟩ := of_exec_launch_eq_ok hf h
    exact ⟨exec_preview config r ht, ⟨t, ht, rfl⟩, storedBetween_created hf t _ r⟩

end Service

theorem LaunchPlan.filterMap_definitions (plan : LaunchPlan) :
    plan.definitions.filterMap (·.asPlaybook?) = plan.jobSpecs := by
  cases plan <;> simp [definitions, jobSpecs, JobDefinition.asPlaybook?]

theorem Service.filterMap_spec?_records (stamp : Stamp) (plan : LaunchPlan) :
    (records stamp plan).1.filterMap Job.spec? = plan.jobSpecs := by
  rw [← plan.filterMap_definitions, ← definitions_records stamp plan, List.filterMap_map]
  rfl

namespace Report
variable {template : Option JobTemplate} {global : List Id}

theorem isOk_mapError {ε ε' α : Type} (f : ε → ε') (x : Except ε α) :
    (x.mapError f).isOk = x.isOk := by
  cases x <;> rfl

theorem isOk_after (before : List String) (p : Printed) : (p.after before).isOk = p.isOk := by
  cases p <;> rfl

/-- Reports in turn break off where one of them does. -/
theorem isOk_inTurn (ps : List Printed) : (inTurn ps).isOk = ps.all (·.isOk) := by
  induction ps with
  | nil => rfl
  | cons p ps ih =>
    cases p with
    | error printed => rfl
    | ok printed =>
      rw [inTurn, isOk_after, ih]
      rfl

theorem isOk_job (j : Job) :
    (job j template global).isOk ↔ ∀ spec, j.spec? = some spec → ¬ spec.Overflows := by
  cases hs : j.spec? with
  | none => simp only [job, hs, Except.isOk, Except.toBool, reduceCtorEq, false_implies,
      implies_true]
  | some spec =>
    simp only [Option.some.injEq, forall_eq', ← JobSpec.taskImpact?_eq_none_iff]
    cases hi : spec.taskImpact? <;>
      simp only [job, hs, hi, Except.isOk, Except.toBool, reduceCtorEq, not_true, not_false_eq_true]

theorem isOk_launch (t : Template) (outcome : LaunchOutcome) :
    (launch t outcome global).isOk ↔
      ∀ spec ∈ outcome.jobs.filterMap Job.spec?, ¬ spec.Overflows := by
  have hlines (p : Printed) : (p.map lines).isOk = p.isOk := by cases p <;> rfl
  have hclosing : (Except.ok (notifications (t.notificationsWith none)) : Printed).isOk := rfl
  rw [launch, isOk_mapError, hlines, isOk_after, isOk_inTurn, List.all_append, List.all_map,
    List.all_cons, hclosing, List.all_nil, Bool.and_self, Bool.and_true, List.all_eq_true]
  simp only [Function.comp_apply, isOk_job, List.mem_filterMap]
  constructor
  · rintro h spec ⟨j, hj, hs⟩
    exact h j hj spec hs
  · exact fun h j hj spec hs => h spec ⟨j, hj, hs⟩

end Report

namespace Invocation
variable {i : Invocation} {files : Files} {stamp : Stamp} {path : String}
  {request : Option String} {config : Config} {t : Template} {r : LaunchRequest}

def resolving (i : Invocation) (path : String) (request : Option String) : Invocation :=
  { i with command := .resolve path request }

def planning (i : Invocation) (path : String) (request : Option String) : Invocation :=
  { i with command := .plan path request }

def resolutionReport (i : Invocation) (res : Resolution) : String :=
  if i.json then Report.json (encode res) else Report.resolution res

def launchReport (i : Invocation) (config : Config) (t : Template) (outcome : LaunchOutcome) :
    Except CommandError String :=
  if i.json then .ok (Report.json (encode outcome.plan))
  else (Report.launch t outcome config.globalInstanceGroups).mapError .overflow

theorem isOk_launchReport (i : Invocation) (config : Config) (t : Template)
    (outcome : LaunchOutcome) : (i.launchReport config t outcome).isOk ↔
      i.json ∨ ∀ spec ∈ outcome.jobs.filterMap Job.spec?, ¬ spec.Overflows := by
  rw [launchReport, ← Report.isOk_launch]
  cases i.json with
  | true => exact iff_of_true rfl (.inl rfl)
  | false =>
    rw [if_neg Bool.false_ne_true, Report.isOk_mapError]
    exact (or_iff_right Bool.false_ne_true).symm

theorem launchReport_of_breaksOff (hj : i.json = false) {outcome : LaunchOutcome}
    (h : ∃ spec ∈ outcome.jobs.filterMap Job.spec?, spec.Overflows) :
    ∃ printed, i.launchReport config t outcome = .error (.overflow printed) := by
  have hbroken : ¬ (Report.launch t outcome config.globalInstanceGroups).isOk := by
    obtain ⟨spec, hmem, ho⟩ := h
    exact fun hok => (Report.isOk_launch t outcome).mp hok spec hmem ho
  rw [launchReport, hj, if_neg Bool.false_ne_true]
  cases hl : Report.launch t outcome config.globalInstanceGroups with
  | error printed => exact ⟨printed, rfl⟩
  | ok report => exact absurd (hl ▸ rfl) hbroken

/-- Whether two commands with the same settings agree about a request. With settings that are not
valid both fail. Otherwise one reports the resolution. The other reports the jobs that are planned
from it when it is launchable, though as lines of text it breaks off at a job without an impact, and
else it fails with the errors of the resolution. -/
structure PlansWhatResolves (i : Invocation) (files : Files) (stamp : Stamp) (path : String)
    (request : Option String) (t : Template) (r : LaunchRequest) : Prop where
  invalid : ∀ e, i.config = .error e → (i.resolving path request).run files stamp = .error e ∧
    (i.planning path request).run files stamp = .error e
  resolves : ∀ config, i.config = .ok config → (i.resolving path request).run files stamp =
    .ok (i.resolutionReport (t.resolve i.maxForks r))
  agree : (∃ report, (i.planning path request).run files stamp = .ok report) ↔
    (∃ config, i.config = .ok config) ∧ (t.resolve i.maxForks r).launchable ∧
      (i.json ∨ ∀ spec ∈ (t.plan (t.resolve i.maxForks r) r).jobSpecs, ¬ spec.Overflows)
  plans : ∀ config, i.config = .ok config → (t.resolve i.maxForks r).launchable →
    ∃ outcome, outcome.resolution = t.resolve i.maxForks r ∧
      outcome.plan = t.plan (t.resolve i.maxForks r) r ∧
      outcome.jobs.map (·.definition) = outcome.plan.definitions ∧
      (i.planning path request).run files stamp = i.launchReport config t outcome
  breaksOff : ∀ config, i.config = .ok config → (t.resolve i.maxForks r).launchable →
    i.json = false → (∃ spec ∈ (t.plan (t.resolve i.maxForks r) r).jobSpecs, spec.Overflows) →
    ∃ printed, (i.planning path request).run files stamp = .error (.overflow printed)
  rejects : ∀ config, i.config = .ok config → (t.resolve i.maxForks r).launchable = false →
    (i.planning path request).run files stamp =
      .error (.launch (.rejected (t.resolve i.maxForks r).errors))

theorem of_config_eq_ok (h : i.config = .ok config) :
    config.maxForks = i.maxForks ∧ 0 < config.scheduleMaxJobs.toNat := by
  unfold Invocation.config at h
  cases hg : (parseIdList i.instanceGroups).mapError CommandError.config with
  | error e =>
    rw [hg] at h
    cases h
  | ok groups =>
    rw [hg] at h
    simp only [bind, Except.bind] at h
    split at h
    · cases h
    · rename_i hv
      cases h
      refine ⟨rfl, Nat.pos_of_ne_zero fun hn => ?_⟩
      have hz : i.scheduleMaxJobs = 0 := UInt64.toNat_inj.mp hn
      simp [Config.invalid?, hz] at hv

section
variable (ht : files.load path = .ok t) (hr : files.loadOr {} request = .ok r)
  (hc : i.config = .ok config)
include ht hr hc

theorem run_resolving : (i.resolving path request).run files stamp =
    .ok (i.resolutionReport (t.resolve i.maxForks r)) := by
  have hc' : (i.resolving path request).config = .ok config := hc
  have hs : serve t (Service.preview config t.id r) = .ok (t.resolve config.maxForks r) := by
    have hp := Service.exec_preview config r ((∅ : Store).getElem?_saveTemplate t)
    exact congrArg (fun x => x.1.mapError CommandError.launch) hp
  rw [run, hc']
  simp only [resolving, bind, Except.bind, ht, hr, hs]
  rw [(of_config_eq_ok hc).1]
  rfl

theorem run_planning {result : Except LaunchError LaunchOutcome}
    (hl : ((Service.launch config stamp t.id r).exec ((∅ : Store).saveTemplate t)).1 = result) :
    (i.planning path request).run files stamp =
      (result.mapError .launch).bind (i.launchReport config t) := by
  have hc' : (i.planning path request).config = .ok config := hc
  have hs : serve t (Service.launch config stamp t.id r) = result.mapError .launch :=
    congrArg (fun x => x.mapError CommandError.launch) hl
  rw [run, hc']
  simp only [planning, bind, Except.bind, ht, hr, hs, launchReport]
  cases result <;> rfl

end

/-- The settings are checked before any file is read. -/
theorem run_of_config_eq_error {e : CommandError} (h : i.config = .error e) :
    i.run files stamp = .error e := by
  rw [run, h]
  rfl

/-- A store of one template has room for a launch of it. -/
theorem admitted_saveTemplate (hc : i.config = .ok config) (t : Template) :
    t.Admitted config ((∅ : Store).saveTemplate t) :=
  Or.inr (of_config_eq_ok hc).2

section
variable (ht : files.load path = .ok t) (hr : files.loadOr {} request = .ok r)
  (hf : stamp.Fresh ((∅ : Store).saveTemplate t)) (hc : i.config = .ok config)
include ht hr hf hc

theorem run_planning_of_launchable (hl : (t.resolve i.maxForks r).launchable) :
    (i.planning path request).run files stamp = i.launchReport config t
      (Service.created stamp t (t.resolve i.maxForks r) r) := by
  rw [← (of_config_eq_ok hc).1] at hl ⊢
  exact run_planning ht hr hc (congrArg Prod.fst (Service.exec_launch_of_launchable hf
    ((∅ : Store).getElem?_saveTemplate t) (admitted_saveTemplate hc t) hl))

omit hf in
theorem run_planning_of_not_launchable (hl : (t.resolve i.maxForks r).launchable = false) :
    (i.planning path request).run files stamp =
      .error (.launch (.rejected (t.resolve i.maxForks r).errors)) := by
  rw [← (of_config_eq_ok hc).1] at hl ⊢
  exact run_planning ht hr hc (congrArg Prod.fst (Service.exec_launch_of_not_launchable
    ((∅ : Store).getElem?_saveTemplate t) (admitted_saveTemplate hc t) hl))

end

theorem plansWhatResolves (ht : files.load path = .ok t) (hr : files.loadOr {} request = .ok r)
    (hf : stamp.Fresh ((∅ : Store).saveTemplate t)) :
    i.PlansWhatResolves files stamp path request t r := by
  have hok {ε α : Type} (x : Except ε α) : (∃ a, x = .ok a) ↔ x.isOk := by
    cases x <;> simp [Except.isOk, Except.toBool]
  have hspecs : (Service.created stamp t (t.resolve i.maxForks r) r).jobs.filterMap Job.spec? =
      (t.plan (t.resolve i.maxForks r) r).jobSpecs := Service.filterMap_spec?_records stamp _
  constructor
  · exact fun e he => ⟨run_of_config_eq_error he, run_of_config_eq_error he⟩
  · exact fun config hc => run_resolving ht hr hc
  · cases hc : i.config with
    | error e =>
      have he : (i.planning path request).run files stamp = .error e := run_of_config_eq_error hc
      rw [he]
      exact iff_of_false nofun nofun
    | ok config =>
      cases hl : (t.resolve i.maxForks r).launchable with
      | false =>
        rw [run_planning_of_not_launchable ht hr hc hl]
        exact iff_of_false nofun fun h => nomatch h.2.1
      | true =>
        rw [run_planning_of_launchable ht hr hf hc hl, hok, isOk_launchReport, hspecs]
        exact ⟨fun h => ⟨⟨config, rfl⟩, rfl, h⟩, fun h => h.2.2⟩
  · exact fun config hc hl => ⟨_, rfl, rfl, Service.definitions_records stamp _,
      run_planning_of_launchable ht hr hf hc hl⟩
  · intro config hc hl hj h
    rw [run_planning_of_launchable ht hr hf hc hl]
    exact launchReport_of_breaksOff hj (hspecs ▸ h)
  · exact fun config hc hl => run_planning_of_not_launchable ht hr hc hl

end Invocation

/-- A launch with fresh ids succeeds exactly when its template is there and has room and its preview
is launchable; it stores the jobs that are planned from the preview, or fails with the preview's
errors. So a request is planned on the command line exactly when it resolves to something
launchable with the same settings and no job of the plan is without an impact; without one, the plan
can be printed as JSON only. -/
theorem launches_follow_previews (stamp : Stamp) (r : LaunchRequest) :
    (∀ config id s, stamp.Fresh s → Service.FollowsPreview config stamp id r s) ∧
    ∀ (i : Invocation) (files : Files) (path : String) (request : Option String) (t : Template),
      files.load path = .ok t → files.loadOr {} request = .ok r →
      stamp.Fresh ((∅ : Store).saveTemplate t) → i.PlansWhatResolves files stamp path request t r :=
  ⟨fun _ _ _ hf => Service.followsPreview hf,
    fun _ _ _ _ _ ht hr hf => Invocation.plansWhatResolves ht hr hf⟩

theorem Stamp.fresh_counting_saveTemplate (t : Template) :
    (Stamp.counting 10).Fresh ((∅ : Store).saveTemplate t) :=
  fresh_counting (by decide) Std.ExtTreeMap.getElem?_empty (by intro j hj; cases hj)

/-- A template of two slices of the largest inventory there is. -/
def JobTemplate.sampleHalves : JobTemplate where
  id := ⟨1⟩
  name := "halves"
  options := { playbook := "site.yml" }
  inventory := some ⟨⟨2⟩, "all", 18446744073709551615, none, [], false⟩
  project := some ⟨⟨3⟩, "books", "main", "", false, none, {}⟩
  sliceCount := 2

namespace Files

theorem read_ofEntries (path text : String) :
    Files.read (Table.ofEntries [(path, text)]) path = .ok text := by
  simp [read, Table.ofEntries, Std.ExtTreeMap.ofList_singleton]

theorem load_of_parse? {α : Type} [Document α] {files : Files} {path text : String} {a : α}
    (hread : files.read path = .ok text) (hpath : isYamlPath path = false)
    (hparse : (Json.parse? text).bind decode? = some a) : files.load path = .ok a := by
  rw [load, hread]
  simp only [hpath, bind, Except.bind]
  rw [if_neg Bool.false_ne_true, hparse]
  rfl

def halvesText : String :=
  "\x7b\"kind\": \"job\", \"id\": \"00000000-0000-0000-0000-000000000001\", \"name\": \"halves\",
    \"playbook\": \"site.yml\", \"job_slice_count\": 2,
    \"inventory\": \x7b\"id\": \"00000000-0000-0000-0000-000000000002\", \"name\": \"all\",
      \"host_count\": 18446744073709551615\x7d,
    \"project\": \x7b\"id\": \"00000000-0000-0000-0000-000000000003\", \"name\": \"books\",
      \"scm_branch\": \"main\"\x7d\x7d"

def halves : Files := Table.ofEntries [("halves.json", halvesText)]

set_option maxRecDepth 2000 in
theorem load_halves : halves.load "halves.json" = .ok (Template.job .sampleHalves) := by
  refine load_of_parse? (read_ofEntries _ halvesText) (by decide) ?_
  -- the literal is made of its characters, which `decide` would have to decode one by one
  have hchars : halvesText.toList = _ := String.toList_ofList
  rw [Json.parse?, hchars]
  decide +kernel

end Files

/-- The sample template is launched in slices, because its preview is launchable. Of the template in
the file both commands take the same request, but the plan breaks off at the first job. -/
theorem three_slices_follow_preview :
    (Stamp.counting 10).Fresh ((∅ : Store).saveTemplate (.job (.sample [.jobSliceCount]))) ∧
    (∃ outcome s', (Service.launch default (.counting 10) ⟨1⟩ .inThree).exec
        ((∅ : Store).saveTemplate (.job (.sample [.jobSliceCount]))) = (.ok outcome, s') ∧
      outcome.StoredBetween ((∅ : Store).saveTemplate (.job (.sample [.jobSliceCount]))) s') ∧
    Files.halves.load "halves.json" = .ok (Template.job .sampleHalves) ∧
    Files.halves.loadOr ({} : LaunchRequest) none = .ok {} ∧
    (Stamp.counting 10).Fresh ((∅ : Store).saveTemplate (.job .sampleHalves)) ∧
    (∃ report, (Invocation.planning ⟨0, 10, "", true, .parseVars ""⟩ "halves.json" none).run
      Files.halves (.counting 10) = .ok report) ∧
    (∃ report, (Invocation.resolving ⟨0, 10, "", false, .parseVars ""⟩ "halves.json" none).run
      Files.halves (.counting 10) = .ok report) ∧
    ∃ printed, (Invocation.planning ⟨0, 10, "", false, .parseVars ""⟩ "halves.json" none).run
      Files.halves (.counting 10) = .error (.overflow printed) := by
  have hlaunch := (launches_follow_previews (.counting 10) .inThree).1
  have hplan := (launches_follow_previews (.counting 10) {}).2
  have hf := Stamp.fresh_counting_saveTemplate (.job (.sample [.jobSliceCount]))
  have hf' := Stamp.fresh_counting_saveTemplate (.job .sampleHalves)
  have hsaved := (∅ : Store).getElem?_saveTemplate (.job (.sample [.jobSliceCount]))
  have hfollows := hlaunch default ⟨1⟩ _ hf
  obtain ⟨outcome, s', h⟩ := hfollows.succeeds.mpr ⟨_, hsaved, Or.inr (by decide), _,
    Service.exec_preview _ _ hsaved, by decide +kernel⟩
  have hl : ((Template.job .sampleHalves).resolve 0 {}).launchable := by decide +kernel
  have hnone : ∃ spec ∈ ((Template.job .sampleHalves).plan
      ((Template.job .sampleHalves).resolve 0 {}) {}).jobSpecs, spec.Overflows := by
    simp only [← JobSpec.taskImpact?_eq_none_iff]
    decide +kernel
  have hlines := hplan ⟨0, 10, "", false, .parseVars ""⟩ _ _ none _ Files.load_halves rfl hf'
  have hjson := hplan ⟨0, 10, "", true, .parseVars ""⟩ _ _ none _ Files.load_halves rfl hf'
  exact ⟨hf, ⟨outcome, s', h, (hfollows.stored outcome s' h).2.2⟩, Files.load_halves, rfl, hf',
    hjson.agree.mpr ⟨⟨_, rfl⟩, hl, .inl rfl⟩, ⟨_, hlines.resolves _ rfl⟩,
    hlines.breaksOff _ rfl hl rfl hnone⟩

end JobLaunch
