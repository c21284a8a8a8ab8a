import JobLaunch.Proofs.ConsistentRuns
import JobLaunch.Proofs.RelaunchChains
/-!
Active jobs of a template. A launch is admitted only while fewer of them are active than the settings
allow, and then adds all the jobs of its plan at once. So in a run in which no job that has ended
becomes active again their number exceeds the settings by less than what one launch adds.
-/
namespace JobLaunch

theorem countActive_eq_countP (jobs : List Job) (id : Id) :
    countActive jobs id = jobs.countP fun j => j.templateId == id && j.status.isActive :=
  List.countP_eq_length_filter.symm

theorem countActive_append (jobs created : List Job) (id : Id) :
    countActive (jobs ++ created) id = countActive jobs id + countActive created id := by
  rw [countActive, List.filter_append, List.length_append]
  rfl

/-- New jobs of a template are all active. -/
theorem countActive_of_pending {created : List Job} {k : Id}
    (h : ∀ j ∈ created, j.templateId = k ∧ j.status = .pending) (id : Id) :
    countActive created id = if k = id then created.length else 0 := by
  rw [countActive_eq_countP]
  split
  · rename_i hk
    apply List.countP_eq_length.mpr
    intro j hj
    obtain ⟨hid, hs⟩ := h j hj
    simp [hid, hs, hk, JobStatus.isActive]
  · rename_i hk
    apply List.countP_eq_zero.mpr
    intro j hj
    obtain ⟨hid, -⟩ := h j hj
    simp [hid, hk]

theorem countP_modifyFirst?_le {α : Type} {p q : α → Bool} {f : α → α} {xs ys : List α}
    (h : modifyFirst? p f xs = some ys) (hf : ∀ x, xs.find? p = some x → q (f x) → q x) :
    ys.countP q ≤ xs.countP q := by
  induction xs generalizing ys with
  | nil => cases h
  | cons x xs ih =>
    rw [modifyFirst?] at h
    split at h
    · rename_i hp
      cases h
      have hx : q (f x) → q x := hf x (List.find?_cons_of_pos hp)
      rw [List.countP_cons, List.countP_cons]
      by_cases hq : q (f x)
      · simp only [hq, hx hq, if_true, Nat.le_refl]
      · rw [if_neg hq]
        omega
    · rename_i hp
      obtain ⟨zs, hz, rfl⟩ := Option.map_eq_some_iff.mp h
      have hle := ih hz fun y hy => hf y ((List.find?_cons_of_neg hp).trans hy)
      rw [List.countP_cons, List.countP_cons]
      omega

/-- A new status that makes no ended job active again leaves no more jobs active. -/
theorem Store.countActive_updateStatus?_le {s s' : Store} {k : Id} {status : JobStatus}
    {now : Timestamp} (h : s.updateStatus? k status now = some s')
    (hs : ∀ j, s.findJob? k = some j → status.isActive → j.status.isActive) (id : Id) :
    countActive s'.jobs id ≤ countActive s.jobs id := by
  obtain ⟨jobs, hm, rfl⟩ := Option.map_eq_some_iff.mp h
  rw [countActive_eq_countP, countActive_eq_countP]
  apply countP_modifyFirst?_le hm
  intro j hj hq
  simp only [Bool.and_eq_true] at hq ⊢
  exact ⟨hq.1, hs j hj hq.2⟩

theorem Template.templateId_of_mem_definitions {t : Template} {res : Resolution}
    {r : LaunchRequest} {limit : Option String} {d : JobDefinition}
    (h : d ∈ ((t.plan res r).limitedTo limit).definitions) : d.templateId = t.id := by
  cases t with
  | system t =>
    have hd : ((Template.system t).plan res r |>.limitedTo limit).definitions =
        [.system (t.jobSpec res r)] := by
      cases limit <;> rfl
    rw [hd] at h
    rw [List.mem_singleton.mp h]
    rfl
  | job t =>
    change d ∈ ((t.plan res r).limitedTo limit).definitions at h
    rw [JobTemplate.definitions_plan] at h
    obtain ⟨spec, hspec, rfl⟩ := List.mem_map.mp h
    exact congrArg JobSpec.templateId (JobTemplate.of_mem_jobSpecs_limitedTo hspec).2

theorem Service.length_records (stamp : Stamp) (plan : LaunchPlan) :
    (records stamp plan).1.length = plan.jobCount := by
  have h := congrArg List.length (map_id_records stamp plan)
  rwa [List.length_map, List.length_map, List.length_range] at h

/-- Whether a launch of a template, for which there was room, adds given new jobs of the template.
When it succeeds they are all the jobs of its plan. -/
structure Service.Adds (config : Config) (s : Store) (t : Template) (created : List Job)
    (launch : Service LaunchOutcome) : Prop where
  room : t.isBlocked config.scheduleMaxJobs (countActive s.jobs t.id) = false
  jobs : (launch.exec s).2.jobs = s.jobs ++ created
  own : ∀ j ∈ created, j.templateId = t.id ∧ j.status = .pending
  all : ∀ outcome s', launch.exec s = (.ok outcome, s') → created.length = outcome.plan.jobCount

namespace Service
variable {config : Config} {s : Store}

theorem adds_of_persist {stamp : Stamp} {t : Template} {r : LaunchRequest} {res : Resolution}
    {limit : Option String} {launch : Service LaunchOutcome}
    (hb : t.isBlocked config.scheduleMaxJobs (countActive s.jobs t.id) = false)
    (h : launch.exec s = (persist stamp r ((t.plan res r).limitedTo limit) res).exec s) :
    ∃ created, launch.Adds config s t created := by
  obtain ⟨created, hp, hs, hall⟩ := persist_cases stamp r ((t.plan res r).limitedTo limit) res s
  refine ⟨created, hb, ?_, ?_, ?_⟩
  · rw [h, hs]
    simp [Store.withJobs]
  · intro j hj
    have hmem := hp.subset hj
    have hd := List.mem_map_of_mem (f := (·.definition)) hmem
    rw [definitions_records] at hd
    refine ⟨(templateId_of_mem_records hmem).trans (Template.templateId_of_mem_definitions hd), ?_⟩
    obtain ⟨i, hi⟩ := of_mem_records hmem
    rw [hi]
    rfl
  · intro outcome s' ho
    rw [h] at ho
    obtain ⟨hplan, rfl⟩ := hall outcome s' ho
    rw [length_records, hplan]

/-- A launch fails with the store as it is, or adds jobs of the template. -/
theorem launch_adds (config : Config) (stamp : Stamp) (id : Id) (r : LaunchRequest) (s : Store) :
    (∃ e, (launch config stamp id r).exec s = (.error e, s)) ∨
      ∃ t created, s.templates[id]? = some t ∧
        (launch config stamp id r).Adds config s t created := by
  rcases launch_cases config stamp id r s with h | ⟨t, ht, -, hb, h⟩
  · exact Or.inl h
  · have hp : (launch config stamp id r).exec s = (persist stamp r
        ((t.plan (t.resolve config.maxForks r) r).limitedTo none)
        (t.resolve config.maxForks r)).exec s := h
    obtain ⟨created, ha⟩ := adds_of_persist hb hp
    exact Or.inr ⟨t, created, ht, ha⟩

/-- A relaunch fails with the store as it is, or adds jobs of the job's template. -/
theorem relaunch_adds (config : Config) (stamp : Stamp) (id : Id) (r : RelaunchRequest)
    (s : Store) : (∃ e, (relaunch config stamp id r).exec s = (.error e, s)) ∨
      ∃ job t created, s.findJob? id = some job ∧ s.templates[job.templateId]? = some t ∧
        (relaunch config stamp id r).Adds config s t created := by
  rcases relaunch_cases config stamp id r s with h | ⟨job, t, limit, hj, ht, -, -, hb, h⟩
  · exact Or.inl h
  · obtain ⟨created, ha⟩ := adds_of_persist hb h
    exact Or.inr ⟨job, t, created, hj, ht, ha⟩

end Service

namespace Operation

def launchedId? (s : Store) : Operation → Option Id
  | launch _ _ templateId _ => some templateId
  | relaunch _ _ jobId _ => (s.findJob? jobId).map (·.templateId)
  | _ => none

def outcome? (s : Store) : Operation → Option LaunchOutcome
  | launch config stamp templateId request =>
    ((Service.launch config stamp templateId request).exec s).1.toOption
  | relaunch config stamp jobId request =>
    ((Service.relaunch config stamp jobId request).exec s).1.toOption
  | _ => none

def created (s : Store) (op : Operation) : Nat := (op.apply s).jobs.length - s.jobs.length

/-- Whether an operation launches with given settings, makes no ended job active again, and saves
no template of system jobs under a given id. -/
def Orderly (config : Config) (id : Id) (s : Store) : Operation → Prop
  | launch c _ _ _ | relaunch c _ _ _ => c = config
  | updateStatus k status _ => ∀ j, s.findJob? k = some j → status.isActive → j.status.isActive
  | saveTemplate t => t.id = id → t.kind = .job
  | _ => True

/-- What an operation does to the active jobs of a template: it launches others or none and leaves no
more of them active, or it launches the template, while there is room, and adds what it creates. -/
inductive Activates (config : Config) (id : Id) (s : Store) (op : Operation) : Prop
  | none (ho : op.outcome? s = none)
    (hc : countActive (op.apply s).jobs id ≤ countActive s.jobs id) : Activates config id s op
  | other {k : Id} (hk : op.launchedId? s = some k) (hne : k ≠ id)
    (hc : countActive (op.apply s).jobs id ≤ countActive s.jobs id) : Activates config id s op
  | own (hk : op.launchedId? s = some id)
    (hr : countActive s.jobs id < config.scheduleMaxJobs.toNat)
    (hc : countActive (op.apply s).jobs id = countActive s.jobs id + op.created s)
    (ho : ∀ outcome, op.outcome? s = some outcome → op.created s = outcome.plan.jobCount) :
    Activates config id s op

variable {config : Config} {id k : Id} {s : Store} {op : Operation}

theorem activates_of_adds {t : Template} {jobs : List Job} {launch : Service LaunchOutcome}
    (hs : s.Keyed) (hjob : ∀ t, s.templates[id]? = some t → t.kind = .job)
    (hk : op.launchedId? s = some k) (ht : s.templates[k]? = some t)
    (ha : launch.Adds config s t jobs) (happly : op.apply s = (launch.exec s).2)
    (hout : op.outcome? s = (launch.exec s).1.toOption) : op.Activates config id s := by
  have hid : t.id = k := hs k t ht
  have hcount : countActive (op.apply s).jobs id =
      countActive s.jobs id + if k = id then jobs.length else 0 := by
    rw [happly, ha.jobs, countActive_append, countActive_of_pending ha.own, hid]
  by_cases he : k = id
  · subst he
    have hcreated : op.created s = jobs.length := by
      rw [created, happly, ha.jobs, List.length_append, Nat.add_sub_cancel_left]
    refine .own hk ?_ ?_ ?_
    · have hroom := ha.room
      cases t with
      | system t => cases hjob _ ht
      | job t => simpa [Template.isBlocked, hid] using hroom
    · rw [hcount, if_pos rfl, hcreated]
    · intro outcome ho
      rw [hout] at ho
      cases hx : launch.exec s with
      | mk result s' =>
        rw [hx] at ho
        cases result with
        | error e => cases ho
        | ok o =>
          cases ho
          rw [hcreated, ha.all _ _ hx]
  · rw [if_neg he] at hcount
    exact .other hk he (Nat.le_of_eq hcount)

theorem activates (hs : s.Keyed) (hjob : ∀ t, s.templates[id]? = some t → t.kind = .job)
    (ho : op.Orderly config id s) : op.Activates config id s := by
  have hstays {op : Operation} (hout : op.outcome? s = none) (hj : (op.apply s).jobs = s.jobs) :
      op.Activates config id s := .none hout (Nat.le_of_eq (by rw [hj]))
  cases op with
  | saveTemplate t => exact hstays rfl rfl
  | insertOrganization o => exact hstays rfl rfl
  | insertHosts inventoryId hosts => exact hstays rfl rfl
  | updateFacts inventoryId updates =>
    exact hstays rfl (records_updateFacts s inventoryId updates).2.1
  | recordSummary now jobId host counters =>
    exact hstays rfl (records_recordSummary s now jobId host counters).2.1
  | updateStatus k status now =>
    cases h : s.updateStatus? k status now with
    | none => exact hstays rfl (by rw [apply, h]; rfl)
    | some s' =>
      have happly : (updateStatus k status now).apply s = s' := by rw [apply, h]; rfl
      exact .none rfl (by rw [happly]; exact Store.countActive_updateStatus?_le h ho id)
  | launch c stamp templateId r =>
    have hc : c = config := ho
    subst hc
    rcases Service.launch_adds c stamp templateId r s with ⟨e, h⟩ | ⟨t, jobs, ht, ha⟩
    · exact hstays (by rw [outcome?, h]; rfl) (by rw [apply, h])
    · exact activates_of_adds hs hjob rfl ht ha rfl rfl
  | relaunch c stamp jobId r =>
    have hc : c = config := ho
    subst hc
    rcases Service.relaunch_adds c stamp jobId r s with ⟨e, h⟩ | ⟨job, t, jobs, hj, ht, ha⟩
    · exact hstays (by rw [outcome?, h]; rfl) (by rw [apply, h])
    · exact activates_of_adds hs hjob (by rw [launchedId?, hj]; rfl) ht ha rfl rfl

theorem kind_apply (hjob : ∀ t, s.templates[id]? = some t → t.kind = .job)
    (ho : op.Orderly config id s) :
    ∀ t, (op.apply s).templates[id]? = some t → t.kind = .job := by
  intro t ht
  rcases apply_cases s op with ⟨saved, rfl⟩ | ⟨now, k, host, c, rfl⟩ | ⟨h, -⟩
  · change (s.templates.insert saved.id saved)[id]? = some t at ht
    rw [Std.ExtTreeMap.getElem?_insert] at ht
    split at ht
    · cases ht
      exact ho (Std.compare_eq_iff_eq.mp ‹_›)
    · exact hjob t ht
  · rw [apply, (records_recordSummary s now k host c).1] at ht
    exact hjob t ht
  · rw [h] at ht
    exact hjob t ht

end Operation

namespace Store
variable {config : Config} {id : Id} {s : Store} {op : Operation} {ops : List Operation}

def Orderly (config : Config) (id : Id) (s : Store) (ops : List Operation) : Prop :=
  ∀ before op rest, ops = before ++ op :: rest → op.Orderly config id (s.after before)

/-- The largest number of jobs that one launch or relaunch of a template creates in a run. -/
def largestLaunch (id : Id) (s : Store) : List Operation → Nat
  | [] => 0
  | op :: ops => max (if op.launchedId? s = some id then op.created s else 0)
      (largestLaunch id (op.apply s) ops)

theorem Orderly.head (h : s.Orderly config id (op :: ops)) : op.Orderly config id s :=
  h [] op ops rfl

theorem Orderly.tail (h : s.Orderly config id (op :: ops)) :
    (op.apply s).Orderly config id ops := by
  intro before op' rest he
  exact h (op :: before) op' rest (by rw [he]; rfl)

theorem Orderly.left {before rest : List Operation} (h : s.Orderly config id (before ++ rest)) :
    s.Orderly config id before := by
  intro before' op' rest' he
  exact h before' op' (rest' ++ rest) (by rw [he, List.append_assoc]; rfl)

theorem orderly_nil : s.Orderly config id [] := by
  intro before op rest he
  cases before <;> cases he

theorem Orderly.cons (ho : op.Orderly config id s) (h : (op.apply s).Orderly config id ops) :
    s.Orderly config id (op :: ops) := by
  intro before op' rest he
  cases before with
  | nil =>
    cases he
    exact ho
  | cons first before =>
    obtain ⟨rfl, htail⟩ := List.cons.inj he
    exact h before op' rest htail

theorem kind_after (hjob : ∀ t, s.templates[id]? = some t → t.kind = .job)
    (ho : s.Orderly config id ops) :
    ∀ t, (s.after ops).templates[id]? = some t → t.kind = .job := by
  induction ops generalizing s with
  | nil => exact hjob
  | cons op ops ih => exact ih (Operation.kind_apply hjob ho.head) ho.tail

/-- A run leaves no more jobs active than there were, or exceeds the settings by less than one
launch. -/
theorem countActive_after_le (hs : s.Keyed)
    (hjob : ∀ t, s.templates[id]? = some t → t.kind = .job) (ho : s.Orderly config id ops) :
    countActive (s.after ops).jobs id ≤
      max (countActive s.jobs id) (config.scheduleMaxJobs.toNat - 1 + s.largestLaunch id ops) := by
  induction ops generalizing s with
  | nil => exact Nat.le_max_left _ _
  | cons op ops ih =>
    have hrest := ih ((op.effect s).keyed hs) (Operation.kind_apply hjob ho.head) ho.tail
    change countActive ((op.apply s).after ops).jobs id ≤ _
    rw [largestLaunch]
    cases Operation.activates hs hjob ho.head with
    | none _ hc => omega
    | other _ _ hc => omega
    | own hk hr hc _ =>
      rw [if_pos hk]
      omega

theorem kind_empty (t : Template) (h : (∅ : Store).templates[id]? = some t) : t.kind = .job := by
  have hn : (∅ : Store).templates[id]? = none := Std.ExtTreeMap.getElem?_empty
  rw [hn] at h
  cases h

/-- A launch that succeeds in a run has found room, and adds the jobs of its plan. -/
theorem Orderly.of_outcome? {before rest : List Operation} {outcome : LaunchOutcome}
    (h : (∅ : Store).Orderly config id (before ++ op :: rest))
    (hk : op.launchedId? ((∅ : Store).after before) = some id)
    (ho : op.outcome? ((∅ : Store).after before) = some outcome) :
    countActive ((∅ : Store).after before).jobs id < config.scheduleMaxJobs.toNat ∧
      countActive ((∅ : Store).after (before ++ [op])).jobs id =
        countActive ((∅ : Store).after before).jobs id + outcome.plan.jobCount := by
  rw [after_concat]
  cases Operation.activates (keyed_after keyed_empty before) (kind_after kind_empty h.left)
    (h before op rest rfl) with
  | none hn =>
    rw [hn] at ho
    cases ho
  | other hk' hne =>
    rw [hk', Option.some.injEq] at hk
    exact absurd hk hne
  | own _ hr hc hall => exact ⟨hr, by rw [hc, hall outcome ho]⟩

end Store

/-- How admission holds the active jobs of a template in a run: a launch of it that succeeds has found
fewer of them than the settings allow and has added all jobs of its plan, and at no point do
they exceed the settings by as many as one launch has created before. -/
structure Store.HoldsActive (config : Config) (id : Id) (ops : List Operation) : Prop where
  room : ∀ before op rest outcome, ops = before ++ op :: rest →
    op.launchedId? ((∅ : Store).after before) = some id →
    op.outcome? ((∅ : Store).after before) = some outcome →
    countActive ((∅ : Store).after before).jobs id < config.scheduleMaxJobs.toNat
  added : ∀ before op rest outcome, ops = before ++ op :: rest →
    op.launchedId? ((∅ : Store).after before) = some id →
    op.outcome? ((∅ : Store).after before) = some outcome →
    countActive ((∅ : Store).after (before ++ [op])).jobs id =
      countActive ((∅ : Store).after before).jobs id + outcome.plan.jobCount
  bounded : ∀ before rest, ops = before ++ rest →
    countActive ((∅ : Store).after before).jobs id ≤
      config.scheduleMaxJobs.toNat - 1 + (∅ : Store).largestLaunch id before

theorem active_jobs_held {config : Config} {id : Id} {ops : List Operation}
    (h : (∅ : Store).Orderly config id ops) : Store.HoldsActive config id ops where
  room before op rest outcome he hk ho := by
    subst he
    exact (h.of_outcome? hk ho).1
  added before op rest outcome he hk ho := by
    subst he
    exact (h.of_outcome? hk ho).2
  bounded before rest he := by
    subst he
    have hle := Store.countActive_after_le Store.keyed_empty Store.kind_empty h.left
    have hzero : countActive (∅ : Store).jobs id = 0 := rfl
    rw [hzero] at hle
    omega

def Config.three : Config := { (default : Config) with scheduleMaxJobs := 3 }

def Operation.slicedRun : List Operation := [
  .saveTemplate (.job .halves),
  .launch .three (.counting 10) ⟨1⟩ {},
  .updateStatus ⟨11⟩ .failed default,
  .relaunch .three (.counting 20) ⟨11⟩ {},
  .launch .three (.counting 30) ⟨1⟩ {}]

/-- The last launch has found two active jobs, and the four there are now are as many as can be. -/
theorem four_jobs_held : (∅ : Store).Orderly .three ⟨1⟩ Operation.slicedRun ∧
    countActive ((∅ : Store).after Operation.slicedRun).jobs ⟨1⟩ = 4 ∧
    Config.three.scheduleMaxJobs.toNat - 1 +
      (∅ : Store).largestLaunch ⟨1⟩ Operation.slicedRun = 4 ∧
    Store.HoldsActive .three ⟨1⟩ Operation.slicedRun := by
  have ho : (∅ : Store).Orderly .three ⟨1⟩ Operation.slicedRun := by
    refine .cons (fun _ => rfl) (.cons rfl (.cons ?_ (.cons rfl (.cons rfl Store.orderly_nil))))
    intro j _ hactive
    cases hactive
  exact ⟨ho, rfl, rfl, active_jobs_held ho⟩

end JobLaunch
