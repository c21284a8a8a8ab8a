import JobLaunch.Proofs.StoredLaunches
/-!
Runs of operations on the store. A job that was created stays what it is, with what is recorded of
its launch, whatever happens later; only its status changes.
-/
namespace JobLaunch

/-- Everything that can be done to a store. -/
inductive Operation where
  | saveTemplate (t : Template)
  | insertOrganization (o : Organization)
  | insertHosts (inventoryId : Id) (hosts : List Host)
  | updateFacts (inventoryId : Id) (updates : List FactUpdate)
  | updateStatus (id : Id) (status : JobStatus) (now : Timestamp)
  | recordSummary (now : Timestamp) (jobId : Id) (host : String) (counters : HostCounters)
  | launch (config : Config) (stamp : Stamp) (templateId : Id) (request : LaunchRequest)
  | relaunch (config : Config) (stamp : Stamp) (jobId : Id) (request : RelaunchRequest)

/-- The store that an operation leaves, whether or not it is refused. -/
def Operation.apply (s : Store) : Operation → Store
  | saveTemplate t => s.saveTemplate t
  | insertOrganization o => s.insertOrganization o
  | insertHosts inventoryId hosts => s.insertHosts inventoryId hosts
  | updateFacts inventoryId updates => (s.updateFacts inventoryId updates).1
  | updateStatus id status now => (s.updateStatus? id status now).getD s
  | recordSummary now jobId host counters =>
    ((Service.recordSummary now jobId host counters).exec s).2
  | launch config stamp templateId request =>
    ((Service.launch config stamp templateId request).exec s).2
  | relaunch config stamp jobId request => ((Service.relaunch config stamp jobId request).exec s).2

namespace Store

def after (s : Store) (ops : List Operation) : Store := ops.foldl Operation.apply s

theorem after_append (s : Store) (ops ops' : List Operation) :
    s.after (ops ++ ops') = (s.after ops).after ops' :=
  List.foldl_append

theorem after_concat (s : Store) (ops : List Operation) (op : Operation) :
    s.after (ops ++ [op]) = op.apply (s.after ops) :=
  s.after_append ops [op]

def Keyed (s : Store) : Prop := ∀ (id : Id) (t : Template), s.templates[id]? = some t → t.id = id

theorem Keyed.of_eq {s s' : Store} (h : s.Keyed) (ht : s'.templates = s.templates) : s'.Keyed := by
  rw [Keyed, ht]
  exact h

/-- Whether every job of the first store is in the second, in whatever status, with the
configuration that was recorded of its launch. -/
structure Keeps (s s' : Store) : Prop where
  job : ∀ {id i}, s.findJob? id = some i →
    ∃ i', s'.findJob? id = some i' ∧ i'.templateId = i.templateId ∧ i'.definition = i.definition
  config : ∀ {id i}, s.findJob? id = some i → s'.launchConfigs[id]? = s.launchConfigs[id]?

theorem Keeps.refl (s : Store) : s.Keeps s where
  job h := ⟨_, h, rfl, rfl⟩
  config _ := rfl

theorem Keeps.of_eq {s s' : Store} (hj : s'.jobs = s.jobs)
    (hc : s'.launchConfigs = s.launchConfigs) : s.Keeps s' where
  job {id i} h := ⟨i, by rw [findJob?, hj]; exact h, rfl, rfl⟩
  config _ := by rw [hc]

theorem Keeps.trans {s s' s'' : Store} (h : s.Keeps s') (h' : s'.Keeps s'') : s.Keeps s'' where
  job hi := by
    obtain ⟨i', hi', ht, hd⟩ := h.job hi
    obtain ⟨i'', hi'', ht', hd'⟩ := h'.job hi'
    exact ⟨i'', hi'', ht'.trans ht, hd'.trans hd⟩
  config hi := by
    obtain ⟨i', hi', -, -⟩ := h.job hi
    exact (h'.config hi').trans (h.config hi)

end Store

theorem find?_modifyFirst? {α : Type} {p q : α → Bool} {f : α → α} (hf : ∀ x, q (f x) = q x)
    {xs ys : List α} (h : modifyFirst? p f xs = some ys) :
    ys.find? q = xs.find? q ∨ ys.find? q = (xs.find? q).map f := by
  induction xs generalizing ys with
  | nil => cases h
  | cons x xs ih =>
    rw [modifyFirst?] at h
    split at h
    · cases h
      rw [List.find?_cons, List.find?_cons, hf]
      cases q x with
      | true => exact Or.inr rfl
      | false => exact Or.inl rfl
    · obtain ⟨zs, hz, rfl⟩ := Option.map_eq_some_iff.mp h
      rw [List.find?_cons, List.find?_cons]
      cases q x with
      | true => exact Or.inl rfl
      | false => exact ih hz

theorem map_modifyFirst? {α β : Type} {p : α → Bool} {f : α → α} {xs ys : List α}
    (h : modifyFirst? p f xs = some ys) {g : α → β} (hg : ∀ x, g (f x) = g x) :
    ys.map g = xs.map g := by
  induction xs generalizing ys with
  | nil => cases h
  | cons x xs ih =>
    rw [modifyFirst?] at h
    split at h
    · cases h
      rw [List.map_cons, List.map_cons, hg]
    · obtain ⟨zs, hz, rfl⟩ := Option.map_eq_some_iff.mp h
      rw [List.map_cons, List.map_cons, ih hz]

theorem mem_of_mem_modifyFirst? {α : Type} {p : α → Bool} {f : α → α} {xs ys : List α}
    (h : modifyFirst? p f xs = some ys) {y : α} (hy : y ∈ ys) : y ∈ xs ∨ ∃ x ∈ xs, y = f x := by
  induction xs generalizing ys with
  | nil => cases h
  | cons x xs ih =>
    rw [modifyFirst?] at h
    split at h
    · cases h
      rcases List.mem_cons.mp hy with rfl | hy
      · exact Or.inr ⟨x, List.mem_cons_self, rfl⟩
      · exact Or.inl (List.mem_cons_of_mem _ hy)
    · obtain ⟨zs, hz, rfl⟩ := Option.map_eq_some_iff.mp h
      rcases List.mem_cons.mp hy with rfl | hy
      · exact Or.inl List.mem_cons_self
      · rcases ih hz hy with hm | ⟨i, hi, he⟩
        · exact Or.inl (List.mem_cons_of_mem _ hm)
        · exact Or.inr ⟨i, List.mem_cons_of_mem _ hi, he⟩

namespace Store
variable {s s' : Store}

/-- A new status leaves every job but for its status and the time it ended. -/
theorem findJob?_updateStatus? {id : Id} {status : JobStatus} {now : Timestamp}
    (h : s.updateStatus? id status now = some s') (k : Id) : s'.findJob? k = s.findJob? k ∨
      s'.findJob? k = (s.findJob? k).map fun j =>
        { j with status, finishedAt := if status.isFinished then some now else none } := by
  obtain ⟨jobs, hm, rfl⟩ := Option.map_eq_some_iff.mp h
  refine find?_modifyFirst? ?_ hm
  exact fun _ => rfl

theorem keeps_updateStatus? {id : Id} {status : JobStatus} {now : Timestamp}
    (h : s.updateStatus? id status now = some s') : s.Keeps s' where
  job {k i} hi := by
    rcases findJob?_updateStatus? h k with hf | hf
    · exact ⟨i, hf.trans hi, rfl, rfl⟩
    · rw [hi] at hf
      exact ⟨_, hf, rfl, rfl⟩
  config _ := by
    obtain ⟨_, _, rfl⟩ := Option.map_eq_some_iff.mp h
    rfl

theorem Creates.keeps {config : Job → LaunchConfig} {jobs : List Job}
    (h : Creates config jobs s s') : s.Keeps s' where
  job hi := ⟨_, h.job_kept hi, rfl, rfl⟩
  config hi := h.config_kept hi

end Store

/-- What an operation launches, if it is not refused: a request of a template, as configured, with
a limit put on its jobs. -/
inductive Operation.Launches (s : Store) :
    Operation → Config → Stamp → Template → LaunchRequest → Option String → Prop
  | launch {config stamp id r t} (ht : s.templates[id]? = some t) :
    Launches s (.launch config stamp id r) config stamp t r none
  | relaunch {config stamp id r job t limit} (hj : s.findJob? id = some job)
    (ht : s.templates[job.templateId]? = some t)
    (hl : r.hosts = none → limit = (s.configOf job stamp.now).callbackLimit) :
    Launches s (.relaunch config stamp id r) config stamp t
      (Service.replayRequest job (s.configOf job stamp.now) r.credentialPasswords) limit

namespace Operation

/-- What is done with hosts and with summaries of hosts concerns no template and no job. -/
theorem records_updateFacts (s : Store) (inventoryId : Id) (updates : List FactUpdate) :
    (s.updateFacts inventoryId updates).1.templates = s.templates ∧
      (s.updateFacts inventoryId updates).1.jobs = s.jobs ∧
      (s.updateFacts inventoryId updates).1.launchConfigs = s.launchConfigs := by
  unfold Store.updateFacts
  split
  split <;> exact ⟨rfl, rfl, rfl⟩

theorem records_recordSummary (s : Store) (now : Timestamp) (jobId : Id) (host : String)
    (counters : HostCounters) :
    ((Service.recordSummary now jobId host counters).exec s).2.templates = s.templates ∧
      ((Service.recordSummary now jobId host counters).exec s).2.jobs = s.jobs ∧
      ((Service.recordSummary now jobId host counters).exec s).2.launchConfigs =
        s.launchConfigs := by
  unfold Service.recordSummary
  rcases (Service.reads_loadJob jobId).exec_bind_cases _ s with ⟨e, h⟩ | ⟨job, -, h⟩
  · rw [h]
    exact ⟨rfl, rfl, rfl⟩
  rw [h]
  simp only []
  split
  · exact ⟨rfl, rfl, rfl⟩
  · exact ⟨rfl, rfl, rfl⟩

/-- What an operation can do to a store: leave templates, jobs and configurations alone, save a
template, set a status, or store the plan that it launches. -/
inductive Effect (s : Store) (op : Operation) : Store → Prop
  | elsewhere {s'} (ht : s'.templates = s.templates) (hj : s'.jobs = s.jobs)
    (hc : s'.launchConfigs = s.launchConfigs) : Effect s op s'
  | template (t : Template) : Effect s op (s.saveTemplate t)
  | status {id status now s'} (h : s.updateStatus? id status now = some s') : Effect s op s'
  | plan {config stamp t r limit} (h : op.Launches s config stamp t r limit) :
    Effect s op ((Service.persist stamp r ((t.plan (t.resolve config.maxForks r) r).limitedTo limit)
      (t.resolve config.maxForks r)).exec s).2

theorem effect (s : Store) (op : Operation) : op.Effect s (op.apply s) := by
  cases op with
  | saveTemplate t => exact .template t
  | insertOrganization o => exact .elsewhere rfl rfl rfl
  | insertHosts inventoryId hosts => exact .elsewhere rfl rfl rfl
  | updateFacts inventoryId updates =>
    obtain ⟨ht, hj, hc⟩ := records_updateFacts s inventoryId updates
    exact .elsewhere ht hj hc
  | updateStatus id status now =>
    change Effect s _ ((s.updateStatus? id status now).getD s)
    cases h : s.updateStatus? id status now with
    | none => exact .elsewhere rfl rfl rfl
    | some s' => exact .status h
  | recordSummary now jobId host counters =>
    obtain ⟨ht, hj, hc⟩ := records_recordSummary s now jobId host counters
    exact .elsewhere ht hj hc
  | launch config stamp id r =>
    change Effect s _ ((Service.launch config stamp id r).exec s).2
    rcases Service.launch_cases config stamp id r s with ⟨e, h⟩ | ⟨t, ht, -, -, h⟩
    · rw [h]
      exact .elsewhere rfl rfl rfl
    · rw [h]
      exact .plan (.launch ht)
  | relaunch config stamp id r =>
    change Effect s _ ((Service.relaunch config stamp id r).exec s).2
    rcases Service.relaunch_cases config stamp id r s with
      ⟨e, h⟩ | ⟨job, t, limit, hj, ht, hl, -, -, h⟩
    · rw [h]
      exact .elsewhere rfl rfl rfl
    · rw [h]
      exact .plan (.relaunch hj ht hl)

/-- Templates change only when one is saved, and summaries only when one is recorded. -/
theorem apply_cases (s : Store) (op : Operation) :
    (∃ t, op = .saveTemplate t) ∨ (∃ now id host c, op = .recordSummary now id host c) ∨
      (op.apply s).templates = s.templates ∧ (op.apply s).summaries = s.summaries := by
  cases op with
  | saveTemplate t => exact Or.inl ⟨t, rfl⟩
  | recordSummary now id host c => exact Or.inr (Or.inl ⟨now, id, host, c, rfl⟩)
  | insertOrganization o => exact Or.inr (Or.inr ⟨rfl, rfl⟩)
  | insertHosts inventoryId hosts => exact Or.inr (Or.inr ⟨rfl, rfl⟩)
  | updateFacts inventoryId updates =>
    right
    right
    change (s.updateFacts inventoryId updates).1.templates = s.templates ∧
      (s.updateFacts inventoryId updates).1.summaries = s.summaries
    unfold Store.updateFacts
    split
    split <;> exact ⟨rfl, rfl⟩
  | updateStatus k status now =>
    right
    right
    cases h : s.updateStatus? k status now with
    | none => rw [apply, h]; exact ⟨rfl, rfl⟩
    | some s' =>
      obtain ⟨_, -, rfl⟩ := Option.map_eq_some_iff.mp h
      rw [apply, h]
      exact ⟨rfl, rfl⟩
  | launch config stamp k r =>
    obtain ⟨w, record, created, h⟩ := Service.growsTo_launch config stamp k r s
    right
    right
    rw [apply, h]
    exact ⟨s.templates_withWorkflow w, s.summaries_withWorkflow w⟩
  | relaunch config stamp k r =>
    obtain ⟨w, record, created, h⟩ := Service.growsTo_relaunch config stamp k r s
    right
    right
    rw [apply, h]
    exact ⟨s.templates_withWorkflow w, s.summaries_withWorkflow w⟩

namespace Effect
variable {s s' : Store} {op : Operation}

theorem keeps (h : op.Effect s s') : s.Keeps s' := by
  cases h with
  | elsewhere _ hj hc => exact .of_eq hj hc
  | template t => exact .of_eq rfl rfl
  | status h => exact Store.keeps_updateStatus? h
  | plan _ => exact (Service.creates_persist _ _ _ _ s).keeps

theorem keyed (h : op.Effect s s') (hs : s.Keyed) : s'.Keyed := by
  cases h with
  | elsewhere ht _ _ => exact hs.of_eq ht
  | template t =>
    intro id t' ht
    change (s.templates.insert t.id t)[id]? = some t' at ht
    rw [Std.ExtTreeMap.getElem?_insert] at ht
    split at ht
    · cases ht
      exact Std.compare_eq_iff_eq.mp ‹_›
    · exact hs id t' ht
  | status h =>
    obtain ⟨_, _, rfl⟩ := Option.map_eq_some_iff.mp h
    exact hs
  | plan _ => exact hs.of_eq (Service.creates_persist _ _ _ _ s).templates

/-- A job that an operation creates is one of the plan that it launches, the configuration that is
recorded of it is that of the launch, and templates stay as they are. -/
theorem launches_of_created (h : op.Effect s s') {j : Job} (hn : s.findJob? j.id = none)
    (hj : s'.findJob? j.id = some j) : ∃ config stamp t r limit,
      op.Launches s config stamp t r limit ∧ s'.templates = s.templates ∧
      j ∈ (Service.records stamp
        ((t.plan (t.resolve config.maxForks r) r).limitedTo limit)).1 ∧
      s'.launchConfigs[j.id]? =
        some (.capture j.id r.launchType (t.resolve config.maxForks r) stamp.now) := by
  cases h with
  | elsewhere _ hjobs _ =>
    rw [Store.findJob?, hjobs] at hj
    rw [Store.findJob?, hj] at hn
    cases hn
  | template t =>
    change s.findJob? j.id = some j at hj
    rw [hj] at hn
    cases hn
  | status hs =>
    rcases Store.findJob?_updateStatus? hs j.id with hf | hf <;> rw [hf, hn] at hj <;> cases hj
  | plan h =>
    obtain ⟨htemplates, hmem, hc⟩ := Service.created_of_persist hn hj
    exact ⟨_, _, _, _, _, h, htemplates, hmem, hc⟩

end Effect

/-- What is launched is a template of the store. -/
theorem Launches.template {s : Store} {op : Operation} {config : Config} {stamp : Stamp}
    {t : Template} {r : LaunchRequest} {limit : Option String}
    (h : op.Launches s config stamp t r limit) (hs : s.Keyed) : s.templates[t.id]? = some t := by
  cases h with
  | launch ht => rwa [hs _ t ht]
  | relaunch hj ht hl => rwa [hs _ t ht]

end Operation

namespace Store

theorem keeps_after (s : Store) (ops : List Operation) : s.Keeps (s.after ops) := by
  induction ops generalizing s with
  | nil => exact .refl s
  | cons op ops ih => exact (op.effect s).keeps.trans (ih (op.apply s))

theorem keyed_after {s : Store} (h : s.Keyed) (ops : List Operation) : (s.after ops).Keyed := by
  induction ops generalizing s with
  | nil => exact h
  | cons op ops ih => exact ih ((op.effect s).keyed h)

theorem keyed_empty : (∅ : Store).Keyed := by
  intro id t h
  have hn : (∅ : Store).templates[id]? = none := Std.ExtTreeMap.getElem?_empty
  rw [hn] at h
  cases h

end Store
end JobLaunch
