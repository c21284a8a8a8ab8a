import Mathlib.Data.List.Induction
import JobLaunch.Proofs.ConsistentRuns
/-!
Host summaries in a run. What is listed of a job is what the last records of its hosts say, each of
them made while the job was active; records of other jobs, and the time after the job's end, leave no
trace.
-/
namespace JobLaunch

def HostCounters.has (c : HostCounters) : HostStatus → Bool
  | .all => true
  | .failed => 0 < c.dark || 0 < c.failures
  | .ok => 0 < c.ok
  | .changed => 0 < c.changed
  | .unreachable => 0 < c.dark

namespace Store

def HasActive (s : Store) (id : Id) : Prop := ∃ j, s.findJob? id = some j ∧ j.status.isActive

def counters? (s : Store) (id : Id) (host : String) : Option HostCounters :=
  (s.summaryTable id)[host]?.map (·.counters)

/-- Whether every summary is kept under the job and the host that it is about, and says of the host
that it failed when its counters do. -/
def Labelled (s : Store) : Prop :=
  ∀ (id : Id) (host : String) (h : HostSummary), (s.summaryTable id)[host]? = some h →
    h.jobId = id ∧ h.hostName = host ∧ h.failed = h.counters.failed

theorem summaryTable_empty (id : Id) : (∅ : Store).summaryTable id = ∅ := by
  have hn : (∅ : Store).summaries[id]? = none := Std.ExtTreeMap.getElem?_empty
  rw [summaryTable, hn]
  rfl

theorem labelled_empty : (∅ : Store).Labelled := by
  intro id host h hh
  rw [summaryTable_empty, Std.ExtTreeMap.getElem?_empty] at hh
  cases hh

theorem Labelled.of_eq {s s' : Store} (h : s.Labelled) (he : s'.summaries = s.summaries) :
    s'.Labelled := by
  intro id host summary hh
  rw [summaryTable, he] at hh
  exact h id host summary hh

theorem Labelled.record {s : Store} (h : s.Labelled) (now : Timestamp) (id : Id) (host : String)
    (c : HostCounters) : (s.putSummary (.record id host c now)).Labelled := by
  intro k other summary hh
  rw [summaryTable_putSummary] at hh
  split at hh
  · rename_i hid
    rw [Std.ExtTreeMap.getElem?_insert] at hh
    split at hh
    · rename_i hhost
      cases hh
      exact ⟨hid, Std.compare_eq_iff_eq.mp hhost, rfl⟩
    · exact h k other summary hh
  · exact h k other summary hh

theorem counters?_record (s : Store) (now : Timestamp) (k : Id) (other : String)
    (c : HostCounters) (id : Id) (host : String) :
    (s.putSummary (.record k other c now)).counters? id host =
      if k = id ∧ other = host then some c else s.counters? id host := by
  rw [counters?, summaryTable_putSummary]
  by_cases hid : k = id
  · by_cases hhost : other = host
    · simp [HostSummary.record, hid, hhost]
    · simp [HostSummary.record, hid, hhost, Std.ExtTreeMap.getElem?_insert, counters?]
  · simp [HostSummary.record, hid, counters?]

section
variable {s : Store} (h : s.Labelled) (id : Id)
include h

theorem Labelled.mem_summariesOf {summary : HostSummary} : summary ∈ s.summariesOf id ↔
    (s.summaryTable id)[summary.hostName]? = some summary := by
  rw [summariesOf, List.mem_map]
  constructor
  · rintro ⟨⟨host, summary⟩, hmem, rfl⟩
    have hget := Std.ExtTreeMap.mem_toList_iff_getElem?_eq_some.mp hmem
    obtain ⟨-, rfl, -⟩ := h id host _ hget
    exact hget
  · intro hget
    exact ⟨(summary.hostName, summary), Std.ExtTreeMap.mem_toList_iff_getElem?_eq_some.mpr hget, rfl⟩

/-- Summaries are listed in the order of host names, one for each. -/
theorem Labelled.pairwise_summariesOf :
    ((s.summariesOf id).map (·.hostName)).Pairwise (· < ·) := by
  have hnames : (s.summariesOf id).map (·.hostName) = (s.summaryTable id).keys := by
    rw [summariesOf, List.map_map, ← Std.ExtTreeMap.map_fst_toList_eq_keys]
    apply List.map_congr_left
    rintro ⟨host, summary⟩ hmem
    exact (h id host summary (Std.ExtTreeMap.mem_toList_iff_getElem?_eq_some.mp hmem)).2.1
  rw [hnames]
  apply Std.ExtTreeMap.ordered_keys.imp
  intro a b hab
  exact compareOfLessAndEq_eq_lt.mp hab

theorem Labelled.selects_iff {summary : HostSummary} (hm : summary ∈ s.summariesOf id)
    (status : HostStatus) : status.selects summary = summary.counters.has status := by
  cases status with
  | failed =>
    have hf := (h id _ summary ((h.mem_summariesOf id).mp hm)).2.2
    simp [HostStatus.selects, HostCounters.has, hf, HostCounters.failed]
  | all => rfl
  | ok => rfl
  | changed => rfl
  | unreachable => rfl

end

end Store

namespace Service
variable {s : Store}

theorem exec_recordSummary_of_active (hs : s.Labelled) {id : Id} (ha : s.HasActive id)
    (now : Timestamp) (host : String) (c : HostCounters) :
    (recordSummary now id host c).exec s =
      (.ok (.record id host c now), s.putSummary (.record id host c now)) := by
  obtain ⟨j, hj, hactive⟩ := ha
  have hnot : j.status.isFinished = false := by rw [JobStatus.isFinished, hactive]; rfl
  rw [recordSummary, exec_bind_of_ok (exec_loadJob_eq_ok.mpr ⟨hj, rfl⟩)]
  simp only [hnot]
  change (get >>= _ : Service HostSummary).exec s = _
  rw [exec_bind, exec_get]
  simp only []
  cases hold : (s.summaryTable id)[host]? with
  | none => rfl
  | some old =>
    -- the new counters take the place of the old ones, and the labels stay
    obtain ⟨hid, hhost, -⟩ := hs id host old hold
    have hnew : old.update c now = .record id host c now := by
      rw [HostSummary.update, HostSummary.record, hid, hhost]
    rw [← hnew]
    rfl

theorem exec_recordSummary_of_not_active {id : Id} (ha : ¬s.HasActive id) (now : Timestamp)
    (host : String) (c : HostCounters) :
    ∃ e, (recordSummary now id host c).exec s = (.error e, s) := by
  unfold recordSummary
  rcases (reads_loadJob id).exec_bind_cases _ s with h | ⟨j, hj, h⟩
  · exact h
  have hnot : ¬j.status.isActive := fun hactive => ha ⟨j, (exec_loadJob_eq_ok.mp hj).1, hactive⟩
  have hend : j.status.isFinished := by simpa [JobStatus.isFinished] using hnot
  rw [h]
  simp only [hend, if_true]
  exact ⟨_, rfl⟩

/-- A record is taken exactly while the job is active. -/
theorem recordSummary_eq_ok_iff (hs : s.Labelled) (now : Timestamp) (id : Id) (host : String)
    (c : HostCounters) :
    (∃ h s', (recordSummary now id host c).exec s = (.ok h, s')) ↔ s.HasActive id := by
  constructor
  · rintro ⟨h, s', hok⟩
    by_contra ha
    obtain ⟨e, herror⟩ := exec_recordSummary_of_not_active ha now host c
    rw [herror] at hok
    cases hok
  · intro ha
    exact ⟨_, _, exec_recordSummary_of_active hs ha now host c⟩

end Service

namespace Operation
variable {s : Store}

/-- Whether an operation is a record of a host of a job, with given counters, that is taken. -/
def RecordsHost (s : Store) (id : Id) (host : String) (c : HostCounters) (op : Operation) : Prop :=
  ∃ now, op = .recordSummary now id host c ∧
    ∃ h s', (Service.recordSummary now id host c).exec s = (.ok h, s')

/-- Summaries change only when one is recorded. -/
theorem summaries_apply (s : Store) (op : Operation) :
    (∃ now id host c, op = .recordSummary now id host c) ∨
      (op.apply s).summaries = s.summaries := by
  rcases apply_cases s op with ⟨t, rfl⟩ | h | ⟨-, h⟩
  · exact Or.inr rfl
  · exact Or.inl h
  · exact Or.inr h

theorem labelled_apply (hs : s.Labelled) (op : Operation) : (op.apply s).Labelled := by
  rcases summaries_apply s op with ⟨now, id, host, c, rfl⟩ | h
  · by_cases ha : s.HasActive id
    · rw [apply, Service.exec_recordSummary_of_active hs ha]
      exact hs.record now id host c
    · obtain ⟨e, h⟩ := Service.exec_recordSummary_of_not_active ha now host c
      rw [apply, h]
      exact hs
  · exact hs.of_eq h

theorem recordsHost_iff (hs : s.Labelled) {id : Id} {host : String} {c : HostCounters}
    {op : Operation} : op.RecordsHost s id host c ↔
      (∃ now, op = .recordSummary now id host c) ∧ s.HasActive id := by
  constructor
  · rintro ⟨now, rfl, hok⟩
    exact ⟨⟨now, rfl⟩, (Service.recordSummary_eq_ok_iff hs now id host c).mp hok⟩
  · rintro ⟨⟨now, rfl⟩, ha⟩
    exact ⟨now, rfl, (Service.recordSummary_eq_ok_iff hs now id host c).mpr ha⟩

/-- A host has the counters that are recorded, and otherwise those it had. -/
theorem counters?_apply (hs : s.Labelled) (op : Operation) (id : Id) (host : String)
    (c : HostCounters) : (op.apply s).counters? id host = some c ↔
      op.RecordsHost s id host c ∨
        s.counters? id host = some c ∧ ∀ c', ¬op.RecordsHost s id host c' := by
  have hnone (hn : ∀ c', ¬op.RecordsHost s id host c')
      (he : (op.apply s).counters? id host = s.counters? id host) :
      (op.apply s).counters? id host = some c ↔ op.RecordsHost s id host c ∨
        s.counters? id host = some c ∧ ∀ c', ¬op.RecordsHost s id host c' := by
    rw [he, or_iff_right (hn c), and_iff_left hn]
  by_cases hop : ∃ now k other c', op = .recordSummary now k other c'
  · obtain ⟨now, k, other, c', rfl⟩ := hop
    by_cases ha : s.HasActive k
    · have happly : (recordSummary now k other c').apply s =
          s.putSummary (.record k other c' now) := by
        rw [apply, Service.exec_recordSummary_of_active hs ha]
      by_cases he : k = id ∧ other = host
      · obtain ⟨rfl, rfl⟩ := he
        have hrec (c : HostCounters) :
            (recordSummary now k other c').RecordsHost s k other c ↔ c' = c := by
          simp [recordsHost_iff hs, ha]
        rw [happly, Store.counters?_record, if_pos ⟨rfl, rfl⟩, hrec, Option.some.injEq]
        constructor
        · exact Or.inl
        · rintro (h | ⟨-, h⟩)
          · exact h
          · exact absurd ((hrec c').mpr rfl) (h c')
      · apply hnone
        · rintro c'' ⟨now', heq, -⟩
          cases heq
          exact he ⟨rfl, rfl⟩
        · rw [happly, Store.counters?_record, if_neg he]
    · obtain ⟨e, herror⟩ := Service.exec_recordSummary_of_not_active ha now other c'
      apply hnone
      · rintro c'' hrec
        obtain ⟨⟨now', heq⟩, hactive⟩ := (recordsHost_iff hs).mp hrec
        cases heq
        exact ha hactive
      · rw [apply, herror]
  · apply hnone
    · rintro c' ⟨now, heq, -⟩
      exact hop ⟨now, id, host, c', heq⟩
    · rw [Store.counters?, Store.summaryTable, (summaries_apply s op).resolve_left hop]
      rfl

end Operation

/-- Whether given counters are those of the last record of a host of a job that is taken in a run. -/
def LastRecord (ops : List Operation) (id : Id) (host : String) (c : HostCounters) : Prop :=
  ∃ before op rest, ops = before ++ op :: rest ∧
    op.RecordsHost ((∅ : Store).after before) id host c ∧
    ∀ between op' rest' c', rest = between ++ op' :: rest' →
      ¬op'.RecordsHost ((∅ : Store).after (before ++ op :: between)) id host c'

def AnyRecord (ops : List Operation) (id : Id) (host : String) : Prop :=
  ∃ before op rest c, ops = before ++ op :: rest ∧
    op.RecordsHost ((∅ : Store).after before) id host c

theorem not_lastRecord_nil (id : Id) (host : String) (c : HostCounters) :
    ¬LastRecord [] id host c := by
  rintro ⟨before, op, rest, he, -⟩
  cases before <;> cases he

/-- The last operation is the last record, or it is none and the last record is before it. -/
theorem lastRecord_concat {ops : List Operation} {op : Operation} {id : Id} {host : String}
    {c : HostCounters} : LastRecord (ops ++ [op]) id host c ↔
      op.RecordsHost ((∅ : Store).after ops) id host c ∨
        LastRecord ops id host c ∧ ∀ c', ¬op.RecordsHost ((∅ : Store).after ops) id host c' := by
  constructor
  · rintro ⟨before, op', rest, he, hrec, hlast⟩
    rcases List.eq_nil_or_concat rest with rfl | ⟨rest, last, rfl⟩
    · obtain ⟨rfl, hop⟩ := List.append_inj' he rfl
      cases hop
      exact Or.inl hrec
    · rw [List.concat_eq_append, ← List.cons_append, ← List.append_assoc] at he
      obtain ⟨rfl, hop⟩ := List.append_inj' he rfl
      cases hop
      right
      constructor
      · refine ⟨before, op', rest, rfl, hrec, ?_⟩
        intro between op'' rest' c' hrest
        apply hlast between op'' (rest' ++ [op]) c'
        rw [List.concat_eq_append, hrest, List.append_assoc]
        rfl
      · intro c'
        exact hlast rest op [] c' (List.concat_eq_append ..)
  · rintro (hrec | ⟨⟨before, op', rest, rfl, hrec, hlast⟩, hnone⟩)
    · refine ⟨ops, op, [], rfl, hrec, ?_⟩
      intro between op' rest' c' he
      cases between <;> cases he
    · refine ⟨before, op', rest ++ [op], by simp, hrec, ?_⟩
      intro between op'' rest' c' he
      rcases List.eq_nil_or_concat rest' with rfl | ⟨rest', last, rfl⟩
      · obtain ⟨rfl, hop⟩ := List.append_inj' he rfl
        cases hop
        exact hnone c'
      · rw [List.concat_eq_append, ← List.cons_append, ← List.append_assoc] at he
        exact hlast between op'' rest' c' (List.append_inj' he rfl).1

/-- Where any record is taken, one is the last. -/
theorem anyRecord_iff {ops : List Operation} {id : Id} {host : String} :
    AnyRecord ops id host ↔ ∃ c, LastRecord ops id host c := by
  constructor
  · induction ops using List.reverseRecOn with
    | nil =>
      rintro ⟨before, op, rest, c, he, -⟩
      cases before <;> cases he
    | append_singleton ops last ih =>
      rintro ⟨before, op, rest, c, he, hrec⟩
      by_cases hlast : ∃ c', last.RecordsHost ((∅ : Store).after ops) id host c'
      · obtain ⟨c', hlast⟩ := hlast
        exact ⟨c', lastRecord_concat.mpr (Or.inl hlast)⟩
      · rcases List.eq_nil_or_concat rest with rfl | ⟨rest, op', rfl⟩
        · obtain ⟨rfl, hop⟩ := List.append_inj' he rfl
          cases hop
          exact absurd ⟨c, hrec⟩ hlast
        · rw [List.concat_eq_append, ← List.cons_append, ← List.append_assoc] at he
          obtain ⟨c', hc'⟩ := ih ⟨before, op, rest, c, (List.append_inj' he rfl).1, hrec⟩
          exact ⟨c', lastRecord_concat.mpr (Or.inr ⟨hc', fun c hc => hlast ⟨c, hc⟩⟩)⟩
  · rintro ⟨c, before, op, rest, he, hrec, -⟩
    exact ⟨before, op, rest, c, he, hrec⟩

namespace Store

theorem labelled_after (ops : List Operation) : ((∅ : Store).after ops).Labelled := by
  induction ops using List.reverseRecOn with
  | nil => exact labelled_empty
  | append_singleton ops op ih =>
    rw [after_concat]
    exact Operation.labelled_apply ih op

/-- What is on record of a host is its last record. -/
theorem counters?_after (ops : List Operation) (id : Id) (host : String) (c : HostCounters) :
    ((∅ : Store).after ops).counters? id host = some c ↔ LastRecord ops id host c := by
  induction ops using List.reverseRecOn generalizing c with
  | nil =>
    have hnone : ((∅ : Store).after []).counters? id host = none := by
      change (∅ : Store).counters? id host = none
      rw [counters?, summaryTable_empty, Std.ExtTreeMap.getElem?_empty]
      rfl
    simp [hnone, not_lastRecord_nil]
  | append_singleton ops op ih =>
    rw [after_concat, Operation.counters?_apply (labelled_after ops), lastRecord_concat, ih]

/-- No record of a job that is not there was taken: jobs are never removed. -/
theorem not_anyRecord_of_missing {ops : List Operation} {id : Id}
    (hn : ((∅ : Store).after ops).findJob? id = none) (host : String) :
    ¬AnyRecord ops id host := by
  rintro ⟨before, op, rest, c, rfl, hrec⟩
  obtain ⟨-, j, hj, -⟩ := (Operation.recordsHost_iff (labelled_after before)).mp hrec
  have hkept := ((∅ : Store).after before).keeps_after (op :: rest)
  obtain ⟨j', hj', -⟩ := hkept.job hj
  rw [after_append, hj'] at hn
  cases hn

/-- Summaries that are listed after a run are those of the hosts with a record, each with its last
one. -/
theorem mem_summariesOf_after (ops : List Operation) (id : Id) (host : String)
    (c : HostCounters) :
    (∃ h ∈ ((∅ : Store).after ops).summariesOf id, h.hostName = host ∧ h.counters = c) ↔
      LastRecord ops id host c := by
  have hlabels := labelled_after ops
  rw [← counters?_after, counters?, Option.map_eq_some_iff]
  constructor
  · rintro ⟨h, hmem, rfl, rfl⟩
    exact ⟨h, (hlabels.mem_summariesOf id).mp hmem, rfl⟩
  · rintro ⟨h, hget, rfl⟩
    obtain ⟨-, rfl, -⟩ := hlabels id host h hget
    exact ⟨h, (hlabels.mem_summariesOf id).mpr hget, rfl, rfl⟩

/-- Records of other jobs leave the summaries of a job as they are. -/
theorem summaryTable_record_of_ne {s : Store} (hs : s.Labelled) {id k : Id} (hne : k ≠ id)
    (now : Timestamp) (host : String) (c : HostCounters) :
    ((Operation.recordSummary now k host c).apply s).summaryTable id = s.summaryTable id := by
  by_cases ha : s.HasActive k
  · rw [Operation.apply, Service.exec_recordSummary_of_active hs ha]
    exact (summaryTable_putSummary ..).trans (if_neg hne)
  · obtain ⟨e, herror⟩ := Service.exec_recordSummary_of_not_active ha now host c
    rw [Operation.apply, herror]

/-- Nothing changes the summaries of a job that is not active. -/
theorem summaryTable_apply_of_not_active {s : Store} (hs : s.Labelled) {id : Id}
    (ha : ¬s.HasActive id) (op : Operation) :
    (op.apply s).summaryTable id = s.summaryTable id := by
  rcases Operation.summaries_apply s op with ⟨now, k, host, c, rfl⟩ | h
  · by_cases hid : k = id
    · obtain ⟨e, herror⟩ := Service.exec_recordSummary_of_not_active (hid ▸ ha) now host c
      rw [Operation.apply, herror]
    · exact summaryTable_record_of_ne hs hid now host c
  · rw [summaryTable, h]
    rfl

end Store

namespace Service
variable {s : Store}

theorem exec_listSummaries {id : Id} {j : Job} (hj : s.findJob? id = some j) :
    (listSummaries id).exec s = (.ok (s.summariesOf id), s) := by
  rw [listSummaries, exec_bind_of_ok (exec_loadJob_eq_ok.mpr ⟨hj, rfl⟩)]
  rfl

theorem exec_loadJob_of_none {id : Id} (hj : s.findJob? id = none) :
    (loadJob id).exec s = (.error (.jobNotFound id), s) := by
  rw [loadJob, exec_bind, exec_get]
  simp only [hj, found, exec_throw]

theorem exec_retryHosts {id : Id} {text : String} {status : HostStatus}
    (ht : ofWord? text = some status) {j : Job} (hj : s.findJob? id = some j) :
    (retryHosts id text).exec s = (.ok (hostsWith id status s), s) := by
  rw [retryHosts, exec_bind_of_ok (exec_found_eq_ok.mpr ⟨ht, rfl⟩),
    exec_bind_of_ok (exec_loadJob_eq_ok.mpr ⟨hj, rfl⟩)]
  rfl

theorem exec_retryHosts_of_none {id : Id} {text : String} {status : HostStatus}
    (ht : ofWord? text = some status) (hj : s.findJob? id = none) :
    (retryHosts id text).exec s = (.error (.jobNotFound id), s) := by
  rw [retryHosts, exec_bind_of_ok (exec_found_eq_ok.mpr ⟨ht, rfl⟩),
    exec_bind_of_error (exec_loadJob_of_none hj)]

theorem hostsWith_eq (hs : s.Labelled) (id : Id) (status : HostStatus) :
    hostsWith id status s =
      ((s.summariesOf id).filter fun h => h.counters.has status).map (·.hostName) := by
  rw [hostsWith]
  congr 1
  apply List.filter_congr
  intro h hm
  exact hs.selects_iff id hm status

end Service

/-- Whether a list of summaries says of a job what the last records of its hosts in a run say. -/
structure SaysLast (ops : List Operation) (id : Id) (l : List HostSummary) : Prop where
  /-- Host names are in order, and no name is there twice. -/
  sorted : (l.map (·.hostName)).Pairwise (· < ·)
  recorded : ∀ host, (∃ h ∈ l, h.hostName = host) ↔ AnyRecord ops id host
  last : ∀ host c, (∃ h ∈ l, h.hostName = host ∧ h.counters = c) ↔ LastRecord ops id host c
  derived : ∀ h ∈ l, h.jobId = id ∧ (h.failed ↔ 0 < h.counters.dark ∨ 0 < h.counters.failures)

structure Summarizes (ops : List Operation) (id : Id) : Prop where
  /-- A record is taken exactly while the job is there and active. -/
  taken : ∀ now host c, (∃ h s', (Service.recordSummary now id host c).exec
    ((∅ : Store).after ops) = (.ok h, s')) ↔ ((∅ : Store).after ops).HasActive id
  /-- A job that is there is listed with the last records, and a retry takes the hosts whose last
  counters have the status. -/
  listed : ∀ j, ((∅ : Store).after ops).findJob? id = some j →
    ∃ l, SaysLast ops id l ∧
      (Service.listSummaries id).exec ((∅ : Store).after ops) = (.ok l, (∅ : Store).after ops) ∧
      ∀ text status, ofWord? text = some status →
        (Service.retryHosts id text).exec ((∅ : Store).after ops) =
          (.ok ((l.filter fun h => h.counters.has status).map (·.hostName)),
            (∅ : Store).after ops)
  /-- A job that is not there has no records, and nothing of it can be listed. -/
  missing : ((∅ : Store).after ops).findJob? id = none →
    (∀ host, ¬AnyRecord ops id host) ∧
      (Service.listSummaries id).exec ((∅ : Store).after ops) =
        (.error (.jobNotFound id), (∅ : Store).after ops) ∧
      ∀ text (status : HostStatus), ofWord? text = some status →
        (Service.retryHosts id text).exec ((∅ : Store).after ops) =
          (.error (.jobNotFound id), (∅ : Store).after ops)
  /-- Records of other jobs change nothing that is listed. -/
  alone : ∀ now k host c, k ≠ id →
    ((∅ : Store).after (ops ++ [.recordSummary now k host c])).summariesOf id =
      ((∅ : Store).after ops).summariesOf id
  /-- Nothing changes what is listed of a job that has ended. -/
  frozen : ¬((∅ : Store).after ops).HasActive id → ∀ op,
    ((∅ : Store).after (ops ++ [op])).summariesOf id = ((∅ : Store).after ops).summariesOf id

theorem saysLast_summariesOf (ops : List Operation) (id : Id) :
    SaysLast ops id (((∅ : Store).after ops).summariesOf id) where
  sorted := (Store.labelled_after ops).pairwise_summariesOf id
  recorded host := by
    rw [anyRecord_iff]
    simp only [← Store.mem_summariesOf_after]
    constructor
    · rintro ⟨h, hmem, hhost⟩
      exact ⟨h.counters, h, hmem, hhost, rfl⟩
    · rintro ⟨-, h, hmem, hhost, -⟩
      exact ⟨h, hmem, hhost⟩
  last := Store.mem_summariesOf_after ops id
  derived h hmem := by
    have hlabels := Store.labelled_after ops
    obtain ⟨hid, -, hf⟩ := hlabels id _ h ((hlabels.mem_summariesOf id).mp hmem)
    exact ⟨hid, by rw [hf]; simp [HostCounters.failed]⟩

/-- The summaries of a job are the last records of its hosts, and they stay what they are when the
job ends. -/
theorem summaries_are_last_records (ops : List Operation) (id : Id) : Summarizes ops id where
  taken now host c := Service.recordSummary_eq_ok_iff (Store.labelled_after ops) now id host c
  listed j hj := by
    refine ⟨_, saysLast_summariesOf ops id, Service.exec_listSummaries hj, ?_⟩
    intro text status ht
    rw [Service.exec_retryHosts ht hj, Service.hostsWith_eq (Store.labelled_after ops)]
  missing hn := by
    refine ⟨Store.not_anyRecord_of_missing hn, ?_, ?_⟩
    · rw [Service.listSummaries, Service.exec_bind_of_error (Service.exec_loadJob_of_none hn)]
    · intro text status ht
      exact Service.exec_retryHosts_of_none ht hn
  alone now k host c hne := by
    rw [Store.after_concat, Store.summariesOf,
      Store.summaryTable_record_of_ne (Store.labelled_after ops) hne]
    rfl
  frozen ha op := by
    rw [Store.after_concat, Store.summariesOf,
      Store.summaryTable_apply_of_not_active (Store.labelled_after ops) ha]
    rfl

def Operation.recordedRun : List Operation := [
  .saveTemplate (.job .halves),
  .launch default (.counting 10) ⟨1⟩ {},
  .recordSummary default ⟨11⟩ "web" { failures := 1 },
  .recordSummary default ⟨11⟩ "web" { ok := 2 },
  .updateStatus ⟨11⟩ .succeeded default,
  .recordSummary default ⟨11⟩ "web" { dark := 1 }]

/-- The second record is the last one, and it is listed. -/
theorem second_record_is_listed : LastRecord Operation.recordedRun ⟨11⟩ "web" { ok := 2 } ∧
    ∃ l, SaysLast Operation.recordedRun ⟨11⟩ l ∧ l.map (·.counters) = [{ ok := 2 }] ∧
      (Service.listSummaries ⟨11⟩).exec ((∅ : Store).after Operation.recordedRun) =
        (.ok l, (∅ : Store).after Operation.recordedRun) := by
  have hlast : LastRecord Operation.recordedRun ⟨11⟩ "web" { ok := 2 } :=
    (Store.counters?_after Operation.recordedRun ⟨11⟩ "web" { ok := 2 }).mp rfl
  obtain ⟨j, hj⟩ : ∃ j, ((∅ : Store).after Operation.recordedRun).findJob? ⟨11⟩ = some j := ⟨_, rfl⟩
  obtain ⟨l, hsays, hlist, -⟩ :=
    (summaries_are_last_records Operation.recordedRun ⟨11⟩).listed j hj
  refine ⟨hlast, l, hsays, ?_, hlist⟩
  rw [Service.exec_listSummaries hj] at hlist
  cases hlist
  rfl

end JobLaunch
