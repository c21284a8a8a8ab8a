import JobLaunch.Proofs.Calendar
import JobLaunch.Proofs.FilledCaches
/-!
The timeout of the fact cache. In the range of the calendar it keeps hosts with older facts, and those
with facts of unknown age, out of the cache. A timeout that reaches back beyond the calendar fails, and
one that no duration holds keeps no host out.
-/
namespace JobLaunch

/-- Whether the facts of a host are older than an age in seconds, or of unknown age. -/
def Host.isOlder (h : Host) (now : Timestamp) (age : Nat) : Bool :=
  h.factsModified.all fun modified => modified.before (now.plusSeconds (-age))

/-- Hosts that are stale are passed over, and a cutoff does nothing else. -/
theorem CacheStart.foldl_cutoff (directory : FilePath) (cutoff : Option Timestamp)
    (clock : Nat → Timestamp) (hosts : List Host) (state : FileTree × CacheStart) :
    hosts.foldl (step directory cutoff clock) state =
      (hosts.filter fun h => !h.isStale cutoff).foldl (step directory none clock) state := by
  rw [List.foldl_filter]
  congr 1
  funext state h
  cases hs : h.isStale cutoff with
  | false => simp [step, hs]
  | true => simp [step, hs]

theorem CacheStart.runBy_cutoff (clock : Nat → Timestamp) (directory : FilePath)
    (hosts : List Host) (cutoff : Option Timestamp) (t : FileTree) :
    runBy clock directory hosts cutoff t =
      runBy clock directory (hosts.filter fun h => !h.isStale cutoff) none t := by
  unfold runBy
  cases FileTree.makeDirectories? (clock 0) t [] directory with
  | none => rfl
  | some made => simp only [foldl_cutoff directory cutoff]

/-- Within the calendar no facts are as old as a timeout that no duration holds. -/
theorem Host.isOlder_beyond {h : Host} {now : Timestamp} {age : Nat} (hnow : now.InCalendar)
    (hm : ∀ modified ∈ h.factsModified, modified.InCalendar) (hage : longestTimeout < age) :
    h.isOlder now age ↔ h.factsModified = none := by
  cases hmodified : h.factsModified with
  | none => simp [isOlder, hmodified]
  | some modified =>
    have hspan : Timestamp.lastSecond - Timestamp.firstSecond < longestTimeout := by decide
    have hback := (hm modified hmodified).1
    have hahead := hnow.2
    have hseconds : (now.plusSeconds (-age)).seconds = now.seconds - age := rfl
    have hyounger : ¬modified.before (now.plusSeconds (-age)) := by
      rw [Timestamp.before, decide_eq_true_eq]
      omega
    simp [isOlder, hmodified, hyounger]

theorem Timestamp.minusSeconds?_eq (now : Timestamp) (age : Nat) :
    now.minusSeconds? age =
      if firstSecond ≤ now.seconds - age then some (now.plusSeconds (-age)) else none := rfl

namespace Config
variable {config : Config} (now : Timestamp)

theorem staleBefore_of_le (hpos : 0 < config.factCacheTimeout)
    (hrange : config.factCacheTimeout.toNat ≤ longestTimeout) :
    config.staleBefore now =
      if Timestamp.firstSecond ≤ now.seconds - config.factCacheTimeout.toNat then
        .ok (some (now.plusSeconds (-config.factCacheTimeout.toNat)))
      else .error .calendarExceeded := by
  have hpos' : 0 < config.factCacheTimeout.toNat := UInt64.lt_iff_toNat_lt.mp hpos
  unfold staleBefore
  simp only []
  rw [if_neg (by omega), Timestamp.minusSeconds?_eq]
  by_cases hback : Timestamp.firstSecond ≤ now.seconds - config.factCacheTimeout.toNat
  · rw [if_pos hback, if_pos hback]
  · rw [if_neg hback, if_neg hback]

theorem staleBefore_beyond (hrange : longestTimeout < config.factCacheTimeout.toNat) :
    config.staleBefore now = .ok none := by
  unfold staleBefore
  simp only []
  rw [if_pos (Or.inr hrange)]

end Config

/-- Whether preparing the fact cache of a job completes, and fills its directory with the facts of
some hosts. -/
def Prepares (clock : Nat → Timestamp) (config : Config) (now : Timestamp) (s : Store)
    (spec : JobSpec) (directory root : FilePath) (t : FileTree) (hosts : List Host) : Prop :=
  ∃ t' start, prepareFactsBy clock config now s spec directory t = .ok (t', start) ∧
    CacheStart.Filled clock directory root hosts t' start

section
variable {clock : Nat → Timestamp} {config : Config} (now : Timestamp) (s : Store) (spec : JobSpec)
  {directory root : FilePath} {t made : FileTree}

theorem prepares_of_cutoff {cutoff : Option Timestamp} (hc : config.staleBefore now = .ok cutoff)
    (hempty : t.MadeEmpty (clock 0) directory made root) :
    Prepares clock config now s spec directory root t
      ((s.hostsFor spec).filter fun h => !h.isStale cutoff) := by
  obtain ⟨t', start, hrun, hf⟩ := CacheStart.filled_runBy hempty
    ((s.hostsFor spec).filter fun h => !h.isStale cutoff)
  refine ⟨t', start, ?_, hf⟩
  rw [← CacheStart.runBy_cutoff] at hrun
  unfold prepareFactsBy
  rw [hc]
  exact hrun

/-- What a timeout does to the hosts of a job whose fact cache is prepared in an empty directory. As
long as the calendar reaches back to the time before which facts are too old, those of older or
unknown age are left out and all others written. Where it does not, nothing is prepared. A timeout that
no duration holds leaves no host out, so that facts of unknown age are written; no others are older. -/
theorem timeout_filters_hosts (clock : Nat → Timestamp) (config : Config) (now : Timestamp)
    (s : Store) (spec : JobSpec) (hpos : 0 < config.factCacheTimeout)
    (hempty : t.MadeEmpty (clock 0) directory made root) :
    let age := config.factCacheTimeout.toNat
    (age ≤ longestTimeout → Timestamp.firstSecond ≤ now.seconds - age →
      Prepares clock config now s spec directory root t
        ((s.hostsFor spec).filter fun h => !h.isOlder now age)) ∧
    (age ≤ longestTimeout → now.seconds - age < Timestamp.firstSecond →
      prepareFactsBy clock config now s spec directory t = .error .calendarExceeded) ∧
    (longestTimeout < age →
      Prepares clock config now s spec directory root t (s.hostsFor spec) ∧
      (now.InCalendar → ∀ h ∈ s.hostsFor spec,
        (∀ modified ∈ h.factsModified, modified.InCalendar) →
          (h.isOlder now age ↔ h.factsModified = none))) := by
  refine ⟨fun hrange hback => ?_, fun hrange hback => ?_, fun hrange => ⟨?_, ?_⟩⟩
  · have hcut := config.staleBefore_of_le now hpos hrange
    rw [if_pos hback] at hcut
    exact prepares_of_cutoff now s spec hcut hempty
  · have hcut := config.staleBefore_of_le now hpos hrange
    rw [if_neg (by omega)] at hcut
    unfold prepareFactsBy
    rw [hcut]
    rfl
  · have hall := prepares_of_cutoff now s spec (config.staleBefore_beyond now hrange) hempty
    simpa using hall
  · intro hnow h _ hm
    exact Host.isOlder_beyond hnow hm hrange

end

def Config.ofTimeout (seconds : UInt64) : Config :=
  { (default : Config) with factCacheTimeout := seconds }

/-- Facts of unknown age under an hour, a time before the calendar, and more than any duration. -/
theorem unknown_age_by_timeout :
    let prepared (seconds : UInt64) := prepareFactsBy (fun _ => default) (.ofTimeout seconds) default
      ((∅ : Store).insertHosts ⟨2⟩ [.ofUnknownAge]) .onOneHost ["facts"] ∅
    (∃ t start, prepared 3600 = .ok (t, start) ∧ start.written = 0) ∧
    prepared 10000000000000 = .error .calendarExceeded ∧
    ∃ t start, prepared 9223372036854775808 = .ok (t, start) ∧ start.written = 1 := by
  have hone : ((∅ : Store).insertHosts ⟨2⟩ [.ofUnknownAge]).hostsFor .onOneHost =
      [.ofUnknownAge] := rfl
  have hfilter (seconds : UInt64) (hpos : 0 < seconds) :=
    timeout_filters_hosts (fun _ => default) (.ofTimeout seconds) default
      ((∅ : Store).insertHosts ⟨2⟩ [.ofUnknownAge]) .onOneHost hpos FileTree.madeEmpty_oneDirectory
  simp only [hone] at hfilter
  refine ⟨?_, ?_, ?_⟩
  · obtain ⟨t, start, hrun, hf⟩ := (hfilter 3600 (by decide)).1 (by decide) (by decide)
    exact ⟨t, start, hrun, hf.written⟩
  · exact (hfilter 10000000000000 (by decide)).2.1 (by decide) (by decide)
  · obtain ⟨⟨t, start, hrun, hf⟩, -⟩ :=
      (hfilter 9223372036854775808 (by decide)).2.2 (by decide)
    exact ⟨t, start, hrun, hf.written⟩

end JobLaunch
