import JobLaunch.Proofs.UpdateBatches
/-!
Fact caches that are written to an empty directory. Names that differ in slashes and dots at the end
stand for one file. Hosts with such names share it: the last of them writes it, and all of them read
what it says.
-/
namespace JobLaunch

/-- A host has a file when its name is the name of one, with slashes and dots after it. -/
theorem cacheFile?_eq_some_iff {host name : String} :
    cacheFile? host = some name ↔ FileTree.isName name ∧ ∃ rest,
      FileTree.components host = name :: rest ∧ ∀ part ∈ rest, part = "" ∨ part = "." := by
  unfold cacheFile?
  rw [Option.filter_eq_some_iff]
  constructor
  · rintro ⟨hname, hs⟩
    exact ⟨hs, (of_cacheName?_eq_some hname).2⟩
  · rintro ⟨hs, rest, hparts, hdots⟩
    refine ⟨?_, hs⟩
    have hplain : name ∉ ["", ".", ".."] := by simpa using FileTree.ne_of_isName hs
    have hrest : ¬rest.any fun part => part ≠ "" && part ≠ "." := by
      simpa [or_iff_not_imp_left] using hdots
    rw [cacheName?, hparts]
    simp only []
    rw [if_neg (not_or.mpr ⟨hplain, hrest⟩)]

def SharesFile (host other : String) : Prop :=
  ∃ name ∈ cacheFile? host, cacheFile? other = some name

instance (host other : String) : Decidable (SharesFile host other) := by
  unfold SharesFile
  infer_instance

/-- A host without slashes in its name shares its file with no other such host. -/
theorem eq_of_sharesFile {host other : String} (h : SharesFile host other)
    (hhost : '/' ∉ host.toList) (hother : '/' ∉ other.toList) : host = other := by
  obtain ⟨name, hname, hname'⟩ := h
  obtain ⟨-, rest, hparts, -⟩ := cacheFile?_eq_some_iff.mp hname
  obtain ⟨-, rest', hparts', -⟩ := cacheFile?_eq_some_iff.mp hname'
  rw [FileTree.components, Text.splitOn_of_not_mem hhost] at hparts
  rw [FileTree.components, Text.splitOn_of_not_mem hother] at hparts'
  simp only [List.map_cons, String.ofList_toList, List.cons.injEq] at hparts hparts'
  rw [hparts.1, hparts'.1]

def lastWith? (hosts : List Host) (name : String) : Option Host :=
  hosts.findRev? fun h => cacheFile? h.name = some name

section
variable {hosts : List Host} {h : Host} {name : String}

theorem lastWith?_concat_self (hname : cacheFile? h.name = some name) :
    lastWith? (hosts ++ [h]) name = some h := by
  rw [lastWith?, List.findRev?_eq_find?_reverse, List.reverse_append, List.reverse_singleton,
    List.singleton_append, List.find?_cons_of_pos (by simpa using hname)]

theorem lastWith?_concat_of_ne (hname : cacheFile? h.name ≠ some name) :
    lastWith? (hosts ++ [h]) name = lastWith? hosts name := by
  rw [lastWith?, lastWith?, List.findRev?_eq_find?_reverse, List.findRev?_eq_find?_reverse,
    List.reverse_append, List.reverse_singleton, List.singleton_append,
    List.find?_cons_of_neg (by simpa using hname)]

theorem of_lastWith?_eq_some (hl : lastWith? hosts name = some h) :
    h ∈ hosts ∧ cacheFile? h.name = some name := by
  rw [lastWith?, List.findRev?_eq_find?_reverse] at hl
  have hname := List.find?_some hl
  exact ⟨List.mem_reverse.mp (List.mem_of_find?_eq_some hl), by simpa using hname⟩

theorem lastWith?_eq_none_iff :
    lastWith? hosts name = none ↔ ∀ h ∈ hosts, cacheFile? h.name ≠ some name := by
  simp [lastWith?, List.findRev?_eq_find?_reverse]

end

@[simp] theorem Host.isStale_none (h : Host) : h.isStale none = false := rfl

structure FileTree.MadeEmpty (now : Timestamp) (t : FileTree) (directory : FilePath)
    (made : FileTree) (root : FilePath) : Prop where
  makes : makeDirectories? now t [] directory = some made
  reached : made.walk linkLimit [] directory = .node root
  isEmpty : made.IsEmpty root

namespace CacheStart

/-- A directory that is filled with the facts of hosts. Every host that can have a file counts as
written, and in a file are the facts of the last host that has it. -/
structure Filled (clock : Nat → Timestamp) (directory root : FilePath) (hosts : List Host)
    (t : FileTree) (start : CacheStart) : Prop where
  reached : t.walk FileTree.linkLimit [] directory = .node root
  isDirectory : t.isDirectory root
  vacant : ∀ name, lastWith? hosts name = none → t.nodes[root ++ [name]]? = none
  file : ∀ name h, lastWith? hosts name = some h → ∃ i < start.written,
    t.nodes[root ++ [name]]? = some (.file h.facts.toJson.compact (clock i))
  written : start.written = hosts.countP fun h => (cacheFile? h.name).isSome

namespace Filled
variable {clock : Nat → Timestamp} {directory root : FilePath} {hosts : List Host}
  {t t' made : FileTree} {start : CacheStart}

theorem of_madeEmpty {now : Timestamp} (h : t.MadeEmpty now directory made root) :
    Filled clock directory root [] made {} where
  reached := h.reached
  isDirectory := FileTree.isDirectory_of_makeDirectories?
    (FileTree.isDirectory_iff.mpr (Or.inl rfl)) h.makes (FileTree.leads_of_walk h.reached)
  vacant name _ := h.isEmpty name
  file name h hl := by cases hl
  written := rfl

/-- What stands in the place of a host's file is a file. -/
theorem isFile (hf : Filled clock directory root hosts t start) {name : String} {node : FileNode}
    (hn : t.nodes[root ++ [name]]? = some node) : ∃ text modified, node = .file text modified := by
  cases hl : lastWith? hosts name with
  | none =>
    rw [hf.vacant name hl] at hn
    cases hn
  | some h =>
    obtain ⟨i, -, hfile⟩ := hf.file name h hl
    rw [hfile, Option.some.injEq] at hn
    exact ⟨_, _, hn.symm⟩

/-- A host without a file changes nothing. -/
theorem pass (hf : Filled clock directory root hosts t start) {h : Host}
    (hname : cacheFile? h.name = none) : Filled clock directory root (hosts ++ [h]) t start := by
  have hlast (name : String) : lastWith? (hosts ++ [h]) name = lastWith? hosts name :=
    lastWith?_concat_of_ne (by simp [hname])
  constructor
  case reached => exact hf.reached
  case isDirectory => exact hf.isDirectory
  case vacant =>
    intro name hl
    exact hf.vacant name (hlast name ▸ hl)
  case file =>
    intro name last hl
    exact hf.file name last (hlast name ▸ hl)
  case written => rw [List.countP_append, hf.written]; simp [hname]

/-- A host with a file overwrites it, and no other. -/
theorem write (hf : Filled clock directory root hosts t start) {h : Host} {name : String}
    (hname : cacheFile? h.name = some name) (hg : t.Grows t')
    (hself : t'.nodes[root ++ [name]]? =
      some (.file h.facts.toJson.compact (clock start.written)))
    (hother : ∀ other, name ≠ other → t'.nodes[root ++ [other]]? = t.nodes[root ++ [other]]?) :
    Filled clock directory root (hosts ++ [h]) t'
      ⟨start.written + 1, some (clock start.written)⟩ := by
  have hlast {other : String} (hne : name ≠ other) :
      lastWith? (hosts ++ [h]) other = lastWith? hosts other :=
    lastWith?_concat_of_ne (by simpa [hname] using hne)
  constructor
  case reached => exact hg.walk hf.reached
  case isDirectory => exact hg.isDirectory hf.isDirectory
  case vacant =>
    intro other hl
    by_cases he : name = other
    · rw [← he, lastWith?_concat_self hname] at hl
      cases hl
    · rw [hother other he]
      exact hf.vacant other (hlast he ▸ hl)
  case file =>
    intro other last hl
    by_cases he : name = other
    · rw [← he, lastWith?_concat_self hname, Option.some.injEq] at hl
      rw [← he, ← hl]
      exact ⟨start.written, Nat.lt_succ_self _, hself⟩
    · obtain ⟨i, hi, hfile⟩ := hf.file other last (hlast he ▸ hl)
      exact ⟨i, Nat.lt_succ_of_lt hi, (hother other he).trans hfile⟩
  case written => rw [List.countP_append, ← hf.written]; simp [hname]

theorem step (hf : Filled clock directory root hosts t start) (h : Host) :
    Filled clock directory root (hosts ++ [h])
      (CacheStart.step directory none clock (t, start) h).1
      (CacheStart.step directory none clock (t, start) h).2 := by
  cases hname : cacheFile? h.name with
  | none =>
    rw [step_of_isClosed (CacheEntry.isClosed_find_of_no_file hf.reached hname)]
    exact hf.pass hname
  | some name =>
    obtain ⟨t', hw, hg, hself, hother⟩ :=
      CacheEntry.write?_find hf.reached hf.isDirectory hname (fun _ hn => hf.isFile hn)
        h.facts.toJson.compact (clock start.written)
    unfold CacheStart.step
    rw [if_neg (by simp)]
    simp only [hw]
    exact hf.write hname hg hself hother

theorem foldl (hf : Filled clock directory root hosts t start) (more : List Host) :
    Filled clock directory root (hosts ++ more)
      (more.foldl (CacheStart.step directory none clock) (t, start)).1
      (more.foldl (CacheStart.step directory none clock) (t, start)).2 :=
  foldl_of_step (P := fun hosts state => Filled clock directory root hosts state.1 state.2)
    (fun _ _ h hf => hf.step h) hf more

end Filled

/-- A start without a cutoff fills an empty directory. -/
theorem filled_runBy {clock : Nat → Timestamp} {directory root : FilePath} {t made : FileTree}
    (hempty : t.MadeEmpty (clock 0) directory made root) (hosts : List Host) :
    ∃ t' start, runBy clock directory hosts none t = .ok (t', start) ∧
      Filled clock directory root hosts t' start := by
  refine ⟨_, _, ?_, (Filled.of_madeEmpty hempty).foldl hosts⟩
  rw [runBy, hempty.makes]

end CacheStart

/-- What is read for a host without a write time: the facts of the last host that has its file. -/
theorem CacheStart.Filled.update?_read {clock : Nat → Timestamp} {directory root : FilePath}
    {hosts : List Host} {t : FileTree} {start : CacheStart}
    (hf : Filled clock directory root hosts t start)
    (hjson : ∀ h ∈ hosts, HostFacts.ofText? h.facts.toJson.compact = some h.facts) {h : Host}
    (hmem : h ∈ hosts) :
    (HostFacts.read t directory none h.name).update? =
      ((cacheFile? h.name).bind (lastWith? hosts)).map (·.facts) := by
  cases hname : cacheFile? h.name with
  | none =>
    rw [(CacheEntry.isClosed_find_of_no_file hf.reached hname).read_eq]
    rfl
  | some name =>
    rw [Option.bind_some]
    cases hl : lastWith? hosts name with
    | none => exact absurd hname (lastWith?_eq_none_iff.mp hl h hmem)
    | some last =>
      obtain ⟨i, -, hfile⟩ := hf.file name last hl
      have hfind := CacheEntry.find_occupied hf.reached hf.isDirectory hname hfile
      have hfacts := hjson last (of_lastWith?_eq_some hl).1
      rw [HostFacts.read_of_finds (.changed hfind hfile (by simp) hfacts)]
      rfl

def OwnFacts (hosts : List Host) (updates : List FactUpdate) : Prop :=
  ∀ u ∈ updates, ∀ h ∈ hosts, u.hostName = h.name → u.facts = h.facts

def sharedUpdates (hosts : List Host) (now : Timestamp) : List FactUpdate :=
  hosts.filterMap fun h =>
    ((cacheFile? h.name).bind (lastWith? hosts)).map fun last => ⟨h.name, last.facts, now⟩

theorem ownFacts_sharedUpdates_iff (hosts : List Host) (now : Timestamp) :
    OwnFacts hosts (sharedUpdates hosts now) ↔
      ∀ h ∈ hosts, ∀ other ∈ hosts, SharesFile h.name other.name → h.facts = other.facts := by
  constructor
  · -- both hosts have the facts of the last host with their file
    rintro hown h hh other ho ⟨name, hname, hname'⟩
    cases hl : lastWith? hosts name with
    | none => exact absurd hname (lastWith?_eq_none_iff.mp hl h hh)
    | some last =>
      have hupdate {k : Host} (hk : k ∈ hosts) (hkname : cacheFile? k.name = some name) :
          last.facts = k.facts := by
        apply hown ⟨k.name, last.facts, now⟩ _ k hk rfl
        exact List.mem_filterMap.mpr ⟨k, hk, by simp [hkname, hl]⟩
      rw [← hupdate hh hname, ← hupdate ho hname']
  · -- the host of an update has the same name, hence the same file
    intro hshare u hu h hh hu'
    obtain ⟨k, hk, hlast⟩ := List.mem_filterMap.mp hu
    obtain ⟨last, hl, rfl⟩ := Option.map_eq_some_iff.mp hlast
    obtain ⟨name, hname, hl⟩ := Option.bind_eq_some_iff.mp hl
    obtain ⟨hmem, hlname⟩ := of_lastWith?_eq_some hl
    change k.name = h.name at hu'
    exact hshare last hmem h hh ⟨name, hlname, hu' ▸ hname⟩

/-- What is read from a fact cache that was written to an empty directory, for each host that can have
a file: the facts of the last host that has the same file. So all hosts get their own facts when
hosts that share a file have the same facts, and only then; hosts of different names without slashes
share none. -/
theorem facts_of_last_host_are_read (clock : Nat → Timestamp) (hosts : List Host)
    {directory root : FilePath} {t made : FileTree}
    (hempty : t.MadeEmpty (clock 0) directory made root)
    (hjson : ∀ h ∈ hosts, HostFacts.ofText? h.facts.toJson.compact = some h.facts) :
    ∃ t' start, CacheStart.runBy clock directory hosts none t = .ok (t', start) ∧
      start.written = hosts.countP (fun h => (cacheFile? h.name).isSome) ∧
      ∀ size now,
        let updates := (CacheFinish.run directory size hosts none now t').batches.flatten
        updates = sharedUpdates hosts now ∧
        (OwnFacts hosts updates ↔
          ∀ h ∈ hosts, ∀ other ∈ hosts, SharesFile h.name other.name → h.facts = other.facts) ∧
        ((hosts.map (·.name)).Nodup → (∀ h ∈ hosts, '/' ∉ h.name.toList) →
          OwnFacts hosts updates) := by
  obtain ⟨t', start, hrun, hf⟩ := CacheStart.filled_runBy hempty hosts
  refine ⟨t', start, hrun, hf.written, fun size now => ?_⟩
  have hupdates : (CacheFinish.run directory size hosts none now t').batches.flatten =
      sharedUpdates hosts now := by
    rw [CacheFinish.flatten_batches_run, CacheFinish.updates, sharedUpdates]
    apply List.filterMap_congr
    intro h hmem
    rw [hf.update?_read hjson hmem, Option.map_map]
    rfl
  simp only [hupdates, ownFacts_sharedUpdates_iff, true_and]
  intro hnodup hslash h hh other ho hshare
  have hname := eq_of_sharesFile hshare (hslash h hh) (hslash other ho)
  rw [List.inj_on_of_nodup_map hnodup hh ho hname]

def slashedHosts : List Host :=
  [⟨"web", ⟨2⟩, (∅ : Vars).insert "os" (.text "linux"), none⟩,
    ⟨"web/", ⟨2⟩, (∅ : Vars).insert "os" (.text "bsd"), none⟩]

theorem FileTree.madeEmpty_oneDirectory :
    (∅ : FileTree).MadeEmpty default ["facts"] .oneDirectory ["facts"] where
  makes := makeDirectories?_empty_facts
  reached := walk_oneDirectory
  isEmpty name := by
    have hn : (∅ : FileTree).nodes[["facts", name]]? = none := Std.ExtTreeMap.getElem?_empty
    rw [oneDirectory, getElem?_put, if_neg (by simp), if_neg (by simp)]
    exact hn

theorem slashed_hosts_share_file : ∃ t start,
    CacheStart.runBy (fun _ => default) ["facts"] slashedHosts none ∅ = .ok (t, start) ∧
    start.written = 2 ∧
    (CacheFinish.run ["facts"] 100 slashedHosts none default t).batches.flatten =
      [⟨"web", (∅ : Vars).insert "os" (.text "bsd"), default⟩,
        ⟨"web/", (∅ : Vars).insert "os" (.text "bsd"), default⟩] ∧
    ¬OwnFacts slashedHosts
      (CacheFinish.run ["facts"] 100 slashedHosts none default t).batches.flatten := by
  obtain ⟨t, start, hrun, hwritten, hread⟩ := facts_of_last_host_are_read
    (fun _ => default) slashedHosts FileTree.madeEmpty_oneDirectory (by decide +kernel)
  obtain ⟨hupdates, hown, -⟩ := hread 100 default
  refine ⟨t, start, hrun, hwritten, hupdates, ?_⟩
  rw [hown]
  decide

end JobLaunch
