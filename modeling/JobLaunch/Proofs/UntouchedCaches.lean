import Mathlib.Data.List.Basic
import JobLaunch.Proofs.FactUpdates
import JobLaunch.Proofs.FileWalks
/-!
Fact caches that nothing touches between the writing and the reading. Every file that was written is
found unmodified. A host whose facts were too old to be written has no file, unless another host has
it, and a file that is not there is taken for one that was removed.
-/
namespace JobLaunch

def cacheFile? (host : String) : Option String := (cacheName? host).filter FileTree.isName

namespace CacheEntry
variable {t : FileTree} {directory root : FilePath} {host name : String}

inductive IsClosed : CacheEntry → Prop
  | refused : IsClosed refused
  | unusable : IsClosed unusable

theorem IsClosed.write?_eq {e : CacheEntry} (h : e.IsClosed) (t : FileTree) (text : String)
    (now : Timestamp) : e.write? t text now = none := by
  cases h <;> rfl

theorem isClosed_find_of_barred (h : t.walk FileTree.linkLimit [] directory = .barred) :
    (find t directory host).IsClosed := by
  unfold find
  split
  · exact .refused
  · rw [h]
    split <;> exact .unusable

theorem isClosed_find_of_no_file (hw : t.walk FileTree.linkLimit [] directory = .node root)
    (h : cacheFile? host = none) : (find t directory host).IsClosed := by
  unfold find
  split
  · exact .refused
  · rename_i name hname
    have hn : FileTree.isName name = false := by simpa [cacheFile?, hname] using h
    rw [hw]
    simp only [hn, Bool.not_false, Bool.or_true, if_true]
    split <;> exact .unusable

theorem find_of_file (hw : t.walk FileTree.linkLimit [] directory = .node root)
    (hd : t.isDirectory root) (h : cacheFile? host = some name) :
    find t directory host = match t.nodes[root ++ [name]]? with
      | none => vacant (some (root ++ [name]))
      | some _ =>
        match t.walk FileTree.linkLimit root [name] with
        | .node path => if root.isPrefixOf path then occupied path else refused
        | _ => refused := by
  obtain ⟨hc, hn⟩ := Option.filter_eq_some_iff.mp h
  have hsmall : (name.contains '\x00' || pathLimit ≤ name.utf8ByteSize) = false := by
    simp only [FileTree.isName, Bool.and_eq_true, decide_eq_true_eq, List.all_eq_true] at hn
    obtain ⟨⟨-, hsize⟩, hchars⟩ := hn
    have hnul : '\x00' ∉ name.toList := fun hmem => (hchars _ hmem).2 rfl
    have hle : ¬pathLimit ≤ name.utf8ByteSize := by
      unfold FileTree.nameLimit at hsize
      unfold pathLimit
      omega
    simp [String.contains_char_eq, hnul, hle]
  unfold find
  simp only [hc, hsmall, hw, hd, hn]
  rfl

theorem find_vacant (hw : t.walk FileTree.linkLimit [] directory = .node root)
    (hd : t.isDirectory root) (h : cacheFile? host = some name)
    (hn : t.nodes[root ++ [name]]? = none) :
    find t directory host = vacant (some (root ++ [name])) := by
  rw [find_of_file hw hd h, hn]

theorem find_occupied (hw : t.walk FileTree.linkLimit [] directory = .node root)
    (hd : t.isDirectory root) (h : cacheFile? host = some name) {text : String}
    {modified : Timestamp} (hn : t.nodes[root ++ [name]]? = some (.file text modified)) :
    find t directory host = occupied (root ++ [name]) := by
  have hname : FileTree.isName name := (Option.filter_eq_some_iff.mp h).2
  have hwalk : t.walk FileTree.linkLimit root [name] = .node (root ++ [name]) := by
    apply FileTree.Leads.walk_eq
    exact .enter hd hname hn (by intro target he; cases he) .done
  rw [find_of_file hw hd h, hn, hwalk]
  simp

/-- Where nothing but a file stands, the file of a host can be written, and that changes no other
file. -/
theorem write?_find (hw : t.walk FileTree.linkLimit [] directory = .node root)
    (hd : t.isDirectory root) (h : cacheFile? host = some name)
    (hfile : ∀ node, t.nodes[root ++ [name]]? = some node → ∃ old before, node = .file old before)
    (text : String) (now : Timestamp) :
    ∃ t', (find t directory host).write? t text now = some t' ∧ t.Grows t' ∧
      t'.nodes[root ++ [name]]? = some (.file text now) ∧
      ∀ other, name ≠ other → t'.nodes[root ++ [other]]? = t.nodes[root ++ [other]]? := by
  cases hn : t.nodes[root ++ [name]]? with
  | none =>
    rw [find_vacant hw hd h hn]
    refine ⟨_, rfl, FileTree.grows_put hn _ now, ?_, ?_⟩
    · rw [FileTree.getElem?_put, if_pos rfl]
    · intro other hne
      rw [FileTree.getElem?_put, if_neg (by simpa using hne), if_neg (by simp)]
  | some node =>
    obtain ⟨old, before, rfl⟩ := hfile node hn
    rw [find_occupied hw hd h hn]
    have hwrite : (occupied (root ++ [name])).write? t text now =
        some { t with nodes := t.nodes.insert (root ++ [name]) (.file text now) } := by
      simp only [write?, FileTree.write?, hn]
    refine ⟨_, hwrite, FileTree.grows_overwrite hn, ?_, ?_⟩
    · exact Std.ExtTreeMap.getElem?_insert_self
    · intro other hne
      simp [Std.ExtTreeMap.getElem?_insert, hne]

end CacheEntry

/-- What holds of the hosts so far, and one more step keeps, holds of all hosts in the end. -/
theorem CacheStart.foldl_of_step {P : List Host → FileTree × CacheStart → Prop}
    {f : FileTree × CacheStart → Host → FileTree × CacheStart}
    (hstep : ∀ hosts state h, P hosts state → P (hosts ++ [h]) (f state h)) {hosts : List Host}
    {state : FileTree × CacheStart} (h : P hosts state) (more : List Host) :
    P (hosts ++ more) (more.foldl f state) := by
  induction more generalizing hosts state with
  | nil =>
    rw [List.append_nil]
    exact h
  | cons host more ih =>
    have hrest := ih (hstep hosts state host h)
    rw [List.append_assoc] at hrest
    exact hrest

/-- A directory that holds the facts of hosts and nothing else. The hosts that are not stale have
files, and no file is newer than the last write. -/
structure Cached (clock : Nat → Timestamp) (cutoff : Option Timestamp) (directory root : FilePath)
    (hosts : List Host) (t : FileTree) (start : CacheStart) : Prop where
  reached : t.walk FileTree.linkLimit [] directory = .node root
  isDirectory : t.isDirectory root
  file : ∀ (name : String) (node : FileNode), t.nodes[root ++ [name]]? = some node →
    ∃ text, ∃ i < start.written, node = .file text (clock i)
  missing : ∀ name, t.nodes[root ++ [name]]? = none ↔
    ∀ h ∈ hosts, cacheFile? h.name = some name → h.isStale cutoff
  lastWrite : ∀ i < start.written, ∃ last, start.lastWrite = some last ∧ ¬last.before (clock i)

namespace Cached
variable {clock : Nat → Timestamp} {cutoff : Option Timestamp} {directory root : FilePath}
  {hosts : List Host} {t : FileTree} {start : CacheStart}

theorem of_isEmpty (hw : t.walk FileTree.linkLimit [] directory = .node root)
    (hd : t.isDirectory root) (he : t.IsEmpty root) :
    Cached clock cutoff directory root [] t {} where
  reached := hw
  isDirectory := hd
  file name node hn := by
    rw [he] at hn
    cases hn
  missing name := by simp [he name]
  lastWrite i hi := by cases hi

theorem write?_eq (hc : Cached clock cutoff directory root hosts t start) {host name : String}
    (hname : cacheFile? host = some name) (text : String) (now : Timestamp) :
    ∃ t', (CacheEntry.find t directory host).write? t text now = some t' ∧ t.Grows t' ∧
      t'.nodes[root ++ [name]]? = some (.file text now) ∧
      ∀ other, name ≠ other → t'.nodes[root ++ [other]]? = t.nodes[root ++ [other]]? := by
  apply CacheEntry.write?_find hc.reached hc.isDirectory hname
  intro node hn
  obtain ⟨old, i, -, he⟩ := hc.file name node hn
  exact ⟨old, clock i, he⟩

theorem forall_mem_concat {h : Host} {name : String}
    (hp : cacheFile? h.name = some name → h.isStale cutoff) :
    (∀ other ∈ hosts ++ [h], cacheFile? other.name = some name → other.isStale cutoff) ↔
      ∀ other ∈ hosts, cacheFile? other.name = some name → other.isStale cutoff := by
  rw [List.forall_mem_append, List.forall_mem_singleton, and_iff_left hp]

/-- A host that is passed over has no file to wait for. -/
theorem pass (hc : Cached clock cutoff directory root hosts t start) {h : Host}
    (hp : h.isStale cutoff ∨ cacheFile? h.name = none) :
    Cached clock cutoff directory root (hosts ++ [h]) t start := by
  refine { hc with missing := ?_ }
  intro name
  rw [hc.missing, forall_mem_concat]
  intro hname
  rcases hp with hp | hp
  · exact hp
  · rw [hp] at hname
    cases hname

variable (hclock : ∀ i j, i ≤ j → ¬(clock j).before (clock i))
include hclock

/-- A host that is written has its file, which is the newest. -/
theorem write (hc : Cached clock cutoff directory root hosts t start) {h : Host}
    {name text : String} (hfresh : ¬h.isStale cutoff) (hname : cacheFile? h.name = some name)
    {t' : FileTree} (hg : t.Grows t')
    (hself : t'.nodes[root ++ [name]]? = some (.file text (clock start.written)))
    (hother : ∀ other, name ≠ other →
      t'.nodes[root ++ [other]]? = t.nodes[root ++ [other]]?) :
    Cached clock cutoff directory root (hosts ++ [h]) t'
      ⟨start.written + 1, some (clock start.written)⟩ where
  reached := hg.walk hc.reached
  isDirectory := hg.isDirectory hc.isDirectory
  file other node hn := by
    by_cases he : name = other
    · subst he
      rw [hself, Option.some.injEq] at hn
      exact ⟨text, start.written, Nat.lt_succ_self _, hn.symm⟩
    · rw [hother other he] at hn
      obtain ⟨old, i, hi, rfl⟩ := hc.file other node hn
      exact ⟨old, i, Nat.lt_succ_of_lt hi, rfl⟩
  missing other := by
    by_cases he : name = other
    · subst he
      rw [hself]
      constructor
      · intro hn
        cases hn
      · intro hall
        exact absurd (hall h (List.mem_append_right _ (List.mem_singleton_self h)) hname) hfresh
    · rw [hother other he, hc.missing, forall_mem_concat]
      intro hn
      rw [hname, Option.some.injEq] at hn
      exact absurd hn he
  lastWrite i hi := ⟨_, rfl, hclock i start.written (Nat.le_of_lt_succ hi)⟩

theorem step (hc : Cached clock cutoff directory root hosts t start) (h : Host) :
    Cached clock cutoff directory root (hosts ++ [h])
      (CacheStart.step directory cutoff clock (t, start) h).1
      (CacheStart.step directory cutoff clock (t, start) h).2 := by
  unfold CacheStart.step
  by_cases hs : h.isStale cutoff
  · rw [if_pos hs]
    exact hc.pass (Or.inl hs)
  rw [if_neg hs]
  simp only []
  cases hname : cacheFile? h.name with
  | none =>
    rw [(CacheEntry.isClosed_find_of_no_file hc.reached hname).write?_eq]
    exact hc.pass (Or.inr hname)
  | some name =>
    obtain ⟨t', hw, hg, hself, hother⟩ :=
      hc.write?_eq hname h.facts.toJson.compact (clock start.written)
    rw [hw]
    exact hc.write hclock hs hname hg hself hother

theorem foldl (hc : Cached clock cutoff directory root hosts t start) (more : List Host) :
    Cached clock cutoff directory root (hosts ++ more)
      (more.foldl (CacheStart.step directory cutoff clock) (t, start)).1
      (more.foldl (CacheStart.step directory cutoff clock) (t, start)).2 :=
  CacheStart.foldl_of_step (P := fun hosts state =>
    Cached clock cutoff directory root hosts state.1 state.2)
    (fun _ _ h hc => hc.step hclock h) hc more

end Cached

/-- A host without a place that is looked into is passed over. -/
theorem CacheStart.step_of_isClosed {clock : Nat → Timestamp} {cutoff : Option Timestamp}
    {directory : FilePath} {t : FileTree} {h : Host}
    (hc : (CacheEntry.find t directory h.name).IsClosed) (start : CacheStart) :
    step directory cutoff clock (t, start) h = (t, start) := by
  unfold step
  simp only [hc.write?_eq, ite_self]

/-- Where the directory is out of reach nothing is written. -/
theorem CacheStart.foldl_of_barred {clock : Nat → Timestamp} {cutoff : Option Timestamp}
    {directory : FilePath} {t : FileTree} (h : t.walk FileTree.linkLimit [] directory = .barred)
    (hosts : List Host) (start : CacheStart) :
    hosts.foldl (step directory cutoff clock) (t, start) = (t, start) := by
  induction hosts with
  | nil => rfl
  | cons host hosts ih =>
    rw [List.foldl_cons, step_of_isClosed (CacheEntry.isClosed_find_of_barred h), ih]

theorem prepareFactsBy_of_made {clock : Nat → Timestamp} {config : Config} {now : Timestamp}
    {cutoff : Option Timestamp} {s : Store} {spec : JobSpec} {directory : FilePath}
    {t made : FileTree} (hc : config.staleBefore now = .ok cutoff)
    (hm : FileTree.makeDirectories? (clock 0) t [] directory = some made) :
    prepareFactsBy clock config now s spec directory t =
      .ok ((s.hostsFor spec).foldl (CacheStart.step directory cutoff clock) (made, {})) := by
  unfold prepareFactsBy
  rw [hc]
  change CacheStart.runBy clock directory (s.hostsFor spec) cutoff t = _
  unfold CacheStart.runBy
  rw [hm]

/-- What is prepared has a cutoff, and a directory that was made. -/
theorem of_prepareFactsBy_eq_ok {clock : Nat → Timestamp} {config : Config} {now : Timestamp}
    {s : Store} {spec : JobSpec} {directory : FilePath} {t t' : FileTree} {start : CacheStart}
    (h : prepareFactsBy clock config now s spec directory t = .ok (t', start)) :
    ∃ cutoff made, config.staleBefore now = .ok cutoff ∧
      FileTree.makeDirectories? (clock 0) t [] directory = some made ∧
      (s.hostsFor spec).foldl (CacheStart.step directory cutoff clock) (made, {}) =
        (t', start) := by
  cases hc : config.staleBefore now with
  | error e =>
    unfold prepareFactsBy at h
    rw [hc] at h
    cases h
  | ok cutoff =>
    cases hm : FileTree.makeDirectories? (clock 0) t [] directory with
    | none =>
      unfold prepareFactsBy CacheStart.runBy at h
      rw [hc, hm] at h
      cases h
    | some made =>
      rw [prepareFactsBy_of_made hc hm, Except.ok.injEq] at h
      exact ⟨cutoff, made, rfl, rfl, h⟩

/-- What is written to a directory that is made for it, if the directory can be reached at all. -/
theorem cached_prepareFactsBy {clock : Nat → Timestamp}
    (hclock : ∀ i j, i ≤ j → ¬(clock j).before (clock i)) {config : Config} {now : Timestamp}
    {s : Store} {spec : JobSpec} {directory : FilePath} {t t' : FileTree} {start : CacheStart}
    (ht : t.Rooted) (hup : ".." ∉ directory)
    (hnew : ∀ root, t.walk FileTree.linkLimit [] directory ≠ .node root)
    (h : prepareFactsBy clock config now s spec directory t = .ok (t', start)) :
    ∃ cutoff, config.staleBefore now = .ok cutoff ∧
      (t'.walk FileTree.linkLimit [] directory = .barred ∨
        ∃ root, Cached clock cutoff directory root (s.hostsFor spec) t' start) := by
  obtain ⟨cutoff, made, hc, hm, hfold⟩ := of_prepareFactsBy_eq_ok h
  refine ⟨cutoff, hc, ?_⟩
  rcases FileTree.walk_of_makeDirectories? ht hup hnew hm with hw | ⟨root, hw, hd, he⟩
  · left
    rw [CacheStart.foldl_of_barred hw] at hfold
    cases hfold
    exact hw
  · right
    have hempty : Cached clock cutoff directory root [] made {} := .of_isEmpty hw hd he
    have hall := hempty.foldl hclock (s.hostsFor spec)
    rw [hfold] at hall
    exact ⟨root, hall⟩

/-- Whether a host that can have a file has none, because each of the hosts whose file that would be
is stale. -/
def LacksFile (hosts : List Host) (cutoff : Option Timestamp) (host : String) : Prop :=
  ∃ name ∈ cacheFile? host, ∀ h ∈ hosts, cacheFile? h.name = some name → h.isStale cutoff

instance (hosts : List Host) (cutoff : Option Timestamp) (host : String) :
    Decidable (LacksFile hosts cutoff host) := by
  unfold LacksFile
  infer_instance

theorem CacheEntry.IsClosed.read_eq {t : FileTree} {directory : FilePath} {host : String}
    (h : (CacheEntry.find t directory host).IsClosed) (since : Option Timestamp) :
    HostFacts.read t directory since host = .skipped := by
  unfold HostFacts.read
  cases he : CacheEntry.find t directory host with
  | refused => rfl
  | unusable => rfl
  | vacant path =>
    rw [he] at h
    cases h
  | occupied path =>
    rw [he] at h
    cases h

namespace Cached
variable {clock : Nat → Timestamp} {cutoff : Option Timestamp} {directory root : FilePath}
  {hosts : List Host} {t : FileTree} {start : CacheStart}

/-- A file that was written is unmodified, and a file that was not is taken for a removed one. -/
theorem update?_read (hc : Cached clock cutoff directory root hosts t start) (host : String) :
    (HostFacts.read t directory start.lastWrite host).update? =
      if LacksFile hosts cutoff host then some ∅ else none := by
  cases hname : cacheFile? host with
  | none =>
    rw [(CacheEntry.isClosed_find_of_no_file hc.reached hname).read_eq, if_neg]
    · rfl
    · rintro ⟨name, hmem, -⟩
      rw [hname] at hmem
      cases hmem
  | some name =>
    cases hn : t.nodes[root ++ [name]]? with
    | none =>
      rw [if_pos ⟨name, hname, (hc.missing name).mp hn⟩]
      unfold HostFacts.read
      rw [CacheEntry.find_vacant hc.reached hc.isDirectory hname hn]
      rfl
    | some node =>
      obtain ⟨text, i, hi, rfl⟩ := hc.file name node hn
      obtain ⟨last, hlast, hbefore⟩ := hc.lastWrite i hi
      rw [if_neg]
      · unfold HostFacts.read
        rw [CacheEntry.find_occupied hc.reached hc.isDirectory hname hn]
        simp only [hn, hlast, Option.bind_some, FileNode.modified?]
        rw [Bool.not_eq_true] at hbefore
        rw [hbefore]
        rfl
      · rintro ⟨other, hmem, hall⟩
        rw [hname, Option.mem_some_iff] at hmem
        subst hmem
        rw [(hc.missing name).mpr hall] at hn
        cases hn

theorem updates_eq (hc : Cached clock cutoff directory root hosts t start) (now : Timestamp) :
    CacheFinish.updates directory hosts start.lastWrite now t =
      ((hosts.filter fun h => LacksFile hosts cutoff h.name).map (·.name)).map fun name =>
        ⟨name, ∅, now⟩ := by
  rw [List.map_map, ← List.filterMap_eq_map, List.filterMap_filter]
  apply List.filterMap_congr
  intro h _
  rw [hc.update?_read]
  by_cases hl : LacksFile hosts cutoff h.name
  · simp [hl]
  · simp [hl]

end Cached

theorem CacheFinish.updates_of_barred {directory : FilePath} {t : FileTree}
    (h : t.walk FileTree.linkLimit [] directory = .barred) (hosts : List Host)
    (since : Option Timestamp) (now : Timestamp) : updates directory hosts since now t = [] := by
  apply List.filterMap_eq_nil_iff.mpr
  intro host _
  rw [(CacheEntry.isClosed_find_of_barred h).read_eq]
  rfl

/-- Whether a host loses its facts when the untouched fact cache of a job is collected: it is the
first host of its name, and the job has a host of that name that lacks a file. -/
def Store.Forgets (s : Store) (spec : JobSpec) (cutoff : Option Timestamp) (id : Id) (p : Nat)
    (h : Host) : Prop :=
  spec.inventory.map (·.id) = some id ∧ Store.firstHost? (s.hostsOf id) h.name = some p ∧
    (∃ other ∈ s.hostsFor spec, other.name = h.name) ∧
    LacksFile (s.hostsFor spec) cutoff h.name

instance (s : Store) (spec : JobSpec) (cutoff : Option Timestamp) (id : Id) (p : Nat) (h : Host) :
    Decidable (s.Forgets spec cutoff id p h) := by
  unfold Store.Forgets
  infer_instance

theorem Store.forgets_iff {s : Store} {spec : JobSpec} {cutoff : Option Timestamp} {id : Id}
    {p : Nat} {h : Host} (hi : spec.inventory.map (·.id) = some id)
    (hp : (s.hostsOf id)[p]? = some h) :
    s.Forgets spec cutoff id p h ↔
      ∃ name ∈ ((s.hostsFor spec).filter fun h =>
        LacksFile (s.hostsFor spec) cutoff h.name).map (·.name),
          Store.firstHost? (s.hostsOf id) name = some p := by
  constructor
  · rintro ⟨-, hfirst, ⟨other, hmem, he⟩, hl⟩
    rw [← he] at hl hfirst
    exact ⟨other.name, List.mem_map_of_mem (List.mem_filter.mpr ⟨hmem, decide_eq_true hl⟩), hfirst⟩
  · rintro ⟨name, hname, hfirst⟩
    obtain ⟨other, hmem, rfl⟩ := List.mem_map.mp hname
    obtain ⟨hmem, hl⟩ := List.mem_filter.mp hmem
    have he : h.name = other.name := Store.name_of_firstHost? hfirst hp
    refine ⟨hi, ?_, ⟨other, hmem, he.symm⟩, ?_⟩
    · rw [he]
      exact hfirst
    · rw [he]
      exact of_decide_eq_true hl

theorem Cached.hostsOf_collectFacts {clock : Nat → Timestamp} {cutoff : Option Timestamp}
    {directory root : FilePath} {s : Store} {spec : JobSpec} {t : FileTree} {start : CacheStart}
    (hc : Cached clock cutoff directory root (s.hostsFor spec) t start) (config : Config)
    (now : Timestamp) (id : Id) :
    (collectFacts config now s spec directory start.lastWrite t).1.hostsOf id =
      (s.hostsOf id).mapIdx fun p h =>
        if s.Forgets spec cutoff id p h then h.cleared now else h := by
  rw [JobLaunch.hostsOf_collectFacts, hc.updates_eq]
  apply List.ext_getElem?
  intro p
  rw [List.getElem?_mapIdx]
  by_cases hi : spec.inventory.map (·.id) = some id
  · rw [if_pos hi, Store.getElem?_updatedHosts_cleared]
    cases hp : (s.hostsOf id)[p]? with
    | none => simp
    | some h =>
      simp only [← Store.forgets_iff hi hp, Option.map_some]
      split <;> rfl
  · rw [if_neg hi]
    have hn (p : Nat) (h : Host) : ¬s.Forgets spec cutoff id p h := fun hf => hi hf.1
    simp [hn]

/-- When nothing touches the fact cache of a job, in a directory that was not there before, hosts
keep their facts, but for those that lack a file. -/
theorem facts_after_untouched_cache {clock : Nat → Timestamp}
    (hclock : ∀ i j, i ≤ j → ¬(clock j).before (clock i)) (config : Config) (now later : Timestamp)
    (s : Store) (spec : JobSpec) {directory : FilePath} {t t' : FileTree} {start : CacheStart}
    (ht : t.Rooted) (hup : ".." ∉ directory)
    (hnew : ∀ root, t.walk FileTree.linkLimit [] directory ≠ .node root)
    (h : prepareFactsBy clock config now s spec directory t = .ok (t', start)) :
    ∃ cutoff hosts, config.staleBefore now = .ok cutoff ∧
      (collectFacts config later s spec directory start.lastWrite t').1 = { s with hosts } ∧
      ∀ id, ({ s with hosts } : Store).hostsOf id = (s.hostsOf id).mapIdx fun p h =>
        if t'.walk FileTree.linkLimit [] directory ≠ .barred ∧ s.Forgets spec cutoff id p h then
          h.cleared later
        else h := by
  obtain ⟨cutoff, hcutoff, hcache⟩ := cached_prepareFactsBy hclock ht hup hnew h
  obtain ⟨hosts, hs⟩ := collectFacts_eq config later s spec directory start.lastWrite t'
  refine ⟨cutoff, hosts, hcutoff, hs, ?_⟩
  intro id
  rw [← hs]
  rcases hcache with hw | ⟨root, hc⟩
  · rw [hostsOf_collectFacts, CacheFinish.updates_of_barred hw]
    apply List.ext_getElem?
    intro p
    simp [hw, Store.updatedHosts]
  · rw [hc.hostsOf_collectFacts]
    simp [hc.reached]

def Host.ofUnknownAge : Host := ⟨"web", ⟨2⟩, (∅ : Vars).insert "os" (.text "linux"), none⟩

def JobSpec.onOneHost : JobSpec :=
  { (default : JobSpec) with inventory := some ⟨⟨2⟩, "all", 1, none, [], false⟩ }

def Config.hourly : Config := { (default : Config) with factCacheTimeout := 3600 }

def FileTree.oneDirectory : FileTree := (∅ : FileTree).put ["facts"] (.directory default) default

theorem FileTree.walk_empty_facts :
    (∅ : FileTree).walk linkLimit [] ["facts"] = .free ["facts"] := by
  have hname : isName "facts" := by decide
  have hn : (∅ : FileTree).nodes[["facts"]]? = none := Std.ExtTreeMap.getElem?_empty
  simp [walk, isDirectory, hname, hn]

theorem FileTree.makeDirectories?_empty_facts :
    makeDirectories? default ∅ [] ["facts"] = some oneDirectory := by
  simp [makeDirectories?, walk_empty_facts, oneDirectory]

theorem FileTree.walk_oneDirectory :
    oneDirectory.walk linkLimit [] ["facts"] = .node ["facts"] := by
  have hname : isName "facts" := by decide
  have hn : oneDirectory.nodes[["facts"]]? = some (.directory default) :=
    Std.ExtTreeMap.getElem?_insert_self
  have hleads : oneDirectory.Leads linkLimit [] ["facts"] ["facts"] :=
    .enter rfl hname hn (by intro target he; cases he) .done
  exact hleads.walk_eq

theorem facts_of_unknown_age_are_lost : ∃ t start,
    prepareFactsBy (fun _ => default) .hourly default
      ((∅ : Store).insertHosts ⟨2⟩ [.ofUnknownAge]) .onOneHost ["facts"] ∅ = .ok (t, start) ∧
    (collectFacts .hourly default ((∅ : Store).insertHosts ⟨2⟩ [.ofUnknownAge]) .onOneHost ["facts"]
      start.lastWrite t).1.hostsOf ⟨2⟩ = [Host.ofUnknownAge.cleared default] := by
  have hcut : Config.hourly.staleBefore default = .ok (some (.ofSeconds (-3600))) := rfl
  have hprepare : prepareFactsBy (fun _ => default) .hourly default
      ((∅ : Store).insertHosts ⟨2⟩ [.ofUnknownAge]) .onOneHost ["facts"] ∅ =
        .ok (.oneDirectory, {}) :=
      prepareFactsBy_of_made hcut FileTree.makeDirectories?_empty_facts
  have hnew : ∀ root, (∅ : FileTree).walk FileTree.linkLimit [] ["facts"] ≠ .node root := by
    intro root he
    rw [FileTree.walk_empty_facts] at he
    cases he
  have hreached : FileTree.oneDirectory.walk FileTree.linkLimit [] ["facts"] ≠ .barred := by
    rw [FileTree.walk_oneDirectory]
    exact FileTree.Reached.noConfusion
  have hone : ((∅ : Store).insertHosts ⟨2⟩ [.ofUnknownAge]).hostsOf ⟨2⟩ = [.ofUnknownAge] := rfl
  have hforgets : ((∅ : Store).insertHosts ⟨2⟩ [.ofUnknownAge]).Forgets .onOneHost
      (some (.ofSeconds (-3600))) ⟨2⟩ 0 .ofUnknownAge := by decide
  obtain ⟨cutoff, hosts, hcutoff, hs, hhosts⟩ := facts_after_untouched_cache
    (by intro i j _; decide) .hourly default default _ .onOneHost FileTree.rooted_empty (by decide)
    hnew hprepare
  rw [hcut, Except.ok.injEq] at hcutoff
  subst hcutoff
  refine ⟨_, _, hprepare, ?_⟩
  rw [hs, hhosts, hone, List.mapIdx_singleton, if_pos ⟨hreached, hforgets⟩]

end JobLaunch
