import JobLaunch.Proofs.ConfinedCaches
/-!
Batches of fact updates. Reading a fact cache finds every host updated, cleared, unmodified or
skipped, and counts it as that. The batches are the updates of the hosts that were updated or cleared,
cut into pieces of one size, and whatever the size is the store becomes the same.
-/
namespace JobLaunch

/-- How reading the file of a host ends. There is no place for a file or none that can be looked
into, the file is missing, it is not newer than the last write, it is newer and holds no facts, or it
holds new ones. -/
inductive FileTree.Finds (t : FileTree) (directory : FilePath) (since : Option Timestamp)
    (host : String) : HostFacts → Prop
  | closed (h : (CacheEntry.find t directory host).IsClosed) : Finds t directory since host .skipped
  | missing {path : Option FilePath} (h : CacheEntry.find t directory host = .vacant path) :
    Finds t directory since host .cleared
  | old {path : FilePath} {last modified : Timestamp}
    (h : CacheEntry.find t directory host = .occupied path) (hs : since = some last)
    (hm : t.nodes[path]?.bind FileNode.modified? = some modified) (hold : ¬last.before modified) :
    Finds t directory since host .unmodified
  | unreadable {path : FilePath} (h : CacheEntry.find t directory host = .occupied path)
    (hnew : ∀ last ∈ since, ∀ modified ∈ t.nodes[path]?.bind FileNode.modified?,
      last.before modified)
    (hno : ∀ text modified, t.nodes[path]? = some (.file text modified) →
      HostFacts.ofText? text = none) : Finds t directory since host .skipped
  | changed {path : FilePath} {text : String} {modified : Timestamp} {facts : Vars}
    (h : CacheEntry.find t directory host = .occupied path)
    (hn : t.nodes[path]? = some (.file text modified)) (hnew : ∀ last ∈ since, last.before modified)
    (hfacts : HostFacts.ofText? text = some facts) :
    Finds t directory since host (.updated facts)

namespace HostFacts
variable {t : FileTree} {directory : FilePath} {since : Option Timestamp} {host : String}

/-- A file that is not newer than the last write is not looked into. -/
theorem read_of_old {path : FilePath} {last modified : Timestamp}
    (h : CacheEntry.find t directory host = .occupied path)
    (hm : t.nodes[path]?.bind FileNode.modified? = some modified) (hold : ¬last.before modified) :
    read t directory (some last) host = .unmodified := by
  unfold read
  simp only [h, hm]
  rw [if_pos (by simpa using hold)]

/-- A file that may be newer than the last write is read. -/
theorem read_of_new {path : FilePath} (h : CacheEntry.find t directory host = .occupied path)
    (hnew : ∀ last ∈ since, ∀ modified ∈ t.nodes[path]?.bind FileNode.modified?,
      last.before modified) :
    read t directory since host = match t.nodes[path]? with
      | some (.file text _) =>
        match ofText? text with
        | some facts => updated facts
        | none => skipped
      | _ => skipped := by
  unfold read
  rw [h]
  cases since with
  | none => rfl
  | some last =>
    cases hm : t.nodes[path]?.bind FileNode.modified? with
    | none => simp only [hm]; rfl
    | some modified => simp only [hm, hnew last rfl modified hm]; rfl

theorem read_of_finds {facts : HostFacts} (h : t.Finds directory since host facts) :
    read t directory since host = facts := by
  cases h with
  | closed h => exact h.read_eq since
  | missing h => rw [read, h]
  | old h hs hm hold =>
    rw [hs]
    exact read_of_old h hm hold
  | unreadable h hnew hno =>
    rw [read_of_new h hnew]
    split
    · rename_i hn
      rw [hno _ _ hn]
    · rfl
  | changed h hn hnew hfacts =>
    rw [read_of_new h (by simpa [hn, FileNode.modified?] using hnew), hn]
    simp only [hfacts]

theorem finds_read (t : FileTree) (directory : FilePath) (since : Option Timestamp)
    (host : String) : t.Finds directory since host (read t directory since host) := by
  cases h : CacheEntry.find t directory host with
  | refused =>
    have hc : (CacheEntry.find t directory host).IsClosed := h ▸ .refused
    rw [hc.read_eq]
    exact .closed hc
  | unusable =>
    have hc : (CacheEntry.find t directory host).IsClosed := h ▸ .unusable
    rw [hc.read_eq]
    exact .closed hc
  | vacant path =>
    rw [read, h]
    exact .missing h
  | occupied path =>
    by_cases hnew : ∀ last ∈ since, ∀ modified ∈ t.nodes[path]?.bind FileNode.modified?,
        last.before modified
    · rw [read_of_new h hnew]
      split
      · rename_i hn
        split
        · exact .changed h hn (by simpa [hn, FileNode.modified?] using hnew) ‹_›
        · refine .unreadable h hnew fun text modified hn' => ?_
          rw [hn] at hn'
          cases hn'
          assumption
      · rename_i hno
        exact .unreadable h hnew fun text modified hn => absurd hn (hno text modified)
    · simp only [not_forall] at hnew
      obtain ⟨last, rfl, modified, hm, hold⟩ := hnew
      rw [read_of_old h hm hold]
      exact .old h rfl hm hold

def isUpdated : HostFacts → Bool
  | updated _ => true
  | _ => false

/-- Whether a host is reported: its facts are new, or it has none any more. -/
def isReported : HostFacts → Bool
  | updated _ | cleared => true
  | unmodified | skipped => false

inductive Reports (h : Host) (now : Timestamp) : HostFacts → FactUpdate → Prop
  | updated (facts : Vars) : Reports h now (.updated facts) ⟨h.name, facts, now⟩
  | cleared : Reports h now .cleared ⟨h.name, ∅, now⟩

theorem countP_isReported (found : List (Host × HostFacts)) :
    found.countP (·.2.isUpdated) + found.countP (·.2 = cleared) =
      found.countP (·.2.isReported) := by
  induction found with
  | nil => rfl
  | cons x found ih =>
    rw [List.countP_cons, List.countP_cons, List.countP_cons, ← ih]
    cases x.2 with
    | updated facts => simp [isUpdated, isReported]; omega
    | cleared => simp [isUpdated, isReported]; omega
    | unmodified => simp [isUpdated, isReported]
    | skipped => simp [isUpdated, isReported]

/-- Every host is counted once. -/
theorem countP_add_countP (found : List (Host × HostFacts)) :
    found.countP (·.2.isUpdated) + found.countP (·.2 = cleared) +
      found.countP (·.2 = unmodified) + found.countP (·.2 = skipped) = found.length := by
  rw [countP_isReported]
  induction found with
  | nil => rfl
  | cons x found ih =>
    rw [List.countP_cons, List.countP_cons, List.countP_cons, List.length_cons, ← ih]
    cases x.2 with
    | updated facts => simp [isReported]; omega
    | cleared => simp [isReported]; omega
    | unmodified => simp [isReported]; omega
    | skipped => simp [isReported]; omega

/-- The hosts with updates are those that are reported. -/
theorem reports_filterMap (now : Timestamp) (found : List (Host × HostFacts)) :
    List.Forall₂ (fun x u => Reports x.1 now x.2 u) (found.filter (·.2.isReported))
      (found.filterMap fun x => x.2.update?.map fun facts => ⟨x.1.name, facts, now⟩) := by
  induction found with
  | nil => exact .nil
  | cons x found ih =>
    obtain ⟨h, facts⟩ := x
    cases facts with
    | updated facts => exact .cons (.updated facts) ih
    | cleared => exact .cons .cleared ih
    | unmodified => exact ih
    | skipped => exact ih

end HostFacts

section
variable {α : Type} {size : Nat} {xs batch : List α}

/-- No batch is empty or beyond the size. -/
theorem length_of_mem_batches (h : batch ∈ batches size xs) :
    batch ≠ [] ∧ batch.length ≤ max size 1 := by
  fun_induction batches size xs with
  | case1 => cases h
  | case2 x xs ih =>
    rcases List.mem_cons.mp h with rfl | h
    · refine ⟨List.cons_ne_nil _ _, ?_⟩
      rw [List.length_cons, List.length_take]
      omega
    · exact ih h

/-- A batch before another is full. -/
theorem length_of_mem_dropLast_batches (h : batch ∈ (batches size xs).dropLast) :
    batch.length = max size 1 := by
  fun_induction batches size xs with
  | case1 => cases h
  | case2 x xs ih =>
    cases hrest : xs.drop (size - 1) with
    | nil =>
      rw [hrest, batches] at h
      cases h
    | cons y ys =>
      have hne : batches size (xs.drop (size - 1)) ≠ [] := by
        rw [hrest, batches]
        exact List.cons_ne_nil _ _
      rw [List.dropLast_cons_of_ne_nil hne] at h
      rcases List.mem_cons.mp h with rfl | h
      · have hlen := congrArg List.length hrest
        rw [List.length_drop, List.length_cons] at hlen
        rw [List.length_cons, List.length_take]
        omega
      · exact ih h

end

namespace Store
variable {s : Store} {id : Id}

def countFound (hosts : List Host) (updates : List FactUpdate) : Nat :=
  (updates.foldl countUpdate (hosts, 0)).2

theorem foldl_countUpdate (updates : List FactUpdate) (hosts : List Host) (count : Nat) :
    updates.foldl countUpdate (hosts, count) =
      (updatedHosts hosts updates, count + countFound hosts updates) := by
  induction updates generalizing hosts count with
  | nil => rfl
  | cons u updates ih =>
    rw [countFound, List.foldl_cons, List.foldl_cons, countUpdate, countUpdate, ih, ih,
      Nat.zero_add, Nat.add_assoc]
    rfl

theorem countFound_append (hosts : List Host) (us us' : List FactUpdate) :
    countFound hosts (us ++ us') =
      countFound hosts us + countFound (updatedHosts hosts us) us' := by
  rw [countFound, List.foldl_append, foldl_countUpdate us, foldl_countUpdate us', Nat.zero_add]

theorem fst_updateFacts (s : Store) (id : Id) (updates : List FactUpdate) :
    (s.updateFacts id updates).1 = if countFound (s.hostsOf id) updates = 0 then s
      else { s with hosts := s.hosts.insert id (updatedHosts (s.hostsOf id) updates) } := by
  rw [updateFacts_eq_foldl, foldl_countUpdate, Nat.zero_add]
  simp only []
  split <;> rfl

/-- Updates in two parts are the updates of both. -/
theorem updateFacts_append (s : Store) (id : Id) (us us' : List FactUpdate) :
    (s.updateFacts id (us ++ us')).1 = ((s.updateFacts id us).1.updateFacts id us').1 := by
  rw [fst_updateFacts s id (us ++ us'), countFound_append, updatedHosts_append]
  by_cases h : countFound (s.hostsOf id) us = 0
  · have hs : (s.updateFacts id us).1 = s := by rw [fst_updateFacts, if_pos h]
    rw [hs, updatedHosts_of_count_eq h, h, Nat.zero_add, fst_updateFacts s id us']
  · have hs : (s.updateFacts id us).1 =
        { s with hosts := s.hosts.insert id (updatedHosts (s.hostsOf id) us) } := by
      rw [fst_updateFacts, if_neg h]
    have hhosts : (s.updateFacts id us).1.hostsOf id = updatedHosts (s.hostsOf id) us := by
      rw [hostsOf_updateFacts, if_pos rfl]
    rw [if_neg (by omega), fst_updateFacts _ id us', hhosts]
    split
    · rename_i h'
      rw [updatedHosts_of_count_eq h', hs]
    · rw [hs]
      congr 1
      apply Std.ExtTreeMap.ext_getElem?
      intro k
      simp only [Std.ExtTreeMap.getElem?_insert]
      split <;> rfl

theorem afterBatches_eq_updateFacts (s : Store) (id : Id) (batches : List (List FactUpdate)) :
    s.afterBatches id batches = (s.updateFacts id batches.flatten).1 := by
  induction batches generalizing s with
  | nil => rfl
  | cons batch batches ih =>
    rw [List.flatten_cons, updateFacts_append, ← ih]
    rfl

end Store

/-- A collection makes the updates that the files give, however they are batched. -/
theorem fst_collectFacts (config : Config) (now : Timestamp) (s : Store) (spec : JobSpec)
    (directory : FilePath) (since : Option Timestamp) (t : FileTree) :
    (collectFacts config now s spec directory since t).1 = match spec.inventory with
      | none => s
      | some i =>
        (s.updateFacts i.id (CacheFinish.updates directory (s.hostsFor spec) since now t)).1 := by
  unfold collectFacts
  cases spec.inventory with
  | none => rfl
  | some i =>
    rw [← CacheFinish.flatten_batches_run directory config.factBatchSize.toNat]
    exact Store.afterBatches_eq_updateFacts s i.id _

/-- Whether the result of reading a fact cache accounts for what was found of each host: all are
counted, and the batches are the updates of those that are reported, in order, in pieces of one size
of which only the last may be smaller. -/
structure CacheFinish.AccountsFor (finish : CacheFinish) (size : Nat) (now : Timestamp)
    (found : List (Host × HostFacts)) : Prop where
  updated : finish.updated = found.countP (·.2.isUpdated)
  cleared : finish.cleared = found.countP (·.2 = .cleared)
  unmodified : finish.unmodified = found.countP (·.2 = .unmodified)
  total : finish.updated + finish.cleared + finish.unmodified + found.countP (·.2 = .skipped) =
    found.length
  length : finish.batches.flatten.length = finish.updated + finish.cleared
  reports : List.Forall₂ (fun x u => HostFacts.Reports x.1 now x.2 u)
    (found.filter (·.2.isReported)) finish.batches.flatten
  bounded : ∀ batch ∈ finish.batches, batch ≠ [] ∧ batch.length ≤ max size 1
  full : ∀ batch ∈ finish.batches.dropLast, batch.length = max size 1

namespace CacheFinish
variable (directory : FilePath) (size : Nat) (hosts : List Host) (since : Option Timestamp)
  (now : Timestamp) (t : FileTree)

def found : List (Host × HostFacts) :=
  hosts.map fun h => (h, HostFacts.read t directory since h.name)

/-- What is counted of the hosts does not depend on their names. -/
theorem countP_found {p : String × HostFacts → Bool} (q : HostFacts → Bool)
    (hpq : ∀ name facts, p (name, facts) = q facts) :
    (hosts.map fun h => (h.name, HostFacts.read t directory since h.name)).countP p =
      (found directory hosts since t).countP fun x => q x.2 := by
  rw [found, List.countP_map, List.countP_map]
  exact List.countP_congr fun h _ => by rw [Function.comp_apply, Function.comp_apply, hpq]

theorem flatten_batches_eq :
    (run directory size hosts since now t).batches.flatten =
      (found directory hosts since t).filterMap fun x =>
        x.2.update?.map fun facts => ⟨x.1.name, facts, now⟩ := by
  rw [flatten_batches_run, found, List.filterMap_map]
  rfl

theorem accountsFor_run : (run directory size hosts since now t).AccountsFor size now
    (found directory hosts since t) := by
  have hreports := HostFacts.reports_filterMap now (found directory hosts since t)
  rw [← flatten_batches_eq directory size] at hreports
  have hupdated : (run directory size hosts since now t).updated =
      (found directory hosts since t).countP (·.2.isUpdated) :=
    countP_found directory hosts since t (·.isUpdated) fun _ _ => rfl
  have hcleared : (run directory size hosts since now t).cleared =
      (found directory hosts since t).countP (·.2 = .cleared) :=
    countP_found directory hosts since t (· = .cleared) fun _ facts => by cases facts <;> rfl
  have hunmodified : (run directory size hosts since now t).unmodified =
      (found directory hosts since t).countP (·.2 = .unmodified) :=
    countP_found directory hosts since t (· = .unmodified) fun _ facts => by
      cases facts <;> rfl
  constructor
  case updated => exact hupdated
  case cleared => exact hcleared
  case unmodified => exact hunmodified
  case total => rw [hupdated, hcleared, hunmodified, HostFacts.countP_add_countP]
  case length =>
    rw [hupdated, hcleared, HostFacts.countP_isReported, ← hreports.length_eq,
      List.countP_eq_length_filter]
  case reports => exact hreports
  case bounded => exact fun batch h => length_of_mem_batches h
  case full => exact fun batch h => length_of_mem_dropLast_batches h

end CacheFinish

/-- Batches of fact updates lose nothing. Every host is found in exactly one way, and the result of
reading accounts for all of them; the store that a collection leaves does not depend on the size of
the batches. -/
theorem batches_lose_nothing (directory : FilePath) (since : Option Timestamp) (now : Timestamp)
    (t : FileTree) :
    (∀ host, ∃! facts, t.Finds directory since host facts) ∧
    (∀ hosts size, ∃ found : List (Host × HostFacts), found.map Prod.fst = hosts ∧
      (∀ x ∈ found, t.Finds directory since x.1.name x.2) ∧
        (CacheFinish.run directory size hosts since now t).AccountsFor size now found) ∧
    ∀ (config : Config) (s : Store) (spec : JobSpec) (size : UInt64),
      (collectFacts { config with factBatchSize := size } now s spec directory since t).1 =
        (collectFacts config now s spec directory since t).1 := by
  refine ⟨fun host => ?_, fun hosts size => ?_, fun config s spec size => ?_⟩
  · refine ⟨_, HostFacts.finds_read t directory since host, fun facts h => ?_⟩
    exact (HostFacts.read_of_finds h).symm
  · refine ⟨_, ?_, ?_, CacheFinish.accountsFor_run directory size hosts since now t⟩
    · rw [CacheFinish.found, List.map_map]
      exact List.map_id hosts
    · intro x hx
      obtain ⟨h, -, rfl⟩ := List.mem_map.mp hx
      exact HostFacts.finds_read t directory since h.name
  · rw [fst_collectFacts, fst_collectFacts]

/-- A cache after a job: one file is as old as the last write was, two are newer. -/
def FileTree.leftBehind : FileTree :=
  ((((∅ : FileTree).put ["facts"] (.directory default) default).put ["facts", "web-1"]
    (.file "\x7b\"os\": \"bsd\"\x7d" (.ofSeconds 2)) default).put ["facts", "web-2"]
    (.file "\x7b\x7d" (.ofSeconds 1)) default).put ["facts", "web-4"]
    (.file "\x7b\x7d" (.ofSeconds 2)) default

def leftOutcomes : List (String × HostFacts) :=
  [("web-1", .updated ((∅ : Vars).insert "os" (.text "bsd"))), ("web-2", .unmodified),
    ("web-3", .cleared), ("..", .skipped), ("web-4", .updated ∅)]

theorem FileTree.finds_leftBehind : ∀ x ∈ leftOutcomes,
    FileTree.leftBehind.Finds ["facts"] (some (.ofSeconds 1)) x.1 x.2 := by
  have hdir : leftBehind.nodes[["facts"]]? = some (.directory default) := by decide
  have hroot : leftBehind.walk linkLimit [] ["facts"] = .node ["facts"] := by
    apply Leads.walk_eq
    exact .enter rfl (by decide) hdir (by intro target he; cases he) .done
  have hd : leftBehind.isDirectory ["facts"] := by decide
  have hfile1 : leftBehind.nodes[["facts"] ++ ["web-1"]]? =
      some (.file "\x7b\"os\": \"bsd\"\x7d" (.ofSeconds 2)) := by decide
  have hfile2 : leftBehind.nodes[["facts"] ++ ["web-2"]]? =
      some (.file "\x7b\x7d" (.ofSeconds 1)) := by decide
  have hfile3 : leftBehind.nodes[["facts"] ++ ["web-3"]]? = none := by decide
  have hfile4 : leftBehind.nodes[["facts"] ++ ["web-4"]]? =
      some (.file "\x7b\x7d" (.ofSeconds 2)) := by decide
  have hold : leftBehind.nodes[["facts"] ++ ["web-2"]]?.bind FileNode.modified? =
      some (.ofSeconds 1) := by
    rw [hfile2]
    rfl
  have hnew : ∀ last ∈ some (Timestamp.ofSeconds 1), last.before (.ofSeconds 2) := by decide
  rw [leftOutcomes, List.forall_mem_cons, List.forall_mem_cons, List.forall_mem_cons,
    List.forall_mem_cons, List.forall_mem_singleton]
  refine ⟨?_, ?_, ?_, ?_, ?_⟩
  · exact .changed (CacheEntry.find_occupied hroot hd (by decide) hfile1) hfile1 hnew
      (by decide +kernel)
  · exact .old (CacheEntry.find_occupied hroot hd (by decide) hfile2) rfl hold (by decide)
  · have hname : cacheFile? "web-3" = some "web-3" := by decide
    exact .missing (CacheEntry.find_vacant hroot hd hname hfile3)
  · exact .closed (CacheEntry.isClosed_find_of_no_file hroot (by decide))
  · exact .changed (CacheEntry.find_occupied hroot hd (by decide) hfile4) hfile4 hnew
      (by decide +kernel)

/-- Of five hosts one is skipped and one is unmodified, and the updates of the others do not fit into
one batch. -/
theorem five_hosts_in_two_batches : ∃ found : List (Host × HostFacts),
    found.map (fun x => (x.1.name, x.2)) = leftOutcomes ∧
    (CacheFinish.run ["facts"] 2 (leftOutcomes.map fun x => .named x.1) (some (.ofSeconds 1))
      (.ofSeconds 3) .leftBehind).AccountsFor 2 (.ofSeconds 3) found ∧
    CacheFinish.run ["facts"] 2 (leftOutcomes.map fun x => .named x.1) (some (.ofSeconds 1))
      (.ofSeconds 3) .leftBehind =
        { updated := 2, cleared := 1, unmodified := 1, batches :=
          [[⟨"web-1", (∅ : Vars).insert "os" (.text "bsd"), .ofSeconds 3⟩,
            ⟨"web-3", ∅, .ofSeconds 3⟩], [⟨"web-4", ∅, .ofSeconds 3⟩]] } := by
  obtain ⟨-, hfinds, -⟩ :=
    batches_lose_nothing ["facts"] (some (.ofSeconds 1)) (.ofSeconds 3) .leftBehind
  obtain ⟨found, hhosts, hfound, haccounts⟩ :=
    hfinds (leftOutcomes.map fun x => .named x.1) 2
  have hread : ∀ x ∈ leftOutcomes,
      HostFacts.read .leftBehind ["facts"] (some (.ofSeconds 1)) x.1 = x.2 := fun x hx =>
    HostFacts.read_of_finds (FileTree.finds_leftBehind x hx)
  refine ⟨found, ?_, haccounts, ?_⟩
  · have hmap : found.map (fun x => (x.1.name, x.2)) = (found.map Prod.fst).map fun h =>
        (h.name, HostFacts.read .leftBehind ["facts"] (some (.ofSeconds 1)) h.name) := by
      rw [List.map_map]
      refine List.map_congr_left fun x hx => ?_
      rw [Function.comp_apply, HostFacts.read_of_finds (hfound x hx)]
    rw [hmap, hhosts, List.map_map]
    refine (List.map_congr_left fun x hx => ?_).trans (List.map_id _)
    rw [Function.comp_apply, Host.named, hread x hx]
    rfl
  · simp only [leftOutcomes, List.forall_mem_cons] at hread
    simp [CacheFinish.run, leftOutcomes, Host.named, hread, HostFacts.update?, batches]

end JobLaunch
