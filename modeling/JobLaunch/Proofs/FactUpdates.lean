import JobLaunch.FactCache
import JobLaunch.Proofs.StoreRuns
/-!
Fact updates of the hosts of an inventory. An update is for the first host of its name, and how
updates are cut into batches does not matter.
-/
namespace JobLaunch

theorem modifyFirst?_eq_map {α : Type} (p : α → Bool) (f : α → α) (xs : List α) :
    modifyFirst? p f xs = (xs.findIdx? p).map fun i => xs.modify i f := by
  induction xs with
  | nil => rfl
  | cons x xs ih =>
    rw [modifyFirst?, List.findIdx?_cons]
    split
    · rfl
    · rw [ih]
      cases xs.findIdx? p <;> rfl

theorem flatten_batches {α : Type} (size : Nat) (xs : List α) : (batches size xs).flatten = xs := by
  fun_induction batches size xs with
  | case1 => rfl
  | case2 x xs ih => rw [List.flatten_cons, ih, List.cons_append, List.take_append_drop]

namespace Store

def firstHost? (hosts : List Host) (name : String) : Option Nat :=
  hosts.findIdx? fun h => h.name == name

theorem firstHost?_of_map {hosts hosts' : List Host} (h : hosts'.map (·.name) = hosts.map (·.name))
    (name : String) : firstHost? hosts' name = firstHost? hosts name := by
  have hnames (hosts : List Host) :
      firstHost? hosts name = (hosts.map (·.name)).findIdx? (· == name) := by
    rw [List.findIdx?_map]
    rfl
  rw [hnames, hnames, h]

theorem name_of_firstHost? {hosts : List Host} {name : String} {p : Nat} {h : Host}
    (hp : firstHost? hosts name = some p) (hh : hosts[p]? = some h) : h.name = name := by
  obtain ⟨hlt, hname, -⟩ := List.findIdx?_eq_some_iff_getElem.mp hp
  obtain ⟨-, rfl⟩ := List.getElem?_eq_some_iff.mp hh
  exact eq_of_beq hname

theorem getElem?_updateHost (hosts : List Host) (u : FactUpdate) (p : Nat) :
    (updateHost hosts u).1[p]? = if firstHost? hosts u.hostName = some p then
      (hosts[p]?).map fun h => { h with facts := u.facts, factsModified := some u.modifiedAt }
    else hosts[p]? := by
  have hm (f : Host → Host) : modifyFirst? (fun h => h.name == u.hostName) f hosts =
    (firstHost? hosts u.hostName).map fun i => hosts.modify i f := modifyFirst?_eq_map _ f hosts
  unfold updateHost
  simp only [hm]
  cases firstHost? hosts u.hostName with
  | none => rfl
  | some i =>
    simp only [Option.map_some, List.getElem?_modify, Option.some.injEq]
    by_cases hi : i = p
    · simp [hi]
    · simp [hi]

theorem map_name_updateHost (hosts : List Host) (u : FactUpdate) :
    (updateHost hosts u).1.map (·.name) = hosts.map (·.name) := by
  unfold updateHost
  simp only []
  split
  · rename_i hm
    exact map_modifyFirst? hm fun _ => rfl
  · rfl

theorem updateHost_of_not_found {hosts : List Host} {u : FactUpdate}
    (h : (updateHost hosts u).2 = false) : (updateHost hosts u).1 = hosts := by
  unfold updateHost at h ⊢
  simp only [] at h ⊢
  split
  · rename_i hm
    rw [hm] at h
    cases h
  · rfl

def updatedHosts (hosts : List Host) (updates : List FactUpdate) : List Host :=
  updates.foldl (fun hosts u => (updateHost hosts u).1) hosts

theorem updatedHosts_append (hosts : List Host) (us us' : List FactUpdate) :
    updatedHosts hosts (us ++ us') = updatedHosts (updatedHosts hosts us) us' :=
  List.foldl_append

def countUpdate (state : List Host × Nat) (u : FactUpdate) : List Host × Nat :=
  ((updateHost state.1 u).1, state.2 + if (updateHost state.1 u).2 then 1 else 0)

theorem updateFacts_eq_foldl (s : Store) (id : Id) (updates : List FactUpdate) :
    s.updateFacts id updates =
      let result := updates.foldl countUpdate (s.hostsOf id, 0)
      if result.2 = 0 then (s, 0) else ({ s with hosts := s.hosts.insert id result.1 }, result.2) :=
  rfl

theorem fst_foldl_countUpdate (updates : List FactUpdate) (hosts : List Host) (count : Nat) :
    (updates.foldl countUpdate (hosts, count)).1 = updatedHosts hosts updates := by
  induction updates generalizing hosts count with
  | nil => rfl
  | cons u updates ih => exact ih _ _

theorem le_snd_foldl_countUpdate (updates : List FactUpdate) (hosts : List Host) (count : Nat) :
    count ≤ (updates.foldl countUpdate (hosts, count)).2 := by
  induction updates generalizing hosts count with
  | nil => exact Nat.le_refl count
  | cons u updates ih => exact Nat.le_trans (Nat.le_add_right _ _) (ih _ _)

/-- Updates that are not counted have found no host. -/
theorem updatedHosts_of_count_eq {updates : List FactUpdate} {hosts : List Host} {count : Nat}
    (h : (updates.foldl countUpdate (hosts, count)).2 = count) :
    updatedHosts hosts updates = hosts := by
  induction updates generalizing hosts count with
  | nil => rfl
  | cons u updates ih =>
    rw [List.foldl_cons, countUpdate] at h
    cases hf : (updateHost hosts u).2 with
    | true =>
      have hle := le_snd_foldl_countUpdate updates (updateHost hosts u).1 (count + 1)
      simp only [hf, if_true] at h
      omega
    | false =>
      simp only [hf, updateHost_of_not_found hf] at h
      change updatedHosts (updateHost hosts u).1 updates = hosts
      rw [updateHost_of_not_found hf]
      exact ih h

theorem hostsOf_updateFacts (s : Store) (id : Id) (updates : List FactUpdate) (k : Id) :
    (s.updateFacts id updates).1.hostsOf k =
      if id = k then updatedHosts (s.hostsOf k) updates else s.hostsOf k := by
  rw [updateFacts_eq_foldl]
  simp only []
  split
  · rename_i hc
    split
    · rename_i he
      rw [← he, updatedHosts_of_count_eq hc]
    · rfl
  · rw [fst_foldl_countUpdate, hostsOf, Std.ExtTreeMap.getElem?_insert]
    by_cases he : id = k
    · subst he
      simp
    · simp [he, hostsOf]

theorem updateFacts_eq (s : Store) (id : Id) (updates : List FactUpdate) :
    ∃ hosts, (s.updateFacts id updates).1 = { s with hosts } := by
  rw [updateFacts_eq_foldl]
  simp only []
  split
  · exact ⟨s.hosts, rfl⟩
  · exact ⟨_, rfl⟩

def afterBatches (s : Store) (id : Id) (batches : List (List FactUpdate)) : Store :=
  batches.foldl (fun s batch => (s.updateFacts id batch).1) s

theorem afterBatches_eq (s : Store) (id : Id) (batches : List (List FactUpdate)) :
    ∃ hosts, s.afterBatches id batches = { s with hosts } := by
  induction batches generalizing s with
  | nil => exact ⟨s.hosts, rfl⟩
  | cons batch batches ih =>
    obtain ⟨hosts, h⟩ := s.updateFacts_eq id batch
    obtain ⟨hosts', h'⟩ := ih (s.updateFacts id batch).1
    refine ⟨hosts', h'.trans ?_⟩
    rw [h]

theorem hostsOf_afterBatches (s : Store) (id : Id) (batches : List (List FactUpdate)) (k : Id) :
    (s.afterBatches id batches).hostsOf k =
      if id = k then updatedHosts (s.hostsOf k) batches.flatten else s.hostsOf k := by
  induction batches generalizing s with
  | nil => exact (ite_self _).symm
  | cons batch batches ih =>
    change ((s.updateFacts id batch).1.afterBatches id batches).hostsOf k = _
    rw [ih, hostsOf_updateFacts, List.flatten_cons, updatedHosts_append]
    by_cases he : id = k
    · simp only [if_pos he]
    · simp only [if_neg he]

end Store

def CacheFinish.updates (directory : FilePath) (hosts : List Host) (since : Option Timestamp)
    (now : Timestamp) (t : FileTree) : List FactUpdate :=
  hosts.filterMap fun h => (HostFacts.read t directory since h.name).update?.map fun facts =>
    ⟨h.name, facts, now⟩

theorem CacheFinish.flatten_batches_run (directory : FilePath) (size : Nat) (hosts : List Host)
    (since : Option Timestamp) (now : Timestamp) (t : FileTree) :
    (run directory size hosts since now t).batches.flatten =
      updates directory hosts since now t := by
  unfold run
  rw [flatten_batches, List.filterMap_map]
  rfl

/-- Reading a fact cache changes hosts of the job's inventory only. -/
theorem collectFacts_eq (config : Config) (now : Timestamp) (s : Store) (spec : JobSpec)
    (directory : FilePath) (since : Option Timestamp) (t : FileTree) :
    ∃ hosts, (collectFacts config now s spec directory since t).1 = { s with hosts } := by
  unfold collectFacts
  split
  · exact ⟨s.hosts, rfl⟩
  · exact s.afterBatches_eq _ _

theorem hostsOf_collectFacts (config : Config) (now : Timestamp) (s : Store) (spec : JobSpec)
    (directory : FilePath) (since : Option Timestamp) (t : FileTree) (id : Id) :
    (collectFacts config now s spec directory since t).1.hostsOf id =
      if spec.inventory.map (·.id) = some id then
        Store.updatedHosts (s.hostsOf id)
          (CacheFinish.updates directory (s.hostsFor spec) since now t)
      else s.hostsOf id := by
  unfold collectFacts
  cases hi : spec.inventory with
  | none => rfl
  | some i =>
    change (s.afterBatches i.id _).hostsOf id = _
    rw [Store.hostsOf_afterBatches, CacheFinish.flatten_batches_run, Option.map_some]
    by_cases he : i.id = id
    · rw [if_pos he, if_pos (congrArg some he)]
    · rw [if_neg he, if_neg (by simpa using he)]

def Host.cleared (h : Host) (now : Timestamp) : Host :=
  { h with facts := ∅, factsModified := some now }

namespace Store

/-- Updates that clear facts clear those of the first host of every name. -/
theorem getElem?_updatedHosts_cleared (names : List String) (now : Timestamp) (hosts : List Host)
    (p : Nat) : (updatedHosts hosts (names.map fun name => ⟨name, ∅, now⟩))[p]? =
      if ∃ name ∈ names, firstHost? hosts name = some p then (hosts[p]?).map (·.cleared now)
      else hosts[p]? := by
  induction names generalizing hosts with
  | nil => simp [updatedHosts]
  | cons name names ih =>
    change (updatedHosts (updateHost hosts ⟨name, ∅, now⟩).1 _)[p]? = _
    have hfirst (other : String) : firstHost? (updateHost hosts ⟨name, ∅, now⟩).1 other =
      firstHost? hosts other := firstHost?_of_map (map_name_updateHost _ _) other
    simp only [ih, hfirst, getElem?_updateHost, List.mem_cons, or_and_right, exists_or,
      exists_eq_left]
    by_cases hp : firstHost? hosts name = some p
    · simp only [hp, true_or, if_true, Option.map_map]
      split <;> rfl
    · simp only [hp, false_or, if_false]

end Store
end JobLaunch
