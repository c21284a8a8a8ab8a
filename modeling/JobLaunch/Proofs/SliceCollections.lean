import Mathlib.Data.List.Nodup
import JobLaunch.Proofs.FactUpdates
import JobLaunch.Proofs.SliceShares
/-!
Fact collection by slices. The slices of an inventory have no host in common, so their jobs' fact
caches can be collected in any order.
-/
namespace JobLaunch

namespace Slice
variable {α β : Type}

theorem select_map (s : Slice) (f : α → β) (xs : List α) :
    s.select (xs.map f) = (s.select xs).map f := by
  apply List.ext_getElem?
  intro j
  rw [getElem?_select, List.getElem?_map, List.getElem?_map, getElem?_select]

theorem mem_of_mem_select {s : Slice} {xs : List α} {x : α} (h : x ∈ s.select xs) : x ∈ xs := by
  obtain ⟨j, hj⟩ := List.mem_iff_getElem?.mp h
  rw [getElem?_select] at hj
  exact List.mem_of_getElem? hj

/-- Where no item is there twice, none is in two slices. -/
theorem eq_of_mem_select_part {count : UInt32} {k k' : Nat} (hk : k < count.toNat)
    (hk' : k' < count.toNat) {xs : List α} (hn : xs.Nodup) {x : α}
    (h : x ∈ (part count k).select xs) (h' : x ∈ (part count k').select xs) : k = k' := by
  by_cases h2 : 2 ≤ count.toNat
  · obtain ⟨j, hj⟩ := List.mem_iff_getElem?.mp h
    obtain ⟨j', hj'⟩ := List.mem_iff_getElem?.mp h'
    rw [getElem?_select, position_part hk h2] at hj
    rw [getElem?_select, position_part hk' h2] at hj'
    have hlt := (List.getElem?_eq_some_iff.mp hj).1
    have hmod := congrArg (· % count.toNat)
      ((List.getElem?_inj hlt hn).mp (hj.trans hj'.symm))
    simp only [Nat.add_mul_mod_self_right, Nat.mod_eq_of_lt hk, Nat.mod_eq_of_lt hk'] at hmod
    exact hmod
  · omega

end Slice

def Host.withFacts (h : Host) (now : Timestamp) : Option Vars → Host
  | some facts => { h with facts, factsModified := some now }
  | none => h

@[simp] theorem Host.name_withFacts (h : Host) (now : Timestamp) (facts : Option Vars) :
    (h.withFacts now facts).name = h.name := by
  cases facts <;> rfl

namespace Store
variable {hosts : List Host}

theorem firstHost?_eq_some_iff (hn : (hosts.map (·.name)).Nodup) {name : String} {p : Nat}
    {h : Host} (hp : hosts[p]? = some h) : firstHost? hosts name = some p ↔ h.name = name := by
  constructor
  · intro hfirst
    exact name_of_firstHost? hfirst hp
  · rintro rfl
    obtain ⟨hlt, rfl⟩ := List.getElem?_eq_some_iff.mp hp
    rw [firstHost?, List.findIdx?_eq_some_iff_getElem]
    refine ⟨hlt, beq_self_eq_true _, ?_⟩
    intro q hq he
    have hqlt : q < hosts.length := Nat.lt_trans hq hlt
    have hnames : (hosts.map (·.name))[q]? = (hosts.map (·.name))[p]? := by
      rw [List.getElem?_map, List.getElem?_map, List.getElem?_eq_getElem hqlt,
        List.getElem?_eq_getElem hlt, Option.map_some, Option.map_some, eq_of_beq he]
    exact Nat.ne_of_lt hq ((List.getElem?_inj (by simpa using hqlt) hn).mp hnames)

theorem updateHost_of_nodup (hn : (hosts.map (·.name)).Nodup) (u : FactUpdate) :
    (updateHost hosts u).1 = hosts.map fun h =>
      if h.name = u.hostName then h.withFacts u.modifiedAt (some u.facts) else h := by
  apply List.ext_getElem?
  intro p
  rw [getElem?_updateHost, List.getElem?_map]
  cases hp : hosts[p]? with
  | none => simp
  | some h =>
    simp only [firstHost?_eq_some_iff hn hp, Option.map_some]
    split <;> rfl

/-- Updates with what is known of each name give every host of one of the names what is known of
it. -/
theorem updatedHosts_filterMap (known : String → Option Vars) (now : Timestamp)
    (selected : List Host) (hn : (hosts.map (·.name)).Nodup) :
    updatedHosts hosts (selected.filterMap fun h =>
        (known h.name).map fun facts => ⟨h.name, facts, now⟩) =
      hosts.map fun h =>
        if h.name ∈ selected.map (·.name) then h.withFacts now (known h.name) else h := by
  induction selected generalizing hosts with
  | nil => simp [updatedHosts]
  | cons x selected ih =>
    cases hx : known x.name with
    | none =>
      rw [List.filterMap_cons_none (by rw [hx]; rfl), ih hn]
      apply List.map_congr_left
      intro h _
      by_cases he : h.name = x.name
      · simp [he, hx, Host.withFacts]
      · simp [he]
    | some facts =>
      rw [List.filterMap_cons_some (by rw [hx]; rfl)]
      change updatedHosts (updateHost hosts ⟨x.name, facts, now⟩).1 _ = _
      rw [ih (by rw [map_name_updateHost]; exact hn), updateHost_of_nodup hn, List.map_map]
      apply List.map_congr_left
      intro h _
      by_cases he : h.name = x.name
      · -- the same facts again, should the name be selected once more
        simp [he, hx, Host.withFacts]
      · simp [he]

end Store

structure CachedJob where
  spec : JobSpec
  directory : FilePath
  since : Option Timestamp
  files : FileTree

namespace CachedJob
variable (config : Config) (job : CachedJob) (s : Store) (now : Timestamp)

def collect : Store :=
  (collectFacts config now s job.spec job.directory job.since job.files).1

def facts? (name : String) : Option Vars :=
  (HostFacts.read job.files job.directory job.since name).update?

/-- Whether a host of a name is one of the job's, of an inventory with hosts of given names. -/
def Takes (names : List String) (name : String) : Prop := name ∈ job.spec.slice.select names

instance (names : List String) (name : String) : Decidable (job.Takes names name) := by
  unfold Takes
  infer_instance

variable {job s} {id : Id}

theorem hostsOf_collect_of_ne {k : Id} (hi : job.spec.inventory.map (·.id) = some id)
    (hk : k ≠ id) : (job.collect config s now).hostsOf k = s.hostsOf k := by
  rw [collect, hostsOf_collectFacts, if_neg]
  rw [hi, Option.some.injEq]
  exact fun he => hk he.symm

theorem map_name_hostsFor (hi : job.spec.inventory.map (·.id) = some id) :
    (s.hostsFor job.spec).map (·.name) = job.spec.slice.select ((s.hostsOf id).map (·.name)) := by
  obtain ⟨i, hspec, rfl⟩ := Option.map_eq_some_iff.mp hi
  rw [Store.hostsFor, hspec, Slice.select_map]

/-- A collection gives the hosts of the job what its cache has for them. -/
theorem hostsOf_collect (hi : job.spec.inventory.map (·.id) = some id)
    (hn : ((s.hostsOf id).map (·.name)).Nodup) :
    (job.collect config s now).hostsOf id = (s.hostsOf id).map fun h =>
      if job.Takes ((s.hostsOf id).map (·.name)) h.name then h.withFacts now (job.facts? h.name)
      else h := by
  rw [collect, hostsOf_collectFacts, if_pos hi, CacheFinish.updates]
  simp only [Takes, ← map_name_hostsFor hi]
  exact Store.updatedHosts_filterMap job.facts? now (s.hostsFor job.spec) hn

theorem map_name_collect (hi : job.spec.inventory.map (·.id) = some id)
    (hn : ((s.hostsOf id).map (·.name)).Nodup) :
    ((job.collect config s now).hostsOf id).map (·.name) = (s.hostsOf id).map (·.name) := by
  rw [hostsOf_collect config now hi hn, List.map_map]
  apply List.map_congr_left
  intro h _
  simp only [Function.comp_apply]
  split
  · exact h.name_withFacts now _
  · rfl

/-- Where names are distinct, a host of the name of one of the job's is one of the job's. -/
theorem takes_iff (hn : ((s.hostsOf id).map (·.name)).Nodup) {h : Host} (hh : h ∈ s.hostsOf id) :
    job.Takes ((s.hostsOf id).map (·.name)) h.name ↔ h ∈ job.spec.slice.select (s.hostsOf id) := by
  rw [Takes, Slice.select_map, List.mem_map]
  constructor
  · rintro ⟨h', hmem, hname⟩
    rw [← List.inj_on_of_nodup_map hn (Slice.mem_of_mem_select hmem) hh hname]
    exact hmem
  · intro hmem
    exact ⟨h, hmem, rfl⟩

end CachedJob

def Host.factless (h : Host) : Host := { h with facts := ∅, factsModified := none }

@[simp] theorem Host.factless_withFacts (h : Host) (now : Timestamp) (facts : Option Vars) :
    (h.withFacts now facts).factless = h.factless := by
  cases facts <;> rfl

/-- Whether a store differs from another only in facts, and the times of their last change, of hosts
in a slice of an inventory. -/
structure Store.DiffersInSlice (s s' : Store) (id : Id) (slice : Slice) : Prop where
  records : ∃ hosts, s' = { s with hosts }
  inventories : ∀ k, k ≠ id → s'.hostsOf k = s.hostsOf k
  factless : (s'.hostsOf id).map (·.factless) = (s.hostsOf id).map (·.factless)
  outside : ∀ (p : Nat) (h : Host), (s.hostsOf id)[p]? = some h → h ∉ slice.select (s.hostsOf id) →
    (s'.hostsOf id)[p]? = some h

theorem CachedJob.differsInSlice_collect (config : Config) (now : Timestamp) {job : CachedJob}
    {s : Store} {id : Id} (hi : job.spec.inventory.map (·.id) = some id)
    (hn : ((s.hostsOf id).map (·.name)).Nodup) :
    s.DiffersInSlice (job.collect config s now) id job.spec.slice where
  records := collectFacts_eq config now s job.spec job.directory job.since job.files
  inventories _ hk := hostsOf_collect_of_ne config now hi hk
  factless := by
    rw [hostsOf_collect config now hi hn, List.map_map]
    apply List.map_congr_left
    intro h _
    simp only [Function.comp_apply]
    split
    · exact h.factless_withFacts now _
    · rfl
  outside p h hp hout := by
    have hnot := mt (takes_iff hn (List.mem_of_getElem? hp)).mp hout
    rw [hostsOf_collect config now hi hn, List.getElem?_map, hp, Option.map_some, if_neg hnot]

def Store.collectAll (config : Config) (s : Store) (runs : List (CachedJob × Timestamp)) : Store :=
  runs.foldl (fun s run => run.1.collect config s run.2) s

theorem Store.collectAll_eq (config : Config) (s : Store) (runs : List (CachedJob × Timestamp)) :
    ∃ hosts, s.collectAll config runs = { s with hosts } := by
  induction runs generalizing s with
  | nil => exact ⟨s.hosts, rfl⟩
  | cons run runs ih =>
    obtain ⟨hosts, h⟩ := collectFacts_eq config run.2 s run.1.spec run.1.directory run.1.since
      run.1.files
    obtain ⟨hosts', h'⟩ := ih (run.1.collect config s run.2)
    refine ⟨hosts', h'.trans ?_⟩
    rw [CachedJob.collect, h]

def CachedJob.factsAfter (names : List String) (name : String) (facts : Vars) (job : CachedJob) :
    Vars :=
  if job.Takes names name then (job.facts? name).getD facts else facts

def Host.timeless (h : Host) : Host := { h with factsModified := none }

section
variable {config : Config} {id : Id} {runs : List (CachedJob × Timestamp)}
  (hi : ∀ run ∈ runs, run.1.spec.inventory.map (·.id) = some id)
include hi

theorem Store.hostsOf_collectAll_of_ne {s : Store} {k : Id} (hk : k ≠ id) :
    (s.collectAll config runs).hostsOf k = s.hostsOf k := by
  induction runs generalizing s with
  | nil => rfl
  | cons run runs ih =>
    exact (ih (fun r hr => hi r (List.mem_cons_of_mem _ hr))).trans
      (CachedJob.hostsOf_collect_of_ne config run.2 (hi run List.mem_cons_self) hk)

/-- Collections change the facts of a host in the order in which they are made, whatever else is
collected for other hosts. -/
theorem Store.timeless_collectAll {s : Store} (hn : ((s.hostsOf id).map (·.name)).Nodup) :
    ((s.collectAll config runs).hostsOf id).map (·.timeless) = (s.hostsOf id).map fun h =>
      { h.timeless with
        facts := (runs.map Prod.fst).foldl
          (CachedJob.factsAfter ((s.hostsOf id).map (·.name)) h.name) h.facts } := by
  induction runs generalizing s with
  | nil => rfl
  | cons run runs ih =>
    have hrun := hi run List.mem_cons_self
    have hnames := CachedJob.map_name_collect config run.2 hrun hn
    change (((run.1.collect config s run.2).collectAll config runs).hostsOf id).map _ = _
    rw [ih (fun r hr => hi r (List.mem_cons_of_mem _ hr)) (by rw [hnames]; exact hn), hnames,
      CachedJob.hostsOf_collect config run.2 hrun hn, List.map_map]
    apply List.map_congr_left
    intro h _
    simp only [Function.comp_apply, List.map_cons, List.foldl_cons, CachedJob.factsAfter]
    by_cases ht : run.1.Takes ((s.hostsOf id).map (·.name)) h.name
    · cases run.1.facts? h.name <;> simp [ht, Host.withFacts, Host.timeless]
    · simp [ht, Host.timeless]

end

/-- Of jobs that share an inventory in slices, no two have a host in common. -/
theorem CachedJob.eq_of_takes {jobs : List CachedJob} {count : UInt32}
    (hp : jobs.map (·.spec.slice) = Slice.parts count) {names : List String} (hn : names.Nodup)
    {name : String} {job job' : CachedJob} (hj : job ∈ jobs) (hj' : job' ∈ jobs)
    (ht : job.Takes names name) (ht' : job'.Takes names name) : job = job' := by
  have hpart {k : Nat} {job : CachedJob} (hk : jobs[k]? = some job) :
      k < count.toNat ∧ job.spec.slice = Slice.part count k := by
    have hs : (Slice.parts count)[k]? = some job.spec.slice := by
      rw [← hp, List.getElem?_map, hk]
      rfl
    have hlt : k < count.toNat :=
      Slice.length_parts count ▸ (List.getElem?_eq_some_iff.mp hs).1
    exact ⟨hlt, Option.some.inj (hs.symm.trans (Slice.getElem?_parts hlt))⟩
  obtain ⟨k, hk⟩ := List.mem_iff_getElem?.mp hj
  obtain ⟨k', hk'⟩ := List.mem_iff_getElem?.mp hj'
  obtain ⟨hlt, hslice⟩ := hpart hk
  obtain ⟨hlt', hslice'⟩ := hpart hk'
  rw [Takes, hslice] at ht
  rw [Takes, hslice'] at ht'
  obtain rfl := Slice.eq_of_mem_select_part hlt hlt' hn ht ht'
  exact Option.some.inj (hk.symm.trans hk')

theorem CachedJob.foldl_factsAfter_perm {jobs order : List CachedJob} {count : UInt32}
    (hp : jobs.map (·.spec.slice) = Slice.parts count) {names : List String} (hn : names.Nodup)
    (ho : order.Perm jobs) (name : String) (facts : Vars) :
    order.foldl (factsAfter names name) facts = jobs.foldl (factsAfter names name) facts := by
  apply ho.foldl_eq'
  intro job hj job' hj' facts
  by_cases ht : job.Takes names name
  · by_cases ht' : job'.Takes names name
    · rw [eq_of_takes hp hn (ho.subset hj) (ho.subset hj') ht ht']
    · simp only [factsAfter, if_neg ht']
  · simp only [factsAfter, if_neg ht]

theorem CachedJob.foldl_factsAfter_of_not_takes {order : List CachedJob} {names : List String}
    {name : String} (h : ∀ job ∈ order, ¬job.Takes names name) (facts : Vars) :
    order.foldl (factsAfter names name) facts = facts := by
  induction order with
  | nil => rfl
  | cons job order ih =>
    rw [List.foldl_cons, factsAfter, if_neg (h job List.mem_cons_self)]
    exact ih fun other hmem => h other (List.mem_cons_of_mem _ hmem)

/-- The facts of a host that only one job takes are what that job's cache has, also when the cache is
collected more than once. -/
theorem CachedJob.foldl_factsAfter_of_takes {order : List CachedJob} {names : List String}
    {name : String} {job : CachedJob} (hj : job ∈ order) (ht : job.Takes names name)
    (honly : ∀ other ∈ order, other.Takes names name → other = job) (facts : Vars) :
    order.foldl (factsAfter names name) facts = (job.facts? name).getD facts := by
  induction order generalizing facts with
  | nil => cases hj
  | cons first order ih =>
    have hrest : ∀ other ∈ order, other.Takes names name → other = job := fun other hmem =>
      honly other (List.mem_cons_of_mem _ hmem)
    rw [List.foldl_cons]
    by_cases hmem : job ∈ order
    · rw [ih hmem hrest, factsAfter]
      split
      · rename_i hfirst
        rw [honly first List.mem_cons_self hfirst]
        cases job.facts? name <;> rfl
      · rfl
    · obtain rfl : job = first := (List.mem_cons.mp hj).resolve_right hmem
      rw [foldl_factsAfter_of_not_takes, factsAfter, if_pos ht]
      intro other hother hto
      exact hmem (hrest other hother hto ▸ hother)

/-- Whether stores differ only in when facts of hosts were last changed. -/
structure Store.SameFacts (s s' : Store) : Prop where
  records : ∃ hosts, s' = { s with hosts }
  facts : ∀ k, (s'.hostsOf k).map (·.timeless) = (s.hostsOf k).map (·.timeless)

/-- Whether jobs do not interfere when their facts are collected. -/
structure Store.CollectApart (config : Config) (s : Store) (id : Id) (jobs : List CachedJob) :
    Prop where
  /-- A job changes facts of hosts of its own slice only. -/
  alone : ∀ job ∈ jobs, ∀ now, s.DiffersInSlice (job.collect config s now) id job.spec.slice
  /-- In any order, at any times, the facts are the same in the end. -/
  order : ∀ runs runs', (runs.map Prod.fst).Perm jobs → (runs'.map Prod.fst).Perm jobs →
    (s.collectAll config runs).SameFacts (s.collectAll config runs')
  /-- In the end a host of a job's slice has the facts that this job's cache has for it, or those
  that it had if there are none. -/
  settled : ∀ runs, (runs.map Prod.fst).Perm jobs → ∀ job ∈ jobs, ∀ (p : Nat) (h : Host),
    (s.hostsOf id)[p]? = some h → h ∈ job.spec.slice.select (s.hostsOf id) →
      ((s.collectAll config runs).hostsOf id)[p]?.map (·.timeless) =
        some { h.timeless with facts := (job.facts? h.name).getD h.facts }

/-- Jobs that share an inventory in slices do not interfere when their facts are collected. -/
theorem slices_collect_apart (config : Config) {s : Store} {id : Id}
    (hn : ((s.hostsOf id).map (·.name)).Nodup) {count : UInt32} {jobs : List CachedJob}
    (hi : ∀ job ∈ jobs, job.spec.inventory.map (·.id) = some id)
    (hp : jobs.map (·.spec.slice) = Slice.parts count) : s.CollectApart config id jobs := by
  have hruns {runs : List (CachedJob × Timestamp)} (hr : (runs.map Prod.fst).Perm jobs) :
      ∀ run ∈ runs, run.1.spec.inventory.map (·.id) = some id := fun run hrun =>
    hi run.1 (hr.subset (List.mem_map_of_mem hrun))
  constructor
  case alone =>
    intro job hj now
    exact CachedJob.differsInSlice_collect config now (hi job hj) hn
  case order =>
    intro runs runs' hr hr'
    constructor
    · obtain ⟨hosts, h⟩ := s.collectAll_eq config runs
      obtain ⟨hosts', h'⟩ := s.collectAll_eq config runs'
      exact ⟨hosts', by rw [h', h]⟩
    · intro k
      by_cases hk : k = id
      · subst hk
        rw [Store.timeless_collectAll (hruns hr) hn, Store.timeless_collectAll (hruns hr') hn]
        apply List.map_congr_left
        intro h _
        rw [CachedJob.foldl_factsAfter_perm hp hn hr, CachedJob.foldl_factsAfter_perm hp hn hr']
      · rw [Store.hostsOf_collectAll_of_ne (hruns hr) hk,
          Store.hostsOf_collectAll_of_ne (hruns hr') hk]
  case settled =>
    intro runs hr job hj p h hh hmem
    have ht := (CachedJob.takes_iff hn (List.mem_of_getElem? hh)).mpr hmem
    have honly : ∀ other ∈ runs.map Prod.fst,
        other.Takes ((s.hostsOf id).map (·.name)) h.name → other = job := fun other hother hto =>
      CachedJob.eq_of_takes hp hn (hr.subset hother) hj hto ht
    rw [← List.getElem?_map, Store.timeless_collectAll (hruns hr) hn, List.getElem?_map, hh,
      Option.map_some,
      CachedJob.foldl_factsAfter_of_takes (hr.symm.subset hj) ht honly]

def Store.twoHosts : Store :=
  (∅ : Store).insertHosts ⟨2⟩ <| ["db", "web"].map fun name =>
    ⟨name, ⟨2⟩, (∅ : Vars).insert "os" (.text "linux"), none⟩

def CachedJob.twoSlices : List CachedJob := (Slice.parts 2).map fun slice =>
  { spec := { (default : JobSpec) with
      inventory := some ⟨⟨2⟩, "all", 2, none, [], false⟩
      slice }
    directory := ["facts"]
    since := none
    files := ∅ }

theorem two_slices_collect_apart :
    (∀ job ∈ CachedJob.twoSlices, Store.twoHosts.DiffersInSlice
      (job.collect default Store.twoHosts default) ⟨2⟩ job.spec.slice) ∧
    (Store.twoHosts.collectAll default (CachedJob.twoSlices.map (·, default))).SameFacts
      (Store.twoHosts.collectAll default (CachedJob.twoSlices.reverse.map (·, .ofSeconds 1))) := by
  have hmap (jobs : List CachedJob) (now : Timestamp) :
      (jobs.map (·, now)).map Prod.fst = jobs := by
    rw [List.map_map]
    exact List.map_id jobs
  have hn : ((Store.twoHosts.hostsOf ⟨2⟩).map (·.name)).Nodup := by decide
  have hi : ∀ job ∈ CachedJob.twoSlices, job.spec.inventory.map (·.id) = some ⟨2⟩ := by decide
  have hp : CachedJob.twoSlices.map (·.spec.slice) = Slice.parts 2 := by decide
  have hapart := slices_collect_apart default hn hi hp
  refine ⟨fun job hj => hapart.alone job hj default, hapart.order _ _ ?_ ?_⟩
  · rw [hmap]
  · rw [hmap]
    exact CachedJob.twoSlices.reverse_perm

end JobLaunch
