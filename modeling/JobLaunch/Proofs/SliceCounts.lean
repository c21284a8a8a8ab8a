import JobLaunch.Proofs.PlannedSpecs
import JobLaunch.Proofs.UnpromptedOverrides
import Mathlib.Order.Lattice
/-!
Which hosts are counted for slices. A requested slice count is checked against the inventory that is
requested with it, and planned on the inventory that is accepted. The two are one, unless the
request names the template's own inventory again: then the template's record stays.
-/
namespace JobLaunch

/-- How many of the requested slices have a host. Without an inventory hosts are not counted. -/
def filledSlices (inventory : Option Inventory) (requested : UInt32) : Nat :=
  match inventory with
  | some i => min requested.toNat i.hostCount.toNat
  | none => requested.toNat

/-- The minimum is no more than the requested count, so its word is not cut off. -/
theorem toNat_effectiveSliceCount (inventory : Option Inventory) (requested : UInt32) :
    (effectiveSliceCount inventory requested).toNat = filledSlices inventory requested := by
  cases inventory with
  | none => rfl
  | some i =>
    have hr := requested.toNat_lt_size
    have hle : min requested.toNat i.hostCount.toNat ≤ requested.toNat := Nat.min_le_left _ _
    rw [effectiveSliceCount, filledSlices, UInt64.toNat_toUInt32, UInt64.toNat_min,
      UInt32.toNat_toUInt64]
    exact Nat.mod_eq_of_lt (Nat.lt_of_le_of_lt hle hr)

theorem filledSlices_congr {i j : Option Inventory}
    (h : i.map (·.hostCount) = j.map (·.hostCount)) (n : UInt32) :
    filledSlices i n = filledSlices j n := by
  cases i with
  | none =>
    cases j with
    | none => rfl
    | some j => cases h
  | some i =>
    cases j with
    | none => cases h
    | some j =>
      have he : i.hostCount = j.hostCount := Option.some.inj h
      simp only [filledSlices, he]

/-- Whether a request that is prompted for the inventory names the template's own again. Inventories
are compared by id, so the requested record need not be the template's. -/
structure LaunchRequest.Repeats (r : LaunchRequest) (t : JobTemplate) (asked own : Inventory) :
    Prop where
  prompted : t.ask.inventory
  names : r.overrides.inventory = some asked
  has : t.inventory = some own
  same : own.id = asked.id

namespace JobTemplate
variable {t : JobTemplate} {m : UInt32} {r : LaunchRequest}

/-- The inventory whose hosts are counted when given overrides are asked for. -/
def countedInventory (t : JobTemplate) (o : Overrides) : Option Inventory :=
  (if t.ask.inventory then o.inventory else none).or t.inventory

def countedSlices (t : JobTemplate) (o : Overrides) : UInt32 :=
  (if t.ask.jobSliceCount then o.jobSliceCount else none).getD t.sliceCount

theorem toNat_effectiveSliceCount (o : Overrides) :
    (t.effectiveSliceCount o).toNat = filledSlices (t.countedInventory o) (t.countedSlices o) :=
  JobLaunch.toNat_effectiveSliceCount _ _

theorem accepted_inventory : (t.resolution m r).accepted.inventory =
    if t.ask.inventory then r.overrides.inventory.bind (t.effect? .inventory) else none := by
  refine Option.ext fun i => ?_
  have h := accepted_resolution_eq_some (t := t) (m := m) (r := r) (f := .inventory) (by decide)
    (y := i)
  change (t.resolution m r).accepted.inventory = some i ↔ _ at h
  rw [h]
  cases ha : t.ask.inventory with
  | false => simp [PerField.get, ha]
  | true => simp [PerField.get, ha, violation?, Option.bind_eq_some_iff]

/-- The inventory of the planned jobs is the one whose hosts planning counts. -/
theorem countedInventory_accepted : t.countedInventory (t.resolution m r).accepted =
    (t.resolution m r).accepted.inventory.or t.inventory := by
  rw [countedInventory, accepted_inventory]
  split <;> rfl

theorem effect?_inventory (i : Inventory) : t.effect? .inventory i =
    if t.inventory.any fun own => own.id == i.id then none else some i :=
  effect?_of_scalar (f := .inventory) rfl (by decide) i

theorem countedInventory_of_repeats {asked own : Inventory} (h : r.Repeats t asked own) :
    t.countedInventory r.overrides = some asked ∧
      t.countedInventory (t.resolution m r).accepted = some own := by
  constructor
  · rw [countedInventory, if_pos h.prompted, h.names, Option.some_or]
  · have he : t.effect? .inventory asked = none := by
      rw [effect?_inventory, if_pos (by simp [h.has, h.same])]
    rw [countedInventory_accepted, accepted_inventory, if_pos h.prompted, h.names,
      Option.bind_some, he, Option.none_or, h.has]

theorem countedInventory_of_not_repeats (h : ¬ ∃ asked own, r.Repeats t asked own) :
    t.countedInventory (t.resolution m r).accepted = t.countedInventory r.overrides := by
  rw [countedInventory_accepted, accepted_inventory, countedInventory]
  by_cases ha : t.ask.inventory
  · rw [if_pos ha, if_pos ha]
    cases hr : r.overrides.inventory with
    | none => rfl
    | some asked =>
      have he : t.effect? .inventory asked = some asked := by
        rw [effect?_inventory, if_neg]
        intro hi
        cases ho : t.inventory with
        | none => simp [ho] at hi
        | some own => exact h ⟨asked, own, ha, hr, ho, by simpa [ho] using hi⟩
      rw [Option.bind_some, he]
  · rw [if_neg ha, if_neg ha]

theorem countedSlices_of_asked {o : Overrides} {n : UInt32} (ha : t.ask.jobSliceCount)
    (ho : o.jobSliceCount = some n) : t.countedSlices o = n := by
  rw [countedSlices, if_pos ha, ho, Option.getD_some]

/-- A slice count that is asked for is valid when it is one slice, or leaves more than one slice
with hosts. -/
theorem violation?_sliceCount {o : Overrides} {n : UInt32} (ha : t.ask.jobSliceCount)
    (ho : o.jobSliceCount = some n) : t.violation? m o .jobSliceCount n = none ↔
      (1 < n → 1 < filledSlices (t.countedInventory o) n) := by
  have hle : t.effectiveSliceCount o ≤ 1 ↔ filledSlices (t.countedInventory o) n ≤ 1 := by
    rw [UInt32.le_iff_toNat_le, toNat_effectiveSliceCount, countedSlices_of_asked ha ho]
    rfl
  rw [violation?, ite_eq_right_iff, ← Nat.not_le, ← hle]
  constructor
  · intro h hn hs
    cases h ⟨hn, hs⟩
  · rintro h ⟨hn, hs⟩
    exact absurd hs (h hn)

/-- An accepted slice count is the one that was requested, and passed the check. -/
theorem of_accepted_sliceCount {n : UInt32}
    (h : (t.resolution m r).accepted.jobSliceCount = some n) :
    t.ask.jobSliceCount ∧ r.overrides.jobSliceCount = some n ∧
      (1 < n → 1 < filledSlices (t.countedInventory r.overrides) n) := by
  obtain ⟨x, hx, he, ha, hv⟩ := (accepted_resolution_eq_some (f := .jobSliceCount) (by decide)).mp h
  have hxn : x = n := by
    rw [effect?_of_scalar rfl (by decide)] at he
    split at he
    · cases he
    · exact Option.some.inj he
  subst hxn
  exact ⟨ha, hx, (violation?_sliceCount ha hx).mp hv⟩

theorem toNat_effectiveSliceCount_accepted {n : UInt32}
    (h : (t.resolution m r).accepted.jobSliceCount = some n) :
    (t.effectiveSliceCount (t.resolution m r).accepted).toNat =
      filledSlices (t.countedInventory (t.resolution m r).accepted) n := by
  rw [toNat_effectiveSliceCount, countedSlices_of_asked (of_accepted_sliceCount h).1 h]

/-- Slices that passed the check are planned, unless planning counts the hosts of a repeated
inventory and finds one at most. -/
theorem two_le_filledSlices_accepted {n : UInt32}
    (h : (t.resolution m r).accepted.jobSliceCount = some n) (hn : 1 < n) :
    2 ≤ filledSlices (t.countedInventory (t.resolution m r).accepted) n ↔
      ¬ ∃ asked own, r.Repeats t asked own ∧ own.hostCount ≤ 1 := by
  have hn' : 1 < n.toNat := UInt32.lt_iff_toNat_lt.mp hn
  have hle (own : Inventory) : own.hostCount ≤ 1 ↔ own.hostCount.toNat ≤ 1 :=
    UInt64.le_iff_toNat_le
  by_cases hr : ∃ asked own, r.Repeats t asked own
  · obtain ⟨asked, own, hr⟩ := hr
    -- planning counts the hosts of `own`, whatever the check has counted for `asked`
    rw [(countedInventory_of_repeats hr).2, filledSlices]
    constructor
    · rintro h2 ⟨asked', own', hr', ho⟩
      have he : own' = own := Option.some.inj (hr'.has.symm.trans hr.has)
      rw [he, hle] at ho
      omega
    · intro hs
      have ho : ¬ own.hostCount ≤ 1 := fun ho => hs ⟨asked, own, hr, ho⟩
      rw [hle] at ho
      omega
  · rw [countedInventory_of_not_repeats hr]
    refine iff_of_true ((of_accepted_sliceCount h).2.2 hn) ?_
    rintro ⟨asked, own, hr', -⟩
    exact hr ⟨asked, own, hr'⟩

end JobTemplate

/-- An accepted slice count above one is used, as far as the inventory of the planned jobs has hosts:
the check has counted the hosts that planning counts. It has not where the request repeats the
template's own inventory and that has one host at most; then the launch is not sliced. -/
theorem slices_of_accepted_count (t : JobTemplate) (m : UInt32) (r : LaunchRequest) (n : UInt32)
    (hp : r.preventSlicing = false) (ha : (t.resolution m r).accepted.jobSliceCount = some n)
    (hn : 1 < n) :
    ((∃ asked own, r.Repeats t asked own ∧ own.hostCount ≤ 1) →
      ∃ spec, (Template.job t).planned m r = .single spec ∧ spec.slice = .whole) ∧
    ((¬ ∃ asked own, r.Repeats t asked own ∧ own.hostCount ≤ 1) →
      ∃ workflow slices, (Template.job t).planned m r = .sliced workflow slices ∧
        2 ≤ workflow.sliceCount.toNat ∧
        workflow.sliceCount.toNat = filledSlices workflow.inventory n ∧
        ∀ spec ∈ slices, spec.inventory = workflow.inventory) := by
  have hcount := JobTemplate.toNat_effectiveSliceCount_accepted ha
  have htwo := JobTemplate.two_le_filledSlices_accepted ha hn
  rw [← hcount] at htwo
  rcases t.plan_cases (t.resolution m r) r with ⟨hp', -⟩ | ⟨-, hle, hplan⟩ | ⟨-, hle, hplan⟩
  · rw [hp] at hp'
    cases hp'
  · refine ⟨fun _ => ⟨_, hplan, rfl⟩, fun hs => ?_⟩
    have h2 := htwo.mpr hs
    omega
  · refine ⟨fun hs => absurd hs (htwo.mp hle), fun _ => ⟨_, _, hplan, hle, ?_, fun spec hs => ?_⟩⟩
    · rw [JobTemplate.countedInventory_accepted] at hcount
      exact hcount
    · obtain ⟨slice, -, rfl⟩ := List.mem_map.mp hs
      rfl

def LaunchRequest.threeSlices : LaunchRequest where
  overrides := ((∅ : Overrides).set .inventory (some ⟨⟨2⟩, "all", 2, none, [], false⟩)).set
    .jobSliceCount (some 3)

def JobTemplate.oneHost : JobTemplate :=
  { JobTemplate.sample [.inventory, .jobSliceCount] with
    inventory := some ⟨⟨2⟩, "all", 1, none, [], false⟩ }

theorem accepted_slices_are_lost :
    (JobTemplate.oneHost.resolution 0 .threeSlices).launchable ∧
    (JobTemplate.oneHost.resolution 0 .threeSlices).accepted.jobSliceCount = some 3 ∧
    ∃ spec, (Template.job .oneHost).planned 0 .threeSlices = .single spec ∧ spec.slice = .whole := by
  have ha : (JobTemplate.oneHost.resolution 0 .threeSlices).accepted.jobSliceCount = some 3 := by
    decide
  obtain ⟨hlost, -⟩ := slices_of_accepted_count .oneHost 0 .threeSlices 3 rfl ha (by decide)
  exact ⟨by decide, ha, hlost ⟨_, _, ⟨rfl, rfl, rfl, rfl⟩, by decide⟩⟩

end JobLaunch
