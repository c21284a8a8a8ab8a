import JobLaunch.Proofs.SliceShares
import Mathlib.Order.Lattice
/-!
What a job is taken to cost. Its hosts are counted by a formula over 64-bit words, which gives the
number of hosts that its slice selects. Where no word holds the sum in the formula, the job has no
cost at all.
-/
namespace JobLaunch

private theorem toNat_sub_or_zero (a b : UInt64) :
    (if a < b then 0 else a - b).toNat = a.toNat - b.toNat := by
  split
  · rename_i h
    exact (Nat.sub_eq_zero_of_le (Nat.le_of_lt (UInt64.lt_iff_toNat_lt.mp h))).symm
  · rename_i h
    exact UInt64.toNat_sub_of_le _ _ (UInt64.not_lt.mp h)

section
variable {a b : UInt64}

theorem wordSum?_eq_none_iff : wordSum? a b = none ↔ 0x10000000000000000 ≤ a.toNat + b.toNat := by
  rw [wordSum?]
  split
  · rename_i h
    exact iff_of_false nofun (Nat.not_le.mpr h)
  · rename_i h
    exact iff_of_true rfl (Nat.not_lt.mp h)

theorem map_toNat_wordSum? (h : a.toNat + b.toNat < 0x10000000000000000) :
    (wordSum? a b).map UInt64.toNat = some (a.toNat + b.toNat) := by
  rw [wordSum?, if_pos h, Option.map_some, UInt64.toNat_add, Nat.mod_eq_of_lt h]

end

namespace JobSpec
variable {s : JobSpec}

def forkCount (s : JobSpec) : Nat := if s.options.forks = 0 then 5 else s.options.forks.toNat

/-- The hosts that the job is taken to have, counted without a limit. -/
def exactHosts (s : JobSpec) : Nat :=
  if s.launchType = .callback then 2
  else match s.inventory with
    | none => s.forkCount
    | some inventory =>
      if s.slice.isSliced then
        (inventory.hostCount.toNat + s.slice.count.toNat - s.slice.number.toNat) /
          s.slice.count.toNat
      else inventory.hostCount.toNat

def exactImpact (s : JobSpec) : Nat := min s.exactHosts s.forkCount + 1

/-- Whether the hosts of the job are counted by a sum that no word holds. -/
def Overflows (s : JobSpec) : Prop :=
  s.launchType ≠ .callback ∧ s.slice.isSliced ∧
    ∃ inventory, s.inventory = some inventory ∧
      0x10000000000000000 ≤ inventory.hostCount.toNat + s.slice.count.toNat

theorem toNat_effectiveForks (s : JobSpec) : s.effectiveForks.toNat = s.forkCount := by
  rw [effectiveForks, forkCount, apply_ite UInt64.toNat, UInt32.toNat_toUInt64]
  rfl

theorem forkCount_lt (s : JobSpec) : s.forkCount < 0x100000000 := by
  unfold forkCount
  split
  · decide
  · exact UInt32.toNat_lt_size _

theorem exactHosts_of_callback (hl : s.launchType = .callback) : s.exactHosts = 2 := if_pos hl

section
variable {inventory : Inventory} (hl : s.launchType ≠ .callback)
  (hi : s.inventory = some inventory)
include hl hi

theorem exactHosts_of_not_sliced (hs : ¬ s.slice.isSliced) :
    s.exactHosts = inventory.hostCount.toNat := by
  simp only [exactHosts, if_neg hl, hi, if_neg hs]

variable (hs : s.slice.isSliced)
include hs

theorem exactHosts_of_sliced : s.exactHosts =
    (inventory.hostCount.toNat + s.slice.count.toNat - s.slice.number.toNat) /
      s.slice.count.toNat := by
  simp only [exactHosts, if_neg hl, hi, if_pos hs]

theorem expectedHosts?_of_sliced : s.expectedHosts? =
    (wordSum? inventory.hostCount s.slice.count.toUInt64).map fun upTo =>
      (if upTo < s.slice.number.toUInt64 then 0 else upTo - s.slice.number.toUInt64) /
        s.slice.count.toUInt64 := by
  simp only [expectedHosts?, if_neg hl, hi, if_pos hs]

end

theorem expectedHosts?_of_overflows (h : s.Overflows) : s.expectedHosts? = none := by
  obtain ⟨hl, hs, inventory, hi, hsum⟩ := h
  rw [expectedHosts?_of_sliced hl hi hs, Option.map_eq_none_iff, wordSum?_eq_none_iff,
    UInt32.toNat_toUInt64]
  exact hsum

theorem map_toNat_expectedHosts? (h : ¬ s.Overflows) :
    s.expectedHosts?.map UInt64.toNat = some s.exactHosts := by
  by_cases hl : s.launchType = .callback
  · rw [exactHosts_of_callback hl, expectedHosts?, if_pos hl]
    rfl
  cases hi : s.inventory with
  | none =>
    simp only [expectedHosts?, exactHosts, if_neg hl, hi]
    exact congrArg some s.toNat_effectiveForks
  | some inventory =>
    by_cases hs : s.slice.isSliced
    · have hfits : inventory.hostCount.toNat + s.slice.count.toUInt64.toNat <
          0x10000000000000000 :=
        Nat.lt_of_not_le fun hsum => h ⟨hl, hs, inventory, hi, hsum⟩
      obtain ⟨upTo, hupTo, hvalue⟩ := Option.map_eq_some_iff.mp (map_toNat_wordSum? hfits)
      rw [expectedHosts?_of_sliced hl hi hs, hupTo, exactHosts_of_sliced hl hi hs, Option.map_some,
        Option.map_some, UInt64.toNat_div, toNat_sub_or_zero, hvalue, UInt32.toNat_toUInt64,
        UInt32.toNat_toUInt64]
    · simp only [exactHosts_of_not_sliced hl hi hs, expectedHosts?, if_neg hl, hi, if_neg hs,
        Option.map_some]

theorem taskImpact?_of_overflows (h : s.Overflows) : s.taskImpact? = none := by
  rw [taskImpact?, expectedHosts?_of_overflows h, Option.bind_none]

/-- The last sum stays within the words, for forks are 32-bit words. -/
theorem map_toNat_taskImpact? (h : ¬ s.Overflows) :
    s.taskImpact?.map UInt64.toNat = some s.exactImpact := by
  obtain ⟨hosts, hhosts, hvalue⟩ := Option.map_eq_some_iff.mp (map_toNat_expectedHosts? h)
  have hmin : (min hosts s.effectiveForks).toNat = min s.exactHosts s.forkCount := by
    rw [UInt64.toNat_min, hvalue, toNat_effectiveForks]
  have hone : UInt64.toNat 1 = 1 := rfl
  have hf := s.forkCount_lt
  rw [taskImpact?, hhosts, Option.bind_some, exactImpact, ← hmin]
  exact map_toNat_wordSum? (by omega)

theorem taskImpact?_eq_none_iff : s.taskImpact? = none ↔ s.Overflows := by
  refine ⟨fun hnone => ?_, taskImpact?_of_overflows⟩
  by_contra h
  have himpact := map_toNat_taskImpact? h
  rw [hnone] at himpact
  cases himpact

theorem toNat_of_taskImpact? {n : UInt64} (hn : s.taskImpact? = some n) :
    n.toNat = s.exactImpact := by
  have h : ¬ s.Overflows := fun h => by simp [taskImpact?_of_overflows h] at hn
  have himpact := map_toNat_taskImpact? h
  rw [hn] at himpact
  exact Option.some.inj himpact

theorem forkCount_le_exactHosts_of_overflows (h : s.Overflows) : s.forkCount ≤ s.exactHosts := by
  obtain ⟨hl, hs, inventory, hi, hsum⟩ := h
  have hc : s.slice.count.toNat < 0x100000000 := s.slice.count.toNat_lt_size
  have hk : s.slice.number.toNat < 0x100000000 := s.slice.number.toNat_lt_size
  have hf := s.forkCount_lt
  have hmul : s.forkCount * s.slice.count.toNat ≤ 0xFFFFFFFF * 0xFFFFFFFF :=
    Nat.mul_le_mul (by omega) (by omega)
  have hpos : 0 < s.slice.count.toNat := Nat.zero_lt_of_lt (Slice.isSliced_iff.mp hs)
  rw [exactHosts_of_sliced hl hi hs, Nat.le_div_iff_mul_le hpos]
  omega

theorem exactImpact_of_overflows (h : s.Overflows) : s.exactImpact = s.forkCount + 1 := by
  rw [exactImpact, Nat.min_eq_right (forkCount_le_exactHosts_of_overflows h)]

theorem exactImpact_le (s : JobSpec) : s.exactImpact ≤ max s.forkCount 2 + 1 := by
  rw [exactImpact]
  omega

/-- Without a limit, the hosts of a job that has an inventory are those of its slice. -/
theorem exactHosts_eq_length_select {inventory : Inventory} (hl : s.launchType ≠ .callback)
    (hi : s.inventory = some inventory) (hs : s.slice.count ≤ 1 ∨ 1 ≤ s.slice.number) {α : Type}
    {hosts : List α} (hn : hosts.length = inventory.hostCount.toNat) :
    s.exactHosts = (s.slice.select hosts).length := by
  by_cases hsliced : s.slice.isSliced
  · have hnumber : s.slice.number ≠ 0 := by
      rintro h0
      rcases hs with hs | hs
      · exact absurd (Slice.isSliced_iff.mp hsliced) (Nat.not_lt.mpr (UInt32.le_iff_toNat_le.mp hs))
      · rw [h0] at hs
        exact absurd hs (by decide)
    rw [exactHosts_of_sliced hl hi hsliced, Slice.length_select hsliced hnumber, hn]
  · rw [exactHosts_of_not_sliced hl hi hsliced, Slice.select_of_not_sliced hsliced, hn]

def onInventory (s : JobSpec) (inventory : Inventory) : JobSpec :=
  { s with inventory := some inventory }

section
variable {fewer more : Inventory} (h : fewer.hostCount ≤ more.hostCount)
include h

theorem exactImpact_mono :
    (s.onInventory fewer).exactImpact ≤ (s.onInventory more).exactImpact := by
  have hn : fewer.hostCount.toNat ≤ more.hostCount.toNat := UInt64.le_iff_toNat_le.mp h
  have hhosts : (s.onInventory fewer).exactHosts ≤ (s.onInventory more).exactHosts := by
    by_cases hl : s.launchType = .callback
    · rw [exactHosts_of_callback (s := s.onInventory fewer) hl,
        exactHosts_of_callback (s := s.onInventory more) hl]
    by_cases hs : s.slice.isSliced
    · rw [exactHosts_of_sliced (s := s.onInventory fewer) hl rfl hs,
        exactHosts_of_sliced (s := s.onInventory more) hl rfl hs]
      exact Nat.div_le_div_right (Nat.sub_le_sub_right (Nat.add_le_add_right hn _) _)
    · rw [exactHosts_of_not_sliced (s := s.onInventory fewer) hl rfl hs,
        exactHosts_of_not_sliced (s := s.onInventory more) hl rfl hs]
      exact hn
  have hforks : (s.onInventory fewer).forkCount = (s.onInventory more).forkCount := rfl
  rw [exactImpact, exactImpact, hforks]
  omega

theorem Overflows.mono (ho : (s.onInventory fewer).Overflows) :
    (s.onInventory more).Overflows := by
  obtain ⟨hl, hs, _, ⟨⟩, hsum⟩ := ho
  have hn : fewer.hostCount.toNat ≤ more.hostCount.toNat := UInt64.le_iff_toNat_le.mp h
  exact ⟨hl, hs, more, rfl, Nat.le_trans hsum (Nat.add_le_add_right hn _)⟩

theorem exists_taskImpact?_le {m : UInt64} (hm : (s.onInventory more).taskImpact? = some m) :
    ∃ n, (s.onInventory fewer).taskImpact? = some n ∧ n ≤ m := by
  cases hn : (s.onInventory fewer).taskImpact? with
  | none =>
    have ho := Overflows.mono h (taskImpact?_eq_none_iff.mp hn)
    rw [taskImpact?_of_overflows ho] at hm
    cases hm
  | some n =>
    refine ⟨n, rfl, UInt64.le_iff_toNat_le.mpr ?_⟩
    rw [toNat_of_taskImpact? hn, toNat_of_taskImpact? hm]
    exact exactImpact_mono h

end
end JobSpec

/-- A job on an inventory that no callback has started costs one more than the number of hosts that
its slice selects, or one more than its forks where these are fewer. -/
theorem impact_counts_selected_hosts (s : JobSpec) {inventory : Inventory}
    (hl : s.launchType ≠ .callback) (hi : s.inventory = some inventory)
    (hs : s.slice.count ≤ 1 ∨ 1 ≤ s.slice.number) {α : Type} (hosts : List α)
    (hn : hosts.length = inventory.hostCount.toNat) (hmax : hosts.length ≤ 0x7FFFFFFFFFFFFFFF) :
    s.taskImpact?.map UInt64.toNat =
      some (min (s.slice.select hosts).length s.forkCount + 1) := by
  have hc : s.slice.count.toNat < 0x100000000 := s.slice.count.toNat_lt_size
  have hfits : ¬ s.Overflows := by
    rintro ⟨-, -, counted, hcounted, hsum⟩
    cases hi.symm.trans hcounted
    omega
  rw [JobSpec.map_toNat_taskImpact? hfits, JobSpec.exactImpact,
    JobSpec.exactHosts_eq_length_select hl hi hs hn]

/-- A job on the last of seven hosts: the number of its slice is larger than the slice count. -/
def JobSpec.sampleBeyond : JobSpec :=
  { (default : JobSpec) with
    inventory := some ⟨⟨2⟩, "all", 7, none, [], false⟩
    slice := ⟨7, 3⟩ }

theorem slice_beyond_count_has_one_host :
    JobSpec.sampleBeyond.slice.select ["a", "b", "c", "d", "e", "f", "g"] = ["g"] ∧
    JobSpec.sampleBeyond.taskImpact?.map UInt64.toNat = some 2 := by
  have hselect : JobSpec.sampleBeyond.slice.select ["a", "b", "c", "d", "e", "f", "g"] = ["g"] := by
    simp [JobSpec.sampleBeyond, Slice.select, Slice.isSliced, Slice.everyNth]
  have himpact := impact_counts_selected_hosts .sampleBeyond (by decide) rfl (.inr (by decide))
    ["a", "b", "c", "d", "e", "f", "g"] rfl (by decide)
  rw [hselect] at himpact
  exact ⟨hselect, himpact⟩

/-- A job has an impact unless the sum of its inventory's hosts and its slice count needs more than
64 bits, and then it is the exact one, which would be one more than the forks for a job without an
impact. It always costs something, and never more than its forks or a callback's hosts and one. A
smaller inventory has an impact where a larger one has, and no larger one. -/
theorem impact_exact_unless_overflow (s : JobSpec) :
    (s.taskImpact? = none ↔ s.Overflows) ∧
    (∀ n, s.taskImpact? = some n →
      n.toNat = s.exactImpact ∧ 1 ≤ n.toNat ∧ n.toNat ≤ max s.forkCount 2 + 1) ∧
    (s.Overflows → s.exactImpact = s.forkCount + 1) ∧
    ∀ fewer more : Inventory, fewer.hostCount ≤ more.hostCount →
      (s.onInventory fewer).exactImpact ≤ (s.onInventory more).exactImpact ∧
      ∀ m, (s.onInventory more).taskImpact? = some m →
        ∃ n, (s.onInventory fewer).taskImpact? = some n ∧ n ≤ m := by
  refine ⟨JobSpec.taskImpact?_eq_none_iff, fun n hn => ?_, JobSpec.exactImpact_of_overflows,
    fun fewer more h => ⟨JobSpec.exactImpact_mono h, fun m => JobSpec.exists_taskImpact?_le h⟩⟩
  have hexact := JobSpec.toNat_of_taskImpact? hn
  exact ⟨hexact, hexact ▸ Nat.le_add_left 1 _, hexact ▸ s.exactImpact_le⟩

def JobSpec.sampleHalf (hosts : UInt64) : JobSpec :=
  { (default : JobSpec) with
    inventory := some ⟨⟨2⟩, "all", hosts, none, [], false⟩
    slice := ⟨1, 2⟩ }

/-- Half of the largest inventory there is would keep all forks busy, and has no impact. -/
theorem half_of_largest_inventory_overflows :
    (JobSpec.sampleHalf 0xFFFFFFFFFFFFFFFD).taskImpact? = some 6 ∧
    (JobSpec.sampleHalf 0xFFFFFFFFFFFFFFFF).exactImpact = 6 ∧
    (JobSpec.sampleHalf 0xFFFFFFFFFFFFFFFF).taskImpact? = none := by
  obtain ⟨hnone, -, hexact, -⟩ := impact_exact_unless_overflow (.sampleHalf 0xFFFFFFFFFFFFFFFF)
  have hoverflows : (JobSpec.sampleHalf 0xFFFFFFFFFFFFFFFF).Overflows :=
    ⟨by decide, by decide, _, rfl, by decide⟩
  exact ⟨by decide, hexact hoverflows, hnone.mpr hoverflows⟩

end JobLaunch
