import JobLaunch.Planning
import Mathlib.Logic.ExistsUnique
import Mathlib.Order.Lattice
/-!
How slices share hosts. The slices of a whole deal the hosts out in rounds, so each slice is known by
the positions it takes: slice `k + 1` of `n` takes those that leave `k` when divided by `n`.
-/
namespace JobLaunch.Slice
variable {α : Type}

theorem isSliced_iff {s : Slice} : s.isSliced ↔ 1 < s.count.toNat := by
  simp [isSliced, UInt32.lt_iff_toNat_lt]

theorem getElem?_everyNth {step : Nat} (h : 0 < step) (xs : List α) (j : Nat) :
    (everyNth step xs)[j]? = xs[j * step]? := by
  induction j generalizing xs with
  | zero => cases xs <;> simp [everyNth]
  | succ j ih =>
    cases xs with
    | nil => simp [everyNth]
    | cons x xs =>
      have hj : (j + 1) * step = (step - 1 + j * step) + 1 := by
        rw [Nat.succ_mul]
        omega
      rw [everyNth, List.getElem?_cons_succ, ih, List.getElem?_drop, hj, List.getElem?_cons_succ]

/-- The position, among all hosts, of a host of a slice. -/
def position (s : Slice) (j : Nat) : Nat :=
  if s.isSliced ∧ s.number ≠ 0 then s.number.toNat - 1 + j * s.count.toNat else j

def places (s : Slice) (hostCount : Nat) : List Nat := s.select (List.range hostCount)

theorem getElem?_select (s : Slice) (hosts : List α) (j : Nat) :
    (s.select hosts)[j]? = hosts[s.position j]? := by
  unfold select position
  split
  · rename_i hs
    rw [getElem?_everyNth (Nat.zero_lt_of_lt (isSliced_iff.mp hs.1)), List.getElem?_drop]
  · rfl

theorem lt_length_select {s : Slice} {hosts : List α} {j : Nat} :
    j < (s.select hosts).length ↔ s.position j < hosts.length := by
  rw [← Nat.not_le, ← Nat.not_le, ← List.getElem?_eq_none_iff, ← List.getElem?_eq_none_iff,
    getElem?_select]

theorem select_of_not_sliced {s : Slice} (hs : ¬ s.isSliced) (hosts : List α) :
    s.select hosts = hosts :=
  if_neg fun h => hs h.1

/-- A numbered slice has a host in every round, the last one perhaps excepted. -/
theorem length_select {s : Slice} (hs : s.isSliced) (hn : s.number ≠ 0) (hosts : List α) :
    (s.select hosts).length =
      (hosts.length + s.count.toNat - s.number.toNat) / s.count.toNat := by
  have hc := isSliced_iff.mp hs
  have hk : s.number.toNat ≠ 0 := fun h => hn (UInt32.toNat_inj.mp h)
  refine eq_of_forall_lt_iff fun j => ?_
  rw [lt_length_select, position, if_pos ⟨hs, hn⟩, ← Nat.succ_le_iff (m := j),
    Nat.le_div_iff_mul_le (Nat.zero_lt_of_lt hc), Nat.succ_mul]
  omega

theorem getElem?_places {s : Slice} {n j i : Nat} :
    (s.places n)[j]? = some i ↔ i < n ∧ s.position j = i := by
  rw [places, getElem?_select, List.getElem?_eq_some_iff]
  simp only [List.getElem_range, List.length_range]
  constructor
  · rintro ⟨hn, rfl⟩
    exact ⟨hn, rfl⟩
  · rintro ⟨hn, rfl⟩
    exact ⟨hn, rfl⟩

/-- The hosts of a slice are those at its positions. -/
theorem select_eq_places (s : Slice) (hosts : List α) :
    (s.select hosts).map some = (s.places hosts.length).map (hosts[·]?) := by
  refine List.ext_getElem? fun j => ?_
  rw [List.getElem?_map, List.getElem?_map, places, getElem?_select, getElem?_select]
  by_cases hj : s.position j < hosts.length
  · rw [List.getElem?_range hj, List.getElem?_eq_getElem hj]
    simp [hj]
  · have hn : hosts.length ≤ s.position j := Nat.le_of_not_lt hj
    rw [List.getElem?_eq_none hn, List.getElem?_eq_none (by simpa using hn)]
    rfl

@[simp] theorem select_whole (hosts : List α) : whole.select hosts = hosts :=
  if_neg fun h => h.2 rfl

def part (count : UInt32) (k : Nat) : Slice := ⟨UInt32.ofNat (k + 1), count⟩

theorem parts_eq_map (count : UInt32) : parts count = (List.range count.toNat).map (part count) :=
  rfl

theorem length_parts (count : UInt32) : (parts count).length = count.toNat := by
  simp [parts]

theorem getElem?_parts {count : UInt32} {k : Nat} (hk : k < count.toNat) :
    (parts count)[k]? = some (part count k) := by
  rw [parts_eq_map, List.getElem?_map, List.getElem?_range hk]
  rfl

theorem get_parts {count : UInt32} (k : Fin (parts count).length) :
    (parts count).get k = part count k := by
  have hk : (k : Nat) < count.toNat := length_parts count ▸ k.isLt
  exact (List.getElem?_eq_some_iff.mp (getElem?_parts hk)).2

theorem mem_parts {count : UInt32} {s : Slice} (h : s ∈ parts count) :
    ∃ k < count.toNat, s = part count k := by
  obtain ⟨k, hk, rfl⟩ := List.mem_map.mp h
  exact ⟨k, List.mem_range.mp hk, rfl⟩

theorem count_of_mem_parts {count : UInt32} {s : Slice} (h : s ∈ parts count) :
    s.count = count := by
  obtain ⟨k, -, rfl⟩ := mem_parts h
  rfl

section
variable {count : UInt32} {k : Nat} (hk : k < count.toNat)
include hk

/-- Numbers up to the count are not cut off. -/
theorem toNat_number_part : (part count k).number.toNat = k + 1 := by
  have hc := count.toNat_lt_size
  exact UInt32.toNat_ofNat_of_lt' (by omega)

variable (h2 : 2 ≤ count.toNat)
include h2

theorem position_part (j : Nat) : (part count k).position j = k + j * count.toNat := by
  have hs : (part count k).isSliced := isSliced_iff.mpr h2
  have hn : (part count k).number ≠ 0 := by
    intro h0
    have h := toNat_number_part hk
    rw [h0] at h
    simp at h
  rw [position, if_pos ⟨hs, hn⟩, toNat_number_part hk]
  rfl

theorem mem_places_part {n i : Nat} :
    i ∈ (part count k).places n ↔ i < n ∧ i % count.toNat = k := by
  rw [List.mem_iff_getElem?]
  simp only [getElem?_places, position_part hk h2]
  constructor
  · rintro ⟨j, hn, rfl⟩
    rw [Nat.add_mul_mod_self_right]
    exact ⟨hn, Nat.mod_eq_of_lt hk⟩
  · rintro ⟨hn, hm⟩
    refine ⟨i / count.toNat, hn, ?_⟩
    rw [← hm, Nat.mul_comm]
    exact Nat.mod_add_div i count.toNat

theorem pairwise_places_part (n : Nat) : ((part count k).places n).Pairwise (· < ·) := by
  rw [List.pairwise_iff_getElem]
  intro a b ha hb hab
  obtain ⟨-, hia⟩ := getElem?_places.mp (List.getElem?_eq_getElem ha)
  obtain ⟨-, hib⟩ := getElem?_places.mp (List.getElem?_eq_getElem hb)
  rw [← hia, ← hib, position_part hk h2, position_part hk h2]
  exact Nat.add_lt_add_left (Nat.mul_lt_mul_of_pos_right hab (by omega)) k

/-- A host more than one more than another slice has would be dealt in a round after the last. -/
theorem length_select_part_le {k' : Nat} (hk' : k' < count.toNat) (hosts : List α) :
    ((part count k).select hosts).length ≤ ((part count k').select hosts).length + 1 := by
  refine Nat.le_of_not_lt fun hlt => ?_
  have hmore := lt_length_select.mp hlt
  have hlast := mt lt_length_select.mpr (Nat.lt_irrefl ((part count k').select hosts).length)
  rw [position_part hk h2, Nat.succ_mul] at hmore
  rw [position_part hk' h2] at hlast
  omega

end

/-- How slices share hosts: each host's position is in exactly one slice, a slice takes its hosts in
their order, none is empty, and none has two hosts more than another. -/
structure Share (slices : List Slice) (hosts : List α) : Prop where
  places : ∀ s ∈ slices, (s.select hosts).map some = (s.places hosts.length).map (hosts[·]?)
  ordered : ∀ s ∈ slices, (s.places hosts.length).Pairwise (· < ·)
  once : ∀ i < hosts.length, ∃! k : Fin slices.length, i ∈ (slices.get k).places hosts.length
  nonempty : ∀ s ∈ slices, s.select hosts ≠ []
  balanced : ∀ s ∈ slices, ∀ s' ∈ slices, (s.select hosts).length ≤ (s'.select hosts).length + 1

theorem share_parts {count : UInt32} (h2 : 2 ≤ count.toNat) {hosts : List α}
    (hc : count.toNat ≤ hosts.length) : Share (parts count) hosts where
  places s _ := s.select_eq_places hosts
  ordered s hs := by
    obtain ⟨k, hk, rfl⟩ := mem_parts hs
    exact pairwise_places_part hk h2 _
  once i hi := by
    have hlen := length_parts count
    have hm : i % count.toNat < count.toNat := Nat.mod_lt _ (by omega)
    refine ⟨⟨i % count.toNat, hlen.symm ▸ hm⟩, ?_, fun k hk => ?_⟩
    · show i ∈ ((parts count).get _).places hosts.length
      rw [get_parts, mem_places_part hm h2]
      exact ⟨hi, rfl⟩
    · have hk' : i ∈ ((parts count).get k).places hosts.length := hk
      rw [get_parts, mem_places_part (hlen ▸ k.isLt) h2] at hk'
      exact Fin.ext hk'.2.symm
  nonempty s hs := by
    obtain ⟨k, hk, rfl⟩ := mem_parts hs
    refine List.ne_nil_of_length_pos (lt_length_select.mpr ?_)
    rw [position_part hk h2]
    omega
  balanced s hs s' hs' := by
    obtain ⟨k, hk, rfl⟩ := mem_parts hs
    obtain ⟨k', hk', rfl⟩ := mem_parts hs'
    exact length_select_part_le hk h2 hk' hosts

end JobLaunch.Slice
