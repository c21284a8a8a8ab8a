import Std.Data.ExtTreeMap
/-!
Tables from names to values, sorted by name. Two tables are equal when they hold the same value
under every name. `ofEntries_toList` and `mem_of_getElem?_ofEntries` relate a table to its list of
entries.
-/
namespace JobLaunch

/-- A finite map from names, listed in code point order. -/
abbrev Table (α : Type) := Std.ExtTreeMap String α

namespace Table
variable {α : Type}

/-- The table of a list of entries; the last of equal names counts. -/
def ofEntries (entries : List (String × α)) : Table α := Std.ExtTreeMap.ofList entries

/-- Entries of `top` take the place of entries of `base`. -/
def overlay (base top : Table α) : Table α := base ∪ top

theorem getElem?_overlay (base top : Table α) (k : String) :
    (overlay base top)[k]? = top[k]?.or base[k]? :=
  Std.ExtTreeMap.getElem?_union

theorem ofEntries_toList (t : Table α) : ofEntries t.toList = t := by
  apply Std.ExtTreeMap.ext_getElem?
  intro k
  cases h : t[k]? with
  | some v =>
    exact Std.ExtTreeMap.getElem?_ofList_of_mem Std.ReflOrd.compare_self
      Std.ExtTreeMap.distinct_keys_toList (Std.ExtTreeMap.mem_toList_iff_getElem?_eq_some.2 h)
  | none =>
    apply Std.ExtTreeMap.getElem?_ofList_of_contains_eq_false
    rw [Std.ExtTreeMap.map_fst_toList_eq_keys]
    simpa [Std.ExtTreeMap.mem_keys] using h

theorem mem_of_getElem?_ofEntries {k : String} {v : α} {entries : List (String × α)}
    (h : (ofEntries entries)[k]? = some v) : (k, v) ∈ entries := by
  rw [ofEntries, Std.ExtTreeMap.ofList_eq_insertMany_empty,
    Std.ExtTreeMap.getElem?_insertMany_list] at h
  simp only [Std.compare_eq_iff_eq, Std.ExtTreeMap.getElem?_empty, Option.or_none,
    List.findSomeRev?_eq_findSome?_reverse] at h
  obtain ⟨⟨l, w⟩, hm, hv⟩ := List.exists_of_findSome?_eq_some h
  simp only [Option.ite_none_right_eq_some, Option.some.injEq] at hv
  obtain ⟨rfl, rfl⟩ := hv
  simpa using hm

theorem mem_of_mem_toList_ofEntries {k : String} {v : α} {entries : List (String × α)}
    (h : (k, v) ∈ (ofEntries entries).toList) : (k, v) ∈ entries :=
  mem_of_getElem?_ofEntries (Std.ExtTreeMap.mem_toList_iff_getElem?_eq_some.1 h)

end Table
end JobLaunch
