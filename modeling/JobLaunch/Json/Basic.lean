import JobLaunch.Decimal.Double
import JobLaunch.Table
/-!
JSON trees with object fields in written order, and their canonical form, in which every object
has its fields sorted and the last of equal names. `canonical_canonical` says that the form is
reached in one pass.
-/
namespace JobLaunch

/-- A JSON text as a tree. Integers and floats are different values. -/
inductive Json where
  | null
  | bool (b : Bool)
  | int (i : Int)
  | float (d : Decimal.Double)
  | string (s : String)
  | list (items : List Json)
  | object (fields : List (String × Json))
deriving Repr, Inhabited

namespace Json

mutual
/-- Equality of trees, written out because the type nests through lists. -/
def decEq : (a b : Json) → Decidable (a = b)
  | null, null => isTrue rfl
  | bool a, bool b => decidable_of_iff (a = b) (by simp)
  | int a, int b => decidable_of_iff (a = b) (by simp)
  | float a, float b => decidable_of_iff (a = b) (by simp)
  | string a, string b => decidable_of_iff (a = b) (by simp)
  | list a, list b => have := decEqItems a b; decidable_of_iff (a = b) (by simp)
  | object a, object b => have := decEqFields a b; decidable_of_iff (a = b) (by simp)
  | null, bool _ | null, int _ | null, float _ | null, string _ | null, list _ | null, object _
  | bool _, null | bool _, int _ | bool _, float _ | bool _, string _ | bool _, list _
  | bool _, object _ | int _, null | int _, bool _ | int _, float _ | int _, string _
  | int _, list _ | int _, object _ | float _, null | float _, bool _ | float _, int _
  | float _, string _ | float _, list _ | float _, object _ | string _, null | string _, bool _
  | string _, int _ | string _, float _ | string _, list _ | string _, object _ | list _, null
  | list _, bool _ | list _, int _ | list _, float _ | list _, string _ | list _, object _
  | object _, null | object _, bool _ | object _, int _ | object _, float _ | object _, string _
  | object _, list _ => isFalse (by simp)

def decEqItems : (a b : List Json) → Decidable (a = b)
  | [], [] => isTrue rfl
  | [], _ :: _ | _ :: _, [] => isFalse (by simp)
  | a :: as, b :: bs =>
    have := decEq a b; have := decEqItems as bs
    decidable_of_iff (a = b ∧ as = bs) (by simp)

def decEqFields : (a b : List (String × Json)) → Decidable (a = b)
  | [], [] => isTrue rfl
  | [], _ :: _ | _ :: _, [] => isFalse (by simp)
  | (k, a) :: as, (l, b) :: bs =>
    have := decEq a b; have := decEqFields as bs
    decidable_of_iff (k = l ∧ a = b ∧ as = bs) (by simp [and_assoc])
end

instance : DecidableEq Json := decEq

mutual
/-- Equality of data: as trees, but floats compare as numbers, so the two zeros are the same. -/
def same : Json → Json → Bool
  | null, null => true
  | bool a, bool b => a == b
  | int a, int b => a == b
  | float a, float b => a.same b
  | string a, string b => a == b
  | list a, list b => sameItems a b
  | object a, object b => sameFields a b
  | _, _ => false

def sameItems : List Json → List Json → Bool
  | [], [] => true
  | a :: as, b :: bs => same a b && sameItems as bs
  | _, _ => false

def sameFields : List (String × Json) → List (String × Json) → Bool
  | [], [] => true
  | (k, a) :: as, (l, b) :: bs => k == l && same a b && sameFields as bs
  | _, _ => false
end

/-- Fields sorted by name, the last of equal names kept. -/
def sortFields (fields : List (String × Json)) : List (String × Json) :=
  (Table.ofEntries fields).toList

mutual
/-- The canonical form: every object sorted by name, the last of equal names kept. -/
def canonical : Json → Json
  | list items => list (canonicalItems items)
  | object fields => object (sortFields (canonicalFields fields))
  | null => null
  | bool b => bool b
  | int i => int i
  | float d => float d
  | string s => string s

def canonicalItems : List Json → List Json
  | [] => []
  | item :: items => canonical item :: canonicalItems items

def canonicalFields : List (String × Json) → List (String × Json)
  | [] => []
  | (name, value) :: fields => (name, canonical value) :: canonicalFields fields
end

theorem canonicalFields_eq_map (fields : List (String × Json)) :
    canonicalFields fields = fields.map fun f => (f.1, f.2.canonical) := by
  induction fields with
  | nil => rfl
  | cons f fs ih => simp [canonicalFields, ih]

theorem mem_of_mem_sortFields {f : String × Json} {fields : List (String × Json)}
    (h : f ∈ sortFields fields) : f ∈ fields :=
  Table.mem_of_mem_toList_ofEntries h

theorem sortFields_sortFields (fields : List (String × Json)) :
    sortFields (sortFields fields) = sortFields fields := by
  rw [sortFields, sortFields, Table.ofEntries_toList]

theorem canonicalFields_eq_self {fields : List (String × Json)}
    (h : ∀ f ∈ fields, f.2.canonical = f.2) : canonicalFields fields = fields := by
  rw [canonicalFields_eq_map]
  conv => rhs; rw [← List.map_id fields]
  exact List.map_congr_left fun f hf => by simp [h f hf]

mutual
theorem canonical_canonical : (j : Json) → j.canonical.canonical = j.canonical
  | null | bool _ | int _ | float _ | string _ => by simp [canonical]
  | list items => by simp [canonical, canonicalItems_canonicalItems items]
  | object fields => by
    have h : ∀ f ∈ sortFields (canonicalFields fields), f.2.canonical = f.2 := fun f hf =>
      canonical_of_mem_canonicalFields fields f (mem_of_mem_sortFields hf)
    rw [canonical, canonical, canonicalFields_eq_self h, sortFields_sortFields]

theorem canonicalItems_canonicalItems :
    (items : List Json) → canonicalItems (canonicalItems items) = canonicalItems items
  | [] => rfl
  | item :: items => by
    simp [canonicalItems, canonical_canonical item, canonicalItems_canonicalItems items]

theorem canonical_of_mem_canonicalFields :
    (fields : List (String × Json)) → ∀ f ∈ canonicalFields fields, f.2.canonical = f.2
  | [], f, h => by simp [canonicalFields] at h
  | (name, value) :: fields, f, h => by
    simp only [canonicalFields, List.mem_cons] at h
    rcases h with rfl | h
    · exact canonical_canonical value
    · exact canonical_of_mem_canonicalFields fields f h
end

mutual
@[simp] theorem same_self : (j : Json) → j.same j = true
  | null | bool _ | int _ | string _ => by simp [same]
  | float d => by simp [same, Decimal.Double.same]
  | list items => by simp [same, sameItems_self items]
  | object fields => by simp [same, sameFields_self fields]

@[simp] theorem sameItems_self : (items : List Json) → sameItems items items = true
  | [] => rfl
  | item :: items => by simp [sameItems, same_self item, sameItems_self items]

@[simp] theorem sameFields_self : (fields : List (String × Json)) → sameFields fields fields = true
  | [] => rfl
  | (name, value) :: fields => by simp [sameFields, same_self value, sameFields_self fields]
end

end Json
end JobLaunch
