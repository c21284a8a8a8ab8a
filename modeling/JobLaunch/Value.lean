import JobLaunch.Json.Basic
/-!
Values that users supply: variables, answers, defaults and facts. A value is a JSON tree in
canonical form, so two objects with the same fields are the same value.
-/
namespace JobLaunch

/-- A JSON tree in canonical form. -/
structure Value where
  json : Json
  canonical : json.canonical = json
deriving DecidableEq, Repr

abbrev Vars := Table Value

namespace Value

def ofJson (j : Json) : Value := ⟨j.canonical, j.canonical_canonical⟩

def text (s : String) : Value := ⟨.string s, rfl⟩

def null : Value := ⟨.null, rfl⟩

instance : Inhabited Value := ⟨null⟩

def asText? (v : Value) : Option String :=
  match v.json with
  | .string s => some s
  | _ => none

/-- Equality of data: the two zeros are the same. -/
def same (v w : Value) : Bool := v.json.same w.json

@[simp] theorem ofJson_json (v : Value) : ofJson v.json = v := by
  cases v with
  | mk j h => simp [ofJson, h]

@[simp] theorem same_self (v : Value) : v.same v = true := by
  simp [same]

end Value

namespace Vars

def toJson (vars : Vars) : Json := .object (vars.toList.map fun (name, v) => (name, v.json))

/-- Variables given as an object's fields; the last of equal names counts. -/
def ofFields (fields : List (String × Json)) : Vars :=
  Table.ofEntries (fields.map fun (name, j) => (name, Value.ofJson j))

theorem ofFields_toList (vars : Vars) :
    ofFields (vars.toList.map fun (name, v) => (name, v.json)) = vars := by
  rw [ofFields, List.map_map]
  conv => rhs; rw [← Table.ofEntries_toList vars]
  congr 1
  conv => rhs; rw [← List.map_id vars.toList]
  exact List.map_congr_left fun p _ => by simp

end Vars
end JobLaunch
