import JobLaunch.Resolution
/-!
Violations by name: adding some under a name changes nothing under another, and a table to which
violations are added stays empty only when there are none to add. What is under each name determines
the table, because no name is listed without a violation.
-/
namespace JobLaunch.Errors

def under (e : Errors) (name : String) : List Violation := (e[name]?).getD []

@[simp] theorem under_empty (k : String) : (∅ : Errors).under k = [] := by
  simp [under]

@[simp] theorem add_nil (e : Errors) (name : String) : e.add name [] = e := rfl

theorem under_add (e : Errors) (name : String) (vs : List Violation) (k : String) :
    (e.add name vs).under k = if k = name then e.under k ++ vs else e.under k := by
  cases vs with
  | nil => simp
  | cons v vs =>
    by_cases hk : k = name
    · simp [add, under, hk]
    · simp [add, under, hk, Ne.symm hk, Std.ExtTreeMap.getElem?_insert]

theorem mem_under_add {e : Errors} {name : String} {vs : List Violation} {k : String}
    {v : Violation} : v ∈ (e.add name vs).under k ↔ v ∈ e.under k ∨ k = name ∧ v ∈ vs := by
  rw [under_add]
  by_cases hk : k = name <;> simp [hk]

theorem isEmpty_add {e : Errors} {name : String} {vs : List Violation} :
    (e.add name vs).isEmpty ↔ e.isEmpty ∧ vs = [] := by
  cases vs with
  | nil => simp
  | cons v vs => simp [add]

variable {α : Type} (names : α → String) (found : α → List Violation)

theorem under_foldl_add {items : List α} {e : Errors} {k : String} :
    (items.foldl (fun e a => e.add (names a) (found a)) e).under k =
      e.under k ++ items.flatMap fun a => if k = names a then found a else [] := by
  induction items generalizing e with
  | nil => simp
  | cons a items ih =>
    rw [List.foldl_cons, ih, under_add, List.flatMap_cons]
    by_cases hk : k = names a <;> simp [hk]

theorem mem_under_foldl_add {items : List α} {e : Errors} {k : String} {v : Violation} :
    v ∈ (items.foldl (fun e a => e.add (names a) (found a)) e).under k ↔
      v ∈ e.under k ∨ ∃ a ∈ items, k = names a ∧ v ∈ found a := by
  rw [under_foldl_add, List.mem_append, List.mem_flatMap]
  simp

theorem isEmpty_foldl_add {items : List α} {e : Errors} :
    (items.foldl (fun e a => e.add (names a) (found a)) e).isEmpty ↔
      e.isEmpty ∧ ∀ a ∈ items, found a = [] := by
  induction items generalizing e with
  | nil => simp
  | cons a items ih =>
    rw [List.foldl_cons, ih, isEmpty_add]
    simp [and_assoc]

/-- Whether every name that is listed has violations. -/
def Tight (e : Errors) : Prop := ∀ k : String, e[k]? ≠ some []

theorem tight_empty : (∅ : Errors).Tight := by
  intro k
  simp

theorem Tight.add {e : Errors} (h : e.Tight) (name : String) (vs : List Violation) :
    (e.add name vs).Tight := by
  intro k
  cases vs with
  | nil => exact h k
  | cons v vs =>
    by_cases hk : name = k
    · simp [Errors.add, hk]
    · simpa [Errors.add, Std.ExtTreeMap.getElem?_insert, hk] using h k

theorem Tight.foldl_add {e : Errors} (h : e.Tight) (items : List α) :
    (items.foldl (fun e a => e.add (names a) (found a)) e).Tight := by
  induction items generalizing e with
  | nil => exact h
  | cons a items ih => exact ih (h.add (names a) (found a))

theorem Tight.getElem? {e : Errors} (h : e.Tight) (k : String) :
    e[k]? = if e.under k = [] then none else some (e.under k) := by
  unfold under
  cases he : e[k]? with
  | none => rfl
  | some vs =>
    have hvs : vs ≠ [] := by
      rintro rfl
      exact h k he
    exact (if_neg hvs).symm

theorem Tight.ext {e e' : Errors} (h : e.Tight) (h' : e'.Tight)
    (hu : ∀ k, e.under k = e'.under k) : e = e' := by
  refine Std.ExtTreeMap.ext_getElem? fun k => ?_
  rw [h.getElem?, h'.getElem?, hu k]

end JobLaunch.Errors
