import JobLaunch.Proofs.RelaunchGate
import JobLaunch.Proofs.StoredRecords
/-!
Overrides as a record of field values. Putting a value in changes what its field holds and nothing
else, the values that are listed are those that are held, and putting them all into other overrides
lays the one over the other.
-/
namespace JobLaunch

theorem PromptField.pairwise_place : all.Pairwise fun f g => f.place < g.place := by
  decide

namespace Overrides
variable {o p : Overrides} {f : PromptField}

def held? (o : Overrides) (f : PromptField) : Option FieldValue := (o.get f).map (FieldValue.mk f)

def laidOver (o p : Overrides) : Overrides := .ofFn fun f => (o.get f).or (p.get f)

theorem get_insert_self (o : Overrides) (v : FieldValue) :
    (o.insert v).get v.field = some v.value :=
  PerField.get_set_self o v.field (some v.value)

theorem get_insert_of_ne (o : Overrides) {v : FieldValue} (h : f ≠ v.field) :
    (o.insert v).get f = o.get f :=
  PerField.get_set_of_ne o (some v.value) h

theorem held?_insert (o : Overrides) (v : FieldValue) (f : PromptField) :
    (o.insert v).held? f = if f = v.field then some v else o.held? f := by
  by_cases h : f = v.field
  · subst h
    rw [held?, get_insert_self, if_pos rfl]
    rfl
  · rw [held?, get_insert_of_ne o h, if_neg h]
    rfl

theorem mem_values_iff_held? {v : FieldValue} : v ∈ o.values ↔ o.held? v.field = some v := by
  obtain ⟨f, x⟩ := v
  rw [mem_values, held?, Option.map_eq_some_iff]
  constructor
  · intro h
    exact ⟨x, h, rfl⟩
  · rintro ⟨y, h, heq⟩
    cases heq
    exact h

/-- Values are listed in the order of their fields, so none is listed twice. -/
theorem pairwise_values (o : Overrides) :
    o.values.Pairwise fun v w => v.field.place < w.field.place := by
  refine PromptField.pairwise_place.filterMap _ fun f g hfg v hv w hw => ?_
  obtain ⟨x, -, rfl⟩ := Option.map_eq_some_iff.mp hv
  obtain ⟨y, -, rfl⟩ := Option.map_eq_some_iff.mp hw
  exact hfg

/-- Putting in the values of some fields lays them over what is there. -/
theorem get_foldl_insert (o p : Overrides) (f : PromptField) (fs : List PromptField) :
    ((fs.filterMap o.held?).foldl insert p).get f =
      if f ∈ fs then (o.get f).or (p.get f) else p.get f := by
  induction fs generalizing p with
  | nil => rfl
  | cons g fs ih =>
    cases hg : o.get g with
    | none =>
      have hheld : o.held? g = none := by rw [held?, hg, Option.map_none]
      rw [List.filterMap_cons_none hheld, ih p]
      by_cases hfg : f = g
      · subst hfg
        simp [hg]
      · simp [hfg]
    | some x =>
      have hheld : o.held? g = some ⟨g, x⟩ := by rw [held?, hg, Option.map_some]
      rw [List.filterMap_cons_some hheld, List.foldl_cons, ih]
      by_cases hfg : f = g
      · subst hfg
        simp [hg, get_insert_self p ⟨f, x⟩]
      · simp [hfg, get_insert_of_ne p (v := ⟨g, x⟩) hfg]

theorem foldl_insert_values (o p : Overrides) : o.values.foldl insert p = o.laidOver p := by
  refine PerField.ext_get fun f => ?_
  rw [laidOver, PerField.get_ofFn]
  exact (get_foldl_insert o p f PromptField.all).trans (if_pos f.mem_all)

theorem laidOver_empty (o : Overrides) : o.laidOver ∅ = o := by
  refine PerField.ext_get fun f => ?_
  rw [laidOver, PerField.get_ofFn, get_empty, Option.or_none]

end Overrides

namespace JobTemplate

def held? (t : JobTemplate) (f : PromptField) : Option FieldValue :=
  (t.value? f).map (FieldValue.mk f)

/-- The template's own value of a field is what its record has under the field's name. -/
theorem lookup_name (t : JobTemplate) (f : PromptField) :
    (encode t).fields.lookup f.name = some (encode (t.value? f)) := by
  refine Record.lookup_of_mem (t.map_fst_fields ▸ nodup_names) ?_
  have hpresent {α : Type} [Coded α] (a : α) : encode (some a) = encode a := rfl
  unfold instCoded
  cases f <;> simp [Json.fields, JobOptions.fields, PromptField.name, value?, hpresent]

/-- What is held for a field is a value of that field, written in the template's record under the
field's name. -/
theorem of_held? {t : JobTemplate} {f : PromptField} {v : FieldValue} (h : t.held? f = some v) :
    v.field = f ∧ (encode t).fields.lookup f.name = some v.toJson := by
  obtain ⟨x, hx, rfl⟩ := Option.map_eq_some_iff.mp h
  refine ⟨rfl, ?_⟩
  rw [t.lookup_name f, hx]
  rfl

end JobTemplate

/-- What it takes for overrides to be the record of their values. -/
structure Overrides.RecordsValues (o : Overrides) : Prop where
  written : ∀ v : FieldValue, o.insert v = o.overwrite v
  inserted : ∀ (v : FieldValue) (f : PromptField),
    (o.insert v).held? f = if f = v.field then some v else o.held? f
  listed : ∀ v : FieldValue, v ∈ o.values ↔ o.held? v.field = some v
  ordered : o.values.Pairwise fun v w => v.field.place < w.field.place
  rebuilt : o.values.foldl insert ∅ = o
  overlaid : ∀ p : Overrides, o.values.foldl insert p = o.laidOver p

/-- All overrides are the record of their values, and what a template holds for a field is a value
of that field, the one that its own record has under the field's name. -/
theorem overrides_record_values :
    (∀ o : Overrides, o.RecordsValues) ∧
    ∀ (t : JobTemplate) (f : PromptField), ∀ v ∈ t.held? f,
      v.field = f ∧ (encode t).fields.lookup f.name = some v.toJson := by
  refine ⟨fun o => ?_, fun t f v hv => JobTemplate.of_held? hv⟩
  exact {
    written := o.insert_eq_overwrite
    inserted := o.held?_insert
    listed := fun v => Overrides.mem_values_iff_held?
    ordered := o.pairwise_values
    rebuilt := (Overrides.foldl_insert_values o ∅).trans o.laidOver_empty
    overlaid := Overrides.foldl_insert_values o }

end JobLaunch
