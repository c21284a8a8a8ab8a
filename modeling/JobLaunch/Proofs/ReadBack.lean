import JobLaunch.Record
import JobLaunch.Proofs.WrittenNumbers
/-!
Reading back. A type is faithful when every value is read back from its JSON form: plain types are,
and so are options, lists, tables and sets of them. The fields of an object whose names differ are
found by their names.
-/
namespace JobLaunch

variable {α : Type} [Coded α]

/-- A type whose values are all read back from their JSON forms. -/
class Faithful (α : Type) [Coded α] : Prop where
  decode?_encode : ∀ a : α, decode? (encode a) = some a

attribute [simp] Faithful.decode?_encode

class NeverNull (α : Type) [Coded α] : Prop where
  encode_ne_null : ∀ a : α, encode a ≠ .null

/-- Whether some JSON is read as a value. -/
def Readable (a : α) : Prop := ∃ j, decode? j = some a

instance : Faithful Bool := ⟨fun _ => rfl⟩

instance : Faithful String := ⟨fun _ => rfl⟩

theorem integerWithin?_int {least greatest i : Int} (h : least ≤ i ∧ i ≤ greatest) :
    integerWithin? least greatest (.int i) = some i :=
  if_pos h

/-- A natural number up to a bound is read as it is. -/
theorem map_integerWithin?_natCast {β : Type} {greatest : Int} {n : Nat} (h : (n : Int) ≤ greatest)
    (f : Nat → β) : (integerWithin? 0 greatest (.int n)).map (fun i => f i.toNat) = some (f n) := by
  rw [integerWithin?_int ⟨Int.natCast_nonneg n, h⟩, Option.map_some, Int.toNat_natCast]

instance : Faithful UInt8 where
  decode?_encode n := by
    have h : (n.toNat : Int) ≤ 0xFF := by
      have := n.toNat_lt
      omega
    exact (map_integerWithin?_natCast h UInt8.ofNat).trans (congrArg some UInt8.ofNat_toNat)

instance : Faithful UInt32 where
  decode?_encode n := by
    have h : (n.toNat : Int) ≤ 0xFFFFFFFF := by
      have := n.toNat_lt
      omega
    exact (map_integerWithin?_natCast h UInt32.ofNat).trans (congrArg some UInt32.ofNat_toNat)

instance : Faithful UInt64 where
  decode?_encode n := by
    have h : (n.toNat : Int) ≤ 0xFFFFFFFFFFFFFFFF := by
      have := n.toNat_lt
      omega
    exact (map_integerWithin?_natCast h UInt64.ofNat).trans (congrArg some UInt64.ofNat_toNat)

instance : Faithful Int64 where
  decode?_encode n := by
    have h : (-0x8000000000000000 : Int) ≤ n.toInt ∧ n.toInt ≤ 0x7FFFFFFFFFFFFFFF := by
      have := n.le_toInt
      have := n.toInt_lt
      omega
    exact congrArg (Option.map Int64.ofInt) (integerWithin?_int h) |>.trans
      (congrArg some (Int64.ofInt_toInt n))

instance : Faithful Id := ⟨Id.ofText?_toText⟩

instance : Faithful Value := ⟨fun v => congrArg some v.ofJson_json⟩

instance : Faithful Vars := ⟨fun vars => congrArg some (Vars.ofFields_toList vars)⟩

instance : NeverNull Bool := ⟨nofun⟩

instance : NeverNull String := ⟨nofun⟩

instance : NeverNull UInt8 := ⟨nofun⟩

instance : NeverNull UInt32 := ⟨nofun⟩

instance : NeverNull Int64 := ⟨nofun⟩

instance : NeverNull Id := ⟨nofun⟩

instance : NeverNull Timestamp := ⟨nofun⟩

instance : NeverNull Vars := ⟨nofun⟩

instance {β : Type} [Words β] : NeverNull β := ⟨nofun⟩

theorem decode?_of_ne_null {j : Json} (h : j ≠ .null) :
    (decode? j : Option (Option α)) = (decode? j).map some := by
  cases j with
  | null => exact absurd rfl h
  | _ => rfl

/-- A value that is read back and not written as null is read back as one that is there. -/
theorem decode?_encode_some {a : α} (h : decode? (encode a) = some a) (hn : encode a ≠ .null) :
    decode? (encode (some a)) = some (some a) := by
  have hwritten : encode (some a) = encode a := rfl
  rw [hwritten, decode?_of_ne_null hn, h, Option.map_some]

instance [Faithful α] [NeverNull α] : Faithful (Option α) where
  decode?_encode
    | some a => decode?_encode_some (Faithful.decode?_encode a) (NeverNull.encode_ne_null a)
    | none => rfl

@[simp] theorem decode?_encode_present [Faithful α] [NeverNull α] (a : α) :
    decode? (encode a) = some (some a) :=
  Faithful.decode?_encode (some a)

/-- A value that is there is read from something other than null. -/
theorem Readable.of_some {a : α} (h : Readable (some a)) : ∃ j, j ≠ .null ∧ decode? j = some a := by
  obtain ⟨j, hj⟩ := h
  have hnull : j ≠ .null := by
    rintro rfl
    cases hj
  rw [decode?_of_ne_null hnull] at hj
  obtain ⟨b, hb, hba⟩ := Option.map_eq_some_iff.mp hj
  cases hba
  exact ⟨j, hnull, hb⟩

theorem mapM_map_of_forall {β γ δ : Type} {f : γ → Option δ} {g : β → γ} {h : β → δ} {l : List β}
    (hl : ∀ x ∈ l, f (g x) = some (h x)) : (l.map g).mapM f = some (l.map h) := by
  induction l with
  | nil => rfl
  | cons x l ih =>
    have htail := ih fun y hy => hl y (List.mem_cons_of_mem x hy)
    simp [hl x List.mem_cons_self, htail]

theorem exists_of_mem_mapM {β γ : Type} {f : β → Option γ} {l : List β} {l' : List γ}
    (h : l.mapM f = some l') {y : γ} (hy : y ∈ l') : ∃ x ∈ l, f x = some y := by
  induction l generalizing l' with
  | nil =>
    cases h
    cases hy
  | cons x l ih =>
    simp only [List.mapM_cons, Option.bind_eq_bind, Option.bind_eq_some_iff, Option.pure_def,
      Option.some.injEq] at h
    obtain ⟨z, hz, rest, hrest, rfl⟩ := h
    rcases List.mem_cons.mp hy with rfl | hy
    · exact ⟨x, List.mem_cons_self, hz⟩
    · obtain ⟨w, hw, hread⟩ := ih hrest hy
      exact ⟨w, List.mem_cons_of_mem x hw, hread⟩

theorem decode?_encode_list {as : List α} (h : ∀ a ∈ as, decode? (encode a) = some a) :
    decode? (encode as) = some as := by
  have hread := mapM_map_of_forall (h := id) h
  rw [List.map_id] at hread
  exact hread

instance [Faithful α] : Faithful (List α) where
  decode?_encode _ := decode?_encode_list fun a _ => Faithful.decode?_encode a

instance : NeverNull (List α) := ⟨nofun⟩

theorem Readable.of_mem {as : List α} (h : Readable as) {a : α} (ha : a ∈ as) : Readable a := by
  obtain ⟨j, hj⟩ := h
  cases j with
  | list items =>
    obtain ⟨item, -, hitem⟩ := exists_of_mem_mapM hj ha
    exact ⟨item, hitem⟩
  | _ => cases hj

/-- The entries of a table are read back as the table. -/
theorem ofEntries_mapM_toList [Faithful α] (t : Table α) :
    ((t.toList.map fun (entry : String × α) => (entry.1, encode entry.2)).mapM
      fun (field : String × Json) => (decode? field.2).map fun a => (field.1, a)).map
        Table.ofEntries = some t := by
  rw [mapM_map_of_forall (h := id) (fun entry _ => by simp), List.map_id, Option.map_some,
    Table.ofEntries_toList]

instance : Faithful (Table String) := ⟨ofEntries_mapM_toList⟩

instance : Faithful IdSet where
  decode?_encode ids := by
    have hread : (decode? (encode ids.toList) : Option (List Id)) = some ids.toList :=
      Faithful.decode?_encode ids.toList
    have hset : Std.ExtTreeSet.ofList ids.toList = ids :=
      Std.ExtTreeSet.ext_mem fun id => by simp
    show (decode? (encode ids.toList) : Option (List Id)).map _ = _
    rw [hread, Option.map_some, hset]

namespace Record

def Holds (r : Record) (fs : List (String × Json)) : Prop :=
  ∀ f ∈ fs, ∀ place, r.field? place f.1 = some (some f.2)

theorem holds_cons {r : Record} {f : String × Json} {fs : List (String × Json)} :
    r.Holds (f :: fs) ↔ (∀ place, r.field? place f.1 = some (some f.2)) ∧ r.Holds fs :=
  List.forall_mem_cons

theorem holds_append {r : Record} {fs gs : List (String × Json)} :
    r.Holds (fs ++ gs) ↔ r.Holds fs ∧ r.Holds gs :=
  List.forall_mem_append

theorem filter_eq_nil_of_not_mem {fs : List (String × Json)} {name : String}
    (h : name ∉ fs.map Prod.fst) : fs.filter (fun f => f.1 == name) = [] := by
  rw [List.filter_eq_nil_iff]
  intro f hf heq
  rw [beq_iff_eq] at heq
  exact h (heq ▸ List.mem_map_of_mem hf)

/-- An object has the field of each name, when its names differ. -/
theorem field?_named {fs : List (String × Json)} (h : (fs.map Prod.fst).Nodup) (place : Nat)
    (name : String) : (named fs).field? place name = some (fs.lookup name) := by
  induction fs with
  | nil => rfl
  | cons f fs ih =>
    obtain ⟨first, j⟩ := f
    rw [List.map_cons, List.nodup_cons] at h
    by_cases hname : first = name
    · have hrest := filter_eq_nil_of_not_mem (hname ▸ h.1)
      simp [field?, hname, hrest]
    · have hrest : (named ((first, j) :: fs)).field? place name = (named fs).field? place name := by
        simp [field?, hname]
      simp only [hrest, ih h.2, List.lookup_cons, beq_false_of_ne (Ne.symm hname)]

theorem lookup_of_mem {fs : List (String × Json)} (h : (fs.map Prod.fst).Nodup) {name : String}
    {j : Json} (hf : (name, j) ∈ fs) : fs.lookup name = some j := by
  induction fs with
  | nil => cases hf
  | cons f fs ih =>
    obtain ⟨first, i⟩ := f
    rw [List.map_cons, List.nodup_cons] at h
    rcases List.mem_cons.mp hf with heq | hin
    · cases heq
      exact List.lookup_cons_self
    · have hne : name ≠ first := by
        rintro rfl
        exact h.1 (List.mem_map.mpr ⟨_, hin, rfl⟩)
      simp only [List.lookup_cons, beq_false_of_ne hne, ih h.2 hin]

/-- An object whose names differ has its fields. -/
theorem holds_named {fs : List (String × Json)} (h : (fs.map Prod.fst).Nodup) :
    (named fs).Holds fs := by
  intro f hf place
  rw [field?_named h, lookup_of_mem h hf]

/-- What is read from a record with the fields of an object is read from the object. -/
theorem bind_object {β : Type} {fs : List (String × Json)} {read : Record → Option β} {b : β}
    {width : Nat} (hfs : (fs.map Prod.fst).Nodup) (h : ∀ r : Record, r.Holds fs → read r = some b) :
    (ofJson? width (.object fs)).bind read = some b :=
  h (named fs) (holds_named hfs)

-- What is read, by what the field is: rewriting a field then leaves the reads after it alone.

theorem required_eq (r : Record) (place : Nat) (name : String) :
    (r.required place name : Option α) = match r.field? place name with
      | some (some j) => decode? j
      | _ => none := by
  rw [required]
  rcases r.field? place name with _ | _ | _ <;> rfl

theorem orElse_eq (r : Record) (place : Nat) (name : String) (d : α) :
    r.orElse place name d = match r.field? place name with
      | some (some j) => decode? j
      | some none => some d
      | none => none := by
  rw [orElse]
  rcases r.field? place name with _ | _ | _ <;> rfl

theorem nullable_eq (r : Record) (place : Nat) (name : String) :
    (r.nullable place name : Option (Option α)) = match r.field? place name with
      | some (some j) => decode? j
      | some none => match r with
        | named _ => some none
        | listed _ => none
      | none => none := by
  cases r with
  | named fields => exact orElse_eq (named fields) place name none
  | listed items =>
    rw [nullable, required_eq]
    rcases (listed items).field? place name with _ | _ | _ <;> rfl

/-- A field that is left out only when it has its default is read back. -/
theorem orElse_of_omitted [Faithful α] {r : Record} {place : Nat} {name : String} {a d : α}
    {omitted : Prop} [Decidable omitted] (ha : omitted → a = d)
    (h : r.field? place name = some (if omitted then none else some (encode a))) :
    r.orElse place name d = some a := by
  rw [orElse, h]
  split
  · rename_i ho
    rw [ha ho]
    rfl
  · exact Faithful.decode?_encode a

end Record

/-- The tag of a tagged record is split off again, when no other field has its name. -/
theorem untag?_withTag {tag s : String} {j : Json} {fs : List (String × Json)}
    (hj : j = .object fs) (h : tag ∉ fs.map Prod.fst) :
    untag? tag (withTag tag s j) = some (s, j) := by
  subst hj
  have hrest := Record.filter_eq_nil_of_not_mem h
  have hkept : fs.filter (fun f => f.1 != tag) = fs := by
    rw [List.filter_eq_self]
    intro f hf
    rw [bne_iff_ne]
    rintro rfl
    exact h (List.mem_map_of_mem hf)
  simp [untag?, withTag, hrest, hkept]

end JobLaunch
