import JobLaunch.Job
import JobLaunch.Request
import JobLaunch.Resolution
import JobLaunch.Proofs.ReadBack
/-!
Faithful records. Every record without instants and without questions is read back from its JSON
form, whichever of its fields are written.
-/
namespace JobLaunch

open Record (holds_cons holds_append)

instance : Faithful JobType := ⟨fun a => by cases a <;> rfl⟩

instance : Faithful SystemJobType := ⟨fun a => by cases a <;> rfl⟩

instance : Faithful QuestionKind := ⟨fun a => by cases a <;> rfl⟩

instance : Faithful CredentialKind := ⟨fun a => by cases a <;> rfl⟩

instance : Faithful LaunchType := ⟨fun a => by cases a <;> rfl⟩

instance : Faithful JobStatus := ⟨fun a => by cases a <;> rfl⟩

instance : Faithful HostStatus := ⟨fun a => by cases a <;> rfl⟩

instance : Faithful ViolationKind := ⟨fun a => by cases a <;> rfl⟩

instance : Faithful Notifications where
  decode?_encode n := by
    refine Record.bind_object (by simp) fun r h => ?_
    simp only [holds_cons] at h
    simp only [Record.orElse_eq, h, Faithful.decode?_encode]
    rfl

instance : Faithful Inventory where
  decode?_encode i := by
    refine Record.bind_object (by simp) fun r h => ?_
    simp only [holds_cons] at h
    simp only [Record.required_eq, Record.optional, Record.orElse_eq, h, Faithful.decode?_encode]
    rfl

instance : NeverNull Inventory := ⟨nofun⟩

instance : Faithful Project where
  decode?_encode p := by
    refine Record.bind_object (by simp) fun r h => ?_
    simp only [holds_cons] at h
    simp only [Record.required_eq, Record.optional, Record.orElse_eq, h, Faithful.decode?_encode]
    rfl

instance : NeverNull Project := ⟨nofun⟩

instance : Faithful Credential where
  decode?_encode c := by
    refine Record.bind_object (by simp) fun r h => ?_
    simp only [holds_cons] at h
    simp only [Record.required_eq, Record.orElse_eq, h, Faithful.decode?_encode]
    rfl

/-- A record with the fields of options has those options. -/
theorem JobOptions.ofRecord?_of_holds {r : Record} {o : JobOptions} (h : r.Holds o.fields) :
    ofRecord? r = some o := by
  simp only [fields, holds_cons] at h
  simp only [ofRecord?, Record.orElse_eq, h, Faithful.decode?_encode]
  rfl

instance : Faithful JobOptions where
  decode?_encode o :=
    JobOptions.ofRecord?_of_holds (Record.holds_named (by simp [JobOptions.fields]))

/-- A record with the fields of ask flags has those flags. -/
theorem AskFlags.ofRecord?_of_holds {r : Record} {ask : AskFlags} (h : r.Holds ask.fields) :
    ofRecord? r = some ask := by
  rw [ofRecord?, PerField.ofFn?_eq_some_iff]
  intro f
  have hfield := h (f.askName, .bool (ask.get f)) (List.mem_map_of_mem f.mem_all) f.place
  rw [Record.orElse, hfield]
  rfl

instance (f : PromptField) : Faithful f.Carrier where
  decode?_encode := by
    cases f <;> exact Faithful.decode?_encode

instance (f : PromptField) : NeverNull f.Carrier where
  encode_ne_null := by
    cases f <;> exact NeverNull.encode_ne_null

namespace Overrides

def field? (o : Overrides) (f : PromptField) : Option (String × Json) :=
  (o.get f).map fun v => (f.name, encode v)

theorem fields_eq (o : Overrides) : o.fields = PromptField.all.filterMap o.field? := by
  rw [fields, values, List.map_filterMap]
  congr 1
  funext f
  rw [Option.map_map]
  rfl

theorem lookup_filterMap_field? (o : Overrides) (f : PromptField) (fs : List PromptField) :
    (fs.filterMap o.field?).lookup f.name = if f ∈ fs then (o.get f).map encode else none := by
  induction fs with
  | nil => rfl
  | cons g fs ih =>
    rw [List.filterMap_cons]
    by_cases hfg : f = g
    · subst hfg
      cases hget : o.get f with
      | none => simp [field?, hget, ih]
      | some v => simp [field?, hget]
    · have hname : (f.name == g.name) = false :=
        beq_false_of_ne fun h => hfg (PromptField.name_inj h)
      have hrest : (f ∈ g :: fs) = (f ∈ fs) := by simp [hfg]
      cases hget : o.get g with
      | none => simp only [field?, hget, Option.map_none, ih, hrest]
      | some v => simp only [field?, hget, Option.map_some, List.lookup_cons, hname, ih, hrest]

/-- A field is written with its value when it has one. -/
theorem lookup_fields (o : Overrides) (f : PromptField) :
    o.fields.lookup f.name = (o.get f).map encode := by
  rw [fields_eq, lookup_filterMap_field?, if_pos f.mem_all]

theorem sublist_names (o : Overrides) :
    (o.fields.map Prod.fst).Sublist (PromptField.all.map PromptField.name) := by
  rw [fields_eq]
  generalize PromptField.all = fs
  induction fs with
  | nil => exact List.Sublist.slnil
  | cons f fs ih =>
    cases hget : o.get f with
    | none =>
      have hfield : o.field? f = none := by rw [field?, hget, Option.map_none]
      rw [List.filterMap_cons_none hfield]
      exact ih.cons f.name
    | some v =>
      have hfield : o.field? f = some (f.name, encode v) := by rw [field?, hget, Option.map_some]
      rw [List.filterMap_cons_some hfield]
      exact ih.cons_cons f.name

theorem lookup_fields_of_ne {name : String} (h : name ∉ PromptField.all.map PromptField.name)
    (o : Overrides) : o.fields.lookup name = none := by
  rw [List.lookup_eq_none_iff]
  intro field hfield
  rw [bne_iff_ne]
  rintro rfl
  exact h (o.sublist_names.subset (List.mem_map_of_mem hfield))

/-- A record that says of every field what overrides do has those overrides. -/
theorem ofRecord?_of_lookup {r : Record} {o : Overrides}
    (h : ∀ (f : PromptField) place, r.field? place f.name = some ((o.get f).map encode)) :
    ofRecord? r = some o := by
  rw [ofRecord?, PerField.ofFn?_eq_some_iff]
  intro f
  rw [Record.optional, Record.orElse, h f]
  cases hget : o.get f with
  | none => rfl
  | some v =>
    exact decode?_encode_some (Faithful.decode?_encode v) (NeverNull.encode_ne_null v)

end Overrides

instance : Faithful Overrides where
  decode?_encode o := by
    have hnames : (o.fields.map Prod.fst).Nodup := o.sublist_names.nodup (by decide)
    refine Overrides.ofRecord?_of_lookup fun f place => ?_
    rw [Record.field?_named hnames, o.lookup_fields]

instance : Faithful Slice where
  decode?_encode s := by
    refine Record.bind_object (by simp) fun r h => ?_
    simp only [holds_cons] at h
    simp only [Record.required_eq, h, Faithful.decode?_encode]
    rfl

instance : NeverNull Slice := ⟨nofun⟩

instance : Faithful JobSpec where
  decode?_encode s := by
    refine Record.bind_object (by simp) fun r h => ?_
    simp only [holds_cons] at h
    simp only [Record.required_eq, Record.orElse_eq, Record.nullable_eq, h, Faithful.decode?_encode]
    rfl

instance : Faithful WorkflowSpec where
  decode?_encode s := by
    refine Record.bind_object (by simp) fun r h => ?_
    simp only [holds_cons] at h
    simp only [Record.required_eq, Record.nullable_eq, h, Faithful.decode?_encode]
    rfl

instance : Faithful SystemJobSpec where
  decode?_encode s := by
    refine Record.bind_object (by simp) fun r h => ?_
    simp only [holds_cons] at h
    simp only [Record.required_eq, h, Faithful.decode?_encode]
    rfl

instance : Faithful LaunchPlan where
  decode?_encode p := by
    unfold LaunchPlan.instCoded
    cases p with
    | single spec =>
      have htag : untag? "plan" (withTag "plan" "single" (encode spec)) =
          some ("single", encode spec) := untag?_withTag rfl (by simp)
      simp [htag]
    | sliced workflow slices =>
      simp [untag?, Record.ofJson?, Record.required_eq, Record.field?]
    | system spec =>
      have htag : untag? "plan" (withTag "plan" "system" (encode spec)) =
          some ("system", encode spec) := untag?_withTag rfl (by simp)
      simp [htag]

instance : Faithful JobDefinition where
  decode?_encode p := by
    unfold JobDefinition.instCoded
    cases p with
    | playbook spec =>
      have htag : untag? "type" (withTag "type" "playbook" (encode spec)) =
          some ("playbook", encode spec) := untag?_withTag rfl (by simp)
      simp [htag]
    | system spec =>
      have htag : untag? "type" (withTag "type" "system" (encode spec)) =
          some ("system", encode spec) := untag?_withTag rfl (by simp)
      simp [htag]

instance : Faithful ErrorCategories where
  decode?_encode e := by
    obtain ⟨_ | _, _ | _⟩ := e <;> rfl

instance : Faithful RelaunchRequest where
  decode?_encode r := by
    unfold RelaunchRequest.instCoded
    obtain ⟨hosts, passwords⟩ := r
    by_cases h : passwords = ∅
    · cases hosts <;> simp [whenPresent, LaunchRequest.unlessEmpty, h, Record.ofJson?,
        Record.optional, Record.orElse_eq, Record.field?]
    · cases hosts <;> simp [whenPresent, LaunchRequest.unlessEmpty, h, Record.ofJson?,
        Record.optional, Record.orElse_eq, Record.field?]

instance : Faithful Violation where
  decode?_encode v := by
    refine Record.bind_object (by simp) fun r h => ?_
    simp only [holds_cons] at h
    simp only [Record.required_eq, h, Faithful.decode?_encode]
    rfl

instance : Faithful Errors := ⟨ofEntries_mapM_toList⟩

instance : Faithful Resolution where
  decode?_encode r := by
    unfold Resolution.instCoded
    obtain ⟨accepted, rejected, errors, launchable, passwords⟩ := r
    by_cases h : passwords = ∅
    · simp [h, Record.ofJson?, Record.required_eq, Record.orElse_eq, Record.field?]
    · simp [h, Record.ofJson?, Record.required_eq, Record.orElse_eq, Record.field?]

namespace LaunchRequest

def omittable (omitted : Prop) [Decidable omitted] (name : String) (j : Json) :
    List (String × Json) :=
  if omitted then [] else [(name, j)]

theorem sublist_omittable {omitted : Prop} [Decidable omitted] (name : String) (j : Json) :
    ((omittable omitted name j).map Prod.fst).Sublist [name] := by
  rw [omittable]
  split
  · exact List.nil_sublist [name]
  · exact List.Sublist.refl [name]

theorem lookup_omittable {omitted : Prop} [Decidable omitted] (name key : String) (j : Json) :
    (omittable omitted name j).lookup key =
      if key = name then if omitted then none else some j else none := by
  rw [omittable]
  by_cases h : key = name
  · rw [if_pos h, h]
    split
    · rfl
    · exact List.lookup_cons_self
  · rw [if_neg h]
    split
    · rfl
    · simp only [List.lookup_cons, beq_false_of_ne h, List.lookup_nil]

def ownFields (r : LaunchRequest) : List (String × Json) :=
  omittable (r.surveyAnswers = ∅) "survey_answers" (encode r.surveyAnswers) ++
  (omittable (r.credentialPasswords = ∅) "credential_passwords" (encode r.credentialPasswords) ++
  (omittable (r.excludedErrors = ∅) "exclude_errors" (encode r.excludedErrors) ++
  (("prevent_slicing", encode r.preventSlicing) ::
  (omittable (r.pinnedSlice = none) "pinned_slice" (encode r.pinnedSlice) ++
  [("launch_type", encode r.launchType)]))))

def ownNames : List String :=
  ["survey_answers", "credential_passwords", "exclude_errors", "prevent_slicing", "pinned_slice",
    "launch_type"]

theorem unlessEmpty_eq {α : Type} [DecidableEq α] (name : String) (j : Json) (t : Table α) :
    unlessEmpty name j t = omittable (t = ∅) name j := by
  simp only [unlessEmpty, omittable, Std.ExtTreeMap.isEmpty_iff]

theorem encode_eq (r : LaunchRequest) :
    encode r = .object (r.overrides.fields ++ r.ownFields) := by
  have hpinned : whenPresent "pinned_slice" r.pinnedSlice =
      omittable (r.pinnedSlice = none) "pinned_slice" (encode r.pinnedSlice) := by
    cases r.pinnedSlice <;> rfl
  unfold instCoded
  simp only [ownFields, ← hpinned, ← unlessEmpty_eq, List.append_assoc, List.cons_append,
    List.nil_append]
  rfl

theorem sublist_ownNames (r : LaunchRequest) : (r.ownFields.map Prod.fst).Sublist ownNames := by
  simp only [ownFields, List.map_append, List.map_cons]
  exact (sublist_omittable _ _).append <| (sublist_omittable _ _).append <|
    (sublist_omittable _ _).append <| List.Sublist.cons_cons _ <| (sublist_omittable _ _).append <|
    List.Sublist.refl _

theorem nodup_names (r : LaunchRequest) :
    ((r.overrides.fields ++ r.ownFields).map Prod.fst).Nodup := by
  have hnames : (PromptField.all.map PromptField.name ++ ownNames).Nodup := by decide
  rw [List.map_append]
  exact (r.overrides.sublist_names.append r.sublist_ownNames).nodup hnames

theorem field?_override (r : LaunchRequest) (f : PromptField) (place : Nat) :
    (Record.named (r.overrides.fields ++ r.ownFields)).field? place f.name =
      some ((r.overrides.get f).map encode) := by
  have hown : r.ownFields.lookup f.name = none := by
    rw [List.lookup_eq_none_iff]
    intro field hfield
    rw [bne_iff_ne]
    intro hname
    have hmem := r.sublist_ownNames.subset (List.mem_map_of_mem hfield)
    rw [← hname] at hmem
    revert hmem
    cases f <;> decide
  rw [Record.field?_named r.nodup_names, List.lookup_append, Overrides.lookup_fields, hown,
    Option.or_none]

/-- A request's own field is read back, when it is left out only where it has its default. -/
theorem orElse_own {α : Type} [Coded α] [Faithful α] (r : LaunchRequest) (name : String) (a d : α)
    {omitted : Prop} [Decidable omitted] (hname : name ∉ PromptField.all.map PromptField.name)
    (ha : omitted → a = d)
    (h : r.ownFields.lookup name = if omitted then none else some (encode a)) (place : Nat) :
    (Record.named (r.overrides.fields ++ r.ownFields)).orElse place name d = some a := by
  refine Record.orElse_of_omitted ha ?_
  rw [Record.field?_named r.nodup_names, List.lookup_append,
    Overrides.lookup_fields_of_ne hname, h, Option.none_or]

end LaunchRequest

attribute [local simp] LaunchRequest.ownFields LaunchRequest.lookup_omittable List.lookup_append
  List.lookup_cons in
instance : Faithful LaunchRequest where
  decode?_encode r := by
    have hoverrides := Overrides.ofRecord?_of_lookup r.field?_override
    have hanswers := r.orElse_own "survey_answers" r.surveyAnswers ∅ (by decide) id (by simp)
    have hpasswords := r.orElse_own "credential_passwords" r.credentialPasswords ∅ (by decide) id
      (by simp)
    have hexcluded := r.orElse_own "exclude_errors" r.excludedErrors ∅ (by decide) id (by simp)
    have hslicing := r.orElse_own "prevent_slicing" r.preventSlicing false (by decide) False.elim
      (by simp)
    have hpinned := r.orElse_own "pinned_slice" r.pinnedSlice none (by decide) id (by simp)
    have htype := r.orElse_own "launch_type" r.launchType .manual (by decide) False.elim (by simp)
    rw [LaunchRequest.encode_eq]
    unfold LaunchRequest.instCoded
    simp only [Record.ofObject?, Record.optional, Option.bind_eq_bind, Option.bind_some, hoverrides,
      hanswers, hpasswords, hexcluded, hslicing, hpinned, htype]
    rfl

end JobLaunch
