import JobLaunch.Proofs.JobResolution
/-!
The outcome of every field of a request. A field that is not requested leaves no trace. A requested
value repeats what the template has, or is accepted, or is rejected, and a rejection is explained by
one violation under the field's name, unless its explanation is excluded.
-/
namespace JobLaunch

/-- The part of a requested selection that a template does not have: it has something, no key twice,
and consists of the requested items with keys that are not assigned, in order and without repeats. -/
structure Adds {α : Type} (key : α → Id) (assigned requested added : List α) : Prop where
  nonempty : added ≠ []
  distinct : (added.map key).Nodup
  eq : added = (requested.filter fun x => key x ∉ assigned.map key).eraseDupsBy
    fun x y => key x == key y

theorem adds_novel {α : Type} {key : α → Id} {assigned requested : List α}
    (h : novel key (.ofList (assigned.map key)) requested ≠ []) :
    Adds key assigned requested (novel key (.ofList (assigned.map key)) requested) where
  nonempty := h
  distinct := nodup_map_novel key _ _
  eq := by
    rw [novel_eq_eraseDupsBy]
    simp

theorem novel_eq_nil_iff {α : Type} {key : α → Id} {assigned requested : List α} :
    novel key (.ofList (assigned.map key)) requested = [] ↔
      ∀ x ∈ requested, key x ∈ assigned.map key := by
  constructor
  · intro h x hx
    rcases seen_or_novel key (.ofList (assigned.map key)) hx with hs | ⟨y, hy, -⟩
    · simpa using hs
    · rw [h] at hy
      cases hy
  · intro h
    refine List.eq_nil_iff_forall_not_mem.mpr fun x hx => ?_
    obtain ⟨hm, hs⟩ := of_mem_novel key hx
    exact hs (by simpa using h x hm)

theorem credentialDelta_eq_nil_iff {assigned requested : List Credential} :
    credentialDelta assigned requested = [] ↔ ∀ c ∈ requested, c.id ∈ assigned.map (·.id) :=
  novel_eq_nil_iff

theorem adds_credentialDelta {assigned requested : List Credential}
    (h : credentialDelta assigned requested ≠ []) :
    Adds (·.id) assigned requested (credentialDelta assigned requested) :=
  adds_novel h

theorem idDelta_eq_nil_iff {assigned requested : List Id} :
    idDelta assigned requested = [] ↔ ∀ i ∈ requested, i ∈ assigned := by
  have h : novel (fun i => i) (.ofList (assigned.map fun i => i)) requested = [] ↔
      ∀ i ∈ requested, i ∈ assigned.map fun i => i := novel_eq_nil_iff
  rwa [List.map_id'] at h

theorem adds_idDelta {assigned requested : List Id} (h : idDelta assigned requested ≠ []) :
    Adds (fun i => i) assigned requested (idDelta assigned requested) := by
  have hn : novel (fun i => i) (.ofList (assigned.map fun i => i)) requested =
      idDelta assigned requested := by
    rw [List.map_id']
    rfl
  rw [← hn] at h ⊢
  exact adds_novel h

namespace JobTemplate
variable {t : JobTemplate} {m : UInt32} {r : LaunchRequest} {f : PromptField}

/-- Whether a template has a requested value already. It has a branch also when it names none and the
project runs that branch, credentials and labels when it has each of them, and instance groups when
they are some and the same in the same order. -/
def Has (t : JobTemplate) : (f : PromptField) → f.Carrier → Prop
  | .scmBranch, (branch : String) => t.options.scmBranch = branch ∨
      t.options.scmBranch = "" ∧ ∃ p, t.project = some p ∧ p.scmBranch = branch
  | .credentials, (requested : List Credential) =>
    ∀ c ∈ requested, c.id ∈ t.credentials.map (·.id)
  | .labels, (requested : List Id) => ∀ i ∈ requested, i ∈ t.labels
  | .instanceGroups, (requested : List Id) => requested ≠ [] ∧ t.instanceGroups = requested
  | f, requested => ∃ own, t.value? f = some own ∧ f.same own requested

/-- Whether a value is the one to record for a requested one: itself, or what it adds to the
credentials or labels of the template. -/
def Records (t : JobTemplate) : (f : PromptField) → (requested recorded : f.Carrier) → Prop
  | .credentials, (requested : List Credential), (recorded : List Credential) =>
    Adds (·.id) t.credentials requested recorded
  | .labels, (requested : List Id), (recorded : List Id) => Adds (fun i => i) t.labels requested recorded
  | _, requested, recorded => recorded = requested

/-- Whether a value is valid: a branch needs a project, which runs it anyway or lets jobs run
another, forks stay within the ceiling, and slices need hosts. -/
def Permits (t : JobTemplate) (m : UInt32) (o : Overrides) : (f : PromptField) → f.Carrier → Prop
  | .scmBranch, (branch : String) =>
    ∃ p, t.project = some p ∧ (branch = p.scmBranch ∨ p.allowOverride)
  | .forks, (forks : UInt32) => 0 < m → forks ≤ m
  | .jobSliceCount, (count : UInt32) => 1 < count → 1 < t.effectiveSliceCount o
  | _, _ => True

theorem effect?_eq_none_iff {x : f.Carrier} : t.effect? f x = none ↔ t.Has f x := by
  have hscalar (hs : f.strategy = .scalar) (hb : f ≠ .scmBranch) :
      t.effect? f x = none ↔ ∃ own, t.value? f = some own ∧ f.same own x := by
    rw [effect?_of_scalar hs hb, ite_eq_left_iff, ← Option.any_eq_true]
    simp
  cases f with
  | scmBranch =>
    rw [effect?_scmBranch, Has, ite_eq_left_iff]
    simp [Decidable.or_iff_not_imp_left]
  | credentials =>
    rw [effect?_credentials, Has, ite_eq_left_iff, ← credentialDelta_eq_nil_iff]
    simp
  | labels =>
    rw [effect?_labels, Has, ite_eq_left_iff, ← idDelta_eq_nil_iff]
    simp
  | instanceGroups =>
    rw [effect?_instanceGroups, Has, ite_eq_left_iff]
    simp
  | _ => exact hscalar rfl (by decide)

theorem records_of_effect? {x y : f.Carrier} (h : t.effect? f x = some y) : t.Records f x y := by
  have hscalar (hs : f.strategy = .scalar) (hb : f ≠ .scmBranch) : y = x := by
    rw [effect?_of_scalar hs hb] at h
    split at h
    · cases h
    · exact (Option.some.inj h).symm
  cases f with
  | scmBranch =>
    rw [effect?_scmBranch] at h
    split at h
    · cases h
    · exact (Option.some.inj h).symm
  | credentials =>
    rw [effect?_credentials] at h
    split at h
    · cases h
    · cases h
      exact adds_credentialDelta ‹_›
  | labels =>
    rw [effect?_labels] at h
    split at h
    · cases h
    · cases h
      exact adds_idDelta ‹_›
  | instanceGroups =>
    rw [effect?_instanceGroups] at h
    split at h
    · cases h
    · exact (Option.some.inj h).symm
  | _ => exact hscalar rfl (by decide)

theorem violation?_eq_none_iff {o : Overrides} {x : f.Carrier} :
    t.violation? m o f x = none ↔ t.Permits m o f x := by
  cases f with
  | scmBranch =>
    rw [violation?.eq_def, Permits]
    cases t.project with
    | none => simp
    | some p => simp [Decidable.or_iff_not_imp_left]
  | jobSliceCount => simp [violation?, Permits]
  | forks => simp [violation?, Permits]
  | _ => exact iff_of_true rfl trivial

/-- What a resolution says about a field. It is accepted or rejected, but not both, exactly when it
is requested with a value that the template does not have; accepted exactly when it is prompted for
and valid as well. A rejection has one violation under the field's name, which is left out only where
the field is not prompted for and such problems are excluded. -/
structure Outcome (t : JobTemplate) (m : UInt32) (r : LaunchRequest) (f : PromptField) : Prop where
  absent : r.overrides.get f = none → (t.resolution m r).accepted.get f = none ∧
    (t.resolution m r).rejected.get f = none ∧ (t.resolution m r).errors[f.name]? = none
  unchanged : ∀ x, r.overrides.get f = some x →
    ((t.resolution m r).accepted.get f = none ∧ (t.resolution m r).rejected.get f = none ↔
      t.Has f x)
  exclusive : (t.resolution m r).accepted.get f = none ∨ (t.resolution m r).rejected.get f = none
  recorded : ∀ x y, r.overrides.get f = some x → (t.resolution m r).accepted.get f = some y ∨
    (t.resolution m r).rejected.get f = some y → t.Records f x y
  accepted : ∀ y, (t.resolution m r).accepted.get f = some y →
    t.ask.get f ∧ t.Permits m r.overrides f y
  rejected : ∀ y, (t.resolution m r).rejected.get f = some y →
    ¬ (t.ask.get f ∧ t.Permits m r.overrides f y)
  explained : (∃ v, (t.resolution m r).errors[f.name]? = some [v]) ↔
    (t.resolution m r).rejected.get f ≠ none ∧ ¬ (t.ask.get f = false ∧ r.excludes .prompts)
  silent : (∃ v, (t.resolution m r).errors[f.name]? = some [v]) ∨
    (t.resolution m r).errors[f.name]? = none

theorem outcome_of_none (hf : f ≠ .extraVars) (hx : r.overrides.get f = none) :
    t.Outcome m r f := by
  have ha : (t.resolution m r).accepted.get f = none := by
    rw [accepted_resolution hf, hx, Option.bind_none]
  have hr : (t.resolution m r).rejected.get f = none := by
    rw [rejected_resolution hf, hx, Option.bind_none]
  have he : (t.resolution m r).errors[f.name]? = none := by
    rw [getElem?_errors_resolution hf, hx, Option.bind_none]
  constructor
  · exact fun _ => ⟨ha, hr, he⟩
  · intro x hsome
    rw [hx] at hsome
    cases hsome
  · exact Or.inl ha
  · intro x y hsome
    rw [hx] at hsome
    cases hsome
  · intro y hy
    rw [ha] at hy
    cases hy
  · intro y hy
    rw [hr] at hy
    cases hy
  · simp [he, hr]
  · exact Or.inr he

section
variable {x : f.Carrier} (hf : f ≠ .extraVars) (hx : r.overrides.get f = some x)
include hf hx

theorem accepted_of_requested {y : f.Carrier} : (t.resolution m r).accepted.get f = some y ↔
    t.effect? f x = some y ∧ t.ask.get f ∧ t.Permits m r.overrides f y := by
  rw [accepted_resolution hf, hx, Option.bind_some, accepted_decideField, violation?_eq_none_iff]

theorem rejected_of_requested {y : f.Carrier} : (t.resolution m r).rejected.get f = some y ↔
    t.effect? f x = some y ∧ ¬ (t.ask.get f ∧ t.Permits m r.overrides f y) := by
  rw [rejected_resolution hf, hx, Option.bind_some, rejected_decideField, Ne,
    violation?_eq_none_iff, not_and]

theorem errors_of_requested {v : Violation} :
    (t.resolution m r).errors[f.name]? = some [v] ↔ ∃ y, t.effect? f x = some y ∧
      (t.ask.get f = false ∧ r.excludedErrors.prompts = false ∧ v = notPrompted ∨
        t.ask.get f ∧ t.violation? m r.overrides f y = some v) := by
  rw [getElem?_errors_resolution hf, hx, Option.bind_some, ← violation_decideField]
  simp

theorem explained_of_requested : (∃ v, (t.resolution m r).errors[f.name]? = some [v]) ↔
    (t.resolution m r).rejected.get f ≠ none ∧ ¬ (t.ask.get f = false ∧ r.excludes .prompts) := by
  constructor
  · rintro ⟨v, hv⟩
    obtain ⟨y, hy, ⟨ha, hp, -⟩ | ⟨ha, hval⟩⟩ := (errors_of_requested hf hx).mp hv
    · have hr := (rejected_of_requested (m := m) hf hx).mpr ⟨hy, by simp [ha]⟩
      exact ⟨by simp [hr], by simp [LaunchRequest.excludes, ErrorCategories.contains, hp]⟩
    · have hn : ¬ t.Permits m r.overrides f y := by
        rw [← violation?_eq_none_iff, hval]
        exact Option.some_ne_none v
      have hr := (rejected_of_requested (m := m) hf hx).mpr ⟨hy, fun h => hn h.2⟩
      exact ⟨by simp [hr], by simp [ha]⟩
  · rintro ⟨hr, hs⟩
    obtain ⟨y, hy⟩ := Option.ne_none_iff_exists'.mp hr
    obtain ⟨he, hn⟩ := (rejected_of_requested hf hx).mp hy
    cases ha : t.ask.get f with
    | false =>
      have hp : r.excludedErrors.prompts = false := by
        simpa [ha, LaunchRequest.excludes, ErrorCategories.contains] using hs
      exact ⟨notPrompted, (errors_of_requested hf hx).mpr ⟨y, he, Or.inl ⟨ha, hp, rfl⟩⟩⟩
    | true =>
      have hval : t.violation? m r.overrides f y ≠ none := by
        rw [Ne, violation?_eq_none_iff]
        exact fun h => hn ⟨ha, h⟩
      obtain ⟨v, hv⟩ := Option.ne_none_iff_exists'.mp hval
      exact ⟨v, (errors_of_requested hf hx).mpr ⟨y, he, Or.inr ⟨ha, hv⟩⟩⟩

theorem outcome_of_requested : t.Outcome m r f := by
  have hacc {y : f.Carrier} := accepted_of_requested (t := t) (m := m) (y := y) hf hx
  have hrej {y : f.Carrier} := rejected_of_requested (t := t) (m := m) (y := y) hf hx
  constructor
  · intro hn
    rw [hn] at hx
    cases hx
  · intro z hz
    obtain rfl : z = x := Option.some.inj (hz.symm.trans hx)
    rw [← effect?_eq_none_iff]
    simp only [Option.eq_none_iff_forall_ne_some, Ne, hacc, hrej]
    constructor
    · rintro ⟨ha, hr⟩ y hy
      exact hr y ⟨hy, fun h => ha y ⟨hy, h⟩⟩
    · exact fun h => ⟨fun y hy => h y hy.1, fun y hy => h y hy.1⟩
  · by_cases ha : (t.resolution m r).accepted.get f = none
    · exact Or.inl ha
    · right
      obtain ⟨y, hy⟩ := Option.ne_none_iff_exists'.mp ha
      obtain ⟨he, hp⟩ := hacc.mp hy
      refine Option.eq_none_iff_forall_ne_some.mpr fun z hz => ?_
      obtain ⟨he', hn⟩ := hrej.mp hz
      obtain rfl : y = z := Option.some.inj (he.symm.trans he')
      exact hn hp
  · rintro z y hz (hy | hy)
    · obtain rfl : z = x := Option.some.inj (hz.symm.trans hx)
      exact records_of_effect? (hacc.mp hy).1
    · obtain rfl : z = x := Option.some.inj (hz.symm.trans hx)
      exact records_of_effect? (hrej.mp hy).1
  · exact fun y hy => (hacc.mp hy).2
  · exact fun y hy => (hrej.mp hy).2
  · exact explained_of_requested hf hx
  · rw [getElem?_errors_resolution hf, hx, Option.bind_some]
    cases (t.decideField m r f x).violation? with
    | none => exact Or.inr rfl
    | some v => exact Or.inl ⟨v, rfl⟩

end

end JobTemplate

/-- Every field but the variables has exactly one outcome, whatever else is requested and whatever
errors are excluded, and a request can be launched when nothing is wrong. -/
theorem fields_have_outcomes (t : JobTemplate) (m : UInt32) (r : LaunchRequest) :
    (∀ f, f ≠ .extraVars → t.Outcome m r f) ∧
      ((t.resolution m r).launchable ↔ (t.resolution m r).errors = ∅) := by
  refine ⟨fun f hf => ?_, Std.ExtTreeMap.isEmpty_iff⟩
  cases hx : r.overrides.get f with
  | none => exact JobTemplate.outcome_of_none hf hx
  | some x => exact JobTemplate.outcome_of_requested hf hx

def LaunchRequest.mixed : LaunchRequest where
  overrides := (((∅ : Overrides).set .labels (some [⟨7⟩, ⟨7⟩])).set .forks (some 50)).set .limit
    (some "web")

def JobTemplate.labelled : JobTemplate := .sample [.labels, .forks]

theorem mixed_request_has_outcomes :
    Adds (fun i => i) [] [⟨7⟩, ⟨7⟩] [⟨7⟩] ∧
    (∃ v, (JobTemplate.labelled.resolution 10 .mixed).errors["forks"]? = some [v]) ∧
    (∃ v, (JobTemplate.labelled.resolution 10 .mixed).errors["limit"]? = some [v]) ∧
    (JobTemplate.labelled.resolution 10 .mixed).errors["timeout"]? = none := by
  obtain ⟨h, -⟩ := fields_have_outcomes .labelled 10 .mixed
  have hlabels : (JobTemplate.labelled.resolution 10 .mixed).accepted.labels = some [⟨7⟩] := by
    decide
  exact ⟨(h .labels (by decide)).recorded [⟨7⟩, ⟨7⟩] [⟨7⟩] rfl (Or.inl hlabels),
    (h .forks (by decide)).explained.mpr (by decide),
    (h .limit (by decide)).explained.mpr (by decide),
    ((h .timeout (by decide)).absent rfl).2.2⟩

end JobLaunch
