import JobLaunch.Proofs.SelectionDelta
import JobLaunch.Proofs.VariableMerge
import JobLaunch.Resolve
/-!
What a resolution decides about each field: when a requested value is accepted, when it is refused
and with which violation, and what all refusals together mean for the launch.
-/
namespace JobLaunch

/-- The variables that a request proposes; survey answers overlay the others. -/
def LaunchRequest.proposed (r : LaunchRequest) : Vars :=
  (r.overrides.extraVars.getD ∅).overlay r.surveyAnswers

def notPrompted : Violation := ⟨.policy, "Field is not configured to prompt on launch."⟩

namespace PromptField

@[simp] theorem same_self (f : PromptField) (x : f.Carrier) : f.same x x := by
  cases f <;> simp [same]

@[simp] theorem isEmptySelection_credentials (x : List Credential) :
    isEmptySelection .credentials x = x.isEmpty := by
  cases x <;> rfl

@[simp] theorem isEmptySelection_labels (x : List Id) : isEmptySelection .labels x = x.isEmpty :=
  rfl

@[simp] theorem isEmptySelection_instanceGroups (x : List Id) :
    isEmptySelection .instanceGroups x = x.isEmpty :=
  rfl

end PromptField

namespace JobTemplate
variable {t : JobTemplate} {m : UInt32} {r : LaunchRequest} {f : PromptField}

/-- What a requested value changes for the jobs, if anything. -/
def effect? (t : JobTemplate) (f : PromptField) (requested : f.Carrier) : Option f.Carrier :=
  (t.change? f requested).filter fun v => !t.runsBranch f v

theorem accepted_decideField {x y : f.Carrier} :
    (t.decideField m r f x).accepted? = some y ↔
      t.effect? f x = some y ∧ t.ask.get f ∧ t.violation? m r.overrides f y = none := by
  unfold decideField effect?
  cases (t.change? f x).filter fun v => !t.runsBranch f v with
  | none => simp [Decision.accepted?]
  | some z =>
    cases ha : t.ask.get f with
    | false => simp [Decision.accepted?]
    | true =>
      cases hv : t.violation? m r.overrides f z with
      | none => simp +contextual [Decision.accepted?, hv, eq_comm]
      | some v =>
        simp only [Decision.accepted?]
        grind

theorem rejected_decideField {x y : f.Carrier} :
    (t.decideField m r f x).rejected? = some y ↔
      t.effect? f x = some y ∧ (t.ask.get f → t.violation? m r.overrides f y ≠ none) := by
  unfold decideField effect?
  cases (t.change? f x).filter fun v => !t.runsBranch f v with
  | none => simp [Decision.rejected?]
  | some z =>
    cases ha : t.ask.get f with
    | false => simp [Decision.rejected?]
    | true =>
      cases hv : t.violation? m r.overrides f z with
      | none => simp only [Decision.rejected?]; grind
      | some v => simp only [Decision.rejected?]; grind

theorem violation_decideField {x : f.Carrier} {v : Violation} :
    (t.decideField m r f x).violation? = some v ↔ ∃ y, t.effect? f x = some y ∧
      (t.ask.get f = false ∧ r.excludedErrors.prompts = false ∧ v = notPrompted ∨
        t.ask.get f ∧ t.violation? m r.overrides f y = some v) := by
  unfold decideField effect?
  cases (t.change? f x).filter fun v => !t.runsBranch f v with
  | none => simp [Decision.violation?]
  | some z =>
    cases ha : t.ask.get f with
    | false =>
      simp only [Decision.violation?, LaunchRequest.excludes, ErrorCategories.contains, notPrompted]
      grind
    | true =>
      cases hv : t.violation? m r.overrides f z with
      | none => simp [Decision.violation?, hv]
      | some w => simp [Decision.violation?, hv]

theorem runsBranch_of_ne (hb : f ≠ .scmBranch) (x : f.Carrier) : t.runsBranch f x = false := by
  cases f with
  | scmBranch => exact absurd rfl hb
  | _ => rfl

theorem effect?_of_scalar (hs : f.strategy = .scalar) (hb : f ≠ .scmBranch) (x : f.Carrier) :
    t.effect? f x = if (t.value? f).any fun own => f.same own x then none else some x := by
  simp only [effect?, change?, hs, runsBranch_of_ne hb]
  split <;> simp

theorem effect?_scmBranch (x : String) : t.effect? .scmBranch x =
    if t.options.scmBranch = x ∨
      t.options.scmBranch = "" ∧ ∃ p, t.project = some p ∧ p.scmBranch = x then none
    else some x := by
  by_cases ho : t.options.scmBranch = x
  · simp [effect?, change?, PromptField.strategy, value?, PromptField.same, ho]
  · cases hp : t.project <;>
      simp [effect?, change?, PromptField.strategy, value?, PromptField.same, runsBranch, ho, hp,
        Option.filter_some]
    grind

theorem effect?_of_unorderedSet (hs : f.strategy = .unorderedSet) {own : f.Carrier}
    (ho : t.value? f = some own) (x : f.Carrier) : t.effect? f x =
      if f.isEmptySelection (f.beyond own x) then none else some (f.beyond own x) := by
  have hb : f ≠ .scmBranch := by
    rintro rfl
    cases hs
  simp only [effect?, change?, hs, ho, runsBranch_of_ne hb]
  split <;> simp

theorem effect?_credentials (x : List Credential) : t.effect? .credentials x =
    if credentialDelta t.credentials x = [] then none
    else some (credentialDelta t.credentials x) := by
  rw [effect?_of_unorderedSet rfl rfl, PromptField.isEmptySelection_credentials]
  simp only [PromptField.beyond, List.isEmpty_iff]

theorem effect?_labels (x : List Id) : t.effect? .labels x =
    if idDelta t.labels x = [] then none else some (idDelta t.labels x) := by
  rw [effect?_of_unorderedSet rfl rfl, PromptField.isEmptySelection_labels]
  simp only [PromptField.beyond, List.isEmpty_iff]

theorem effect?_instanceGroups (x : List Id) : t.effect? .instanceGroups x =
    if x ≠ [] ∧ t.instanceGroups = x then none else some x := by
  have hb (v : List Id) : t.runsBranch .instanceGroups v = false := rfl
  have hi (v : List Id) : PromptField.ids? .instanceGroups v = some v := rfl
  cases x with
  | nil => simp [effect?, change?, PromptField.strategy, Option.filter_some, hb]
  | cons i is =>
    simp only [effect?, change?, PromptField.strategy, value?,
      PromptField.isEmptySelection_instanceGroups, Option.bind_some, hi]
    by_cases h : t.instanceGroups = i :: is <;> simp [h, Option.filter_some, hb]

theorem beyond_beyond (f : PromptField) (own x : f.Carrier) :
    f.beyond own (f.beyond own x) = f.beyond own x := by
  cases f with
  | credentials => exact credentialDelta_credentialDelta own x
  | labels => exact idDelta_idDelta own x
  | _ => rfl

theorem change?_of_change? {x y : f.Carrier} (h : t.change? f x = some y) :
    t.change? f y = some y := by
  unfold change? at h ⊢
  cases hs : f.strategy with
  | scalar =>
    simp only [hs] at h ⊢
    split at h
    · cases h
    · cases h
      rw [if_neg ‹_›]
  | orderedSet =>
    simp only [hs] at h ⊢
    split at h
    · cases h
    · cases h
      rw [if_neg ‹_›]
  | unorderedSet =>
    simp only [hs] at h ⊢
    cases hv : t.value? f with
    | none =>
      simp only [hv] at h ⊢
      split at h
      · cases h
      · cases h
        exact if_neg ‹_›
    | some own =>
      simp only [hv] at h ⊢
      split at h
      · cases h
      · cases h
        rw [beyond_beyond]
        exact if_neg ‹_›

/-- What a request changes is a change in itself. -/
theorem effect?_of_effect? {x y : f.Carrier} (h : t.effect? f x = some y) :
    t.effect? f y = some y := by
  obtain ⟨hc, hb⟩ := Option.filter_eq_some_iff.mp h
  exact Option.filter_eq_some_iff.mpr ⟨change?_of_change? hc, hb⟩

end JobTemplate
end JobLaunch
