import JobLaunch.Proofs.RelaunchGate
import Mathlib.Data.List.Nodup
/-!
The relaunch gate under a template that changes. A template that prompts for more lets through every
relaunch that it let through before. Variables are held against the survey or against the ask flag,
so a change may move a configuration from one test to the other.
-/
namespace JobLaunch

def JobTemplate.asking (t : JobTemplate) (f : PromptField) : JobTemplate :=
  { t with ask := t.ask.set f true }

namespace PolicySnapshot
variable {p q : PolicySnapshot} {c : LaunchConfig} {f : PromptField}

/-- Whether a policy prompts for all that another one of the same kind prompts for. -/
structure Loosens (q p : PolicySnapshot) : Prop where
  kind : q.kind = p.kind
  ask : ∀ f, p.ask.get f → q.ask.get f
  surveyEnabled : p.surveyEnabled → q.surveyEnabled
  surveyVariables : ∀ name ∈ p.surveyVariables, name ∈ q.surveyVariables

theorem Loosens.ask_eq_false (h : q.Loosens p) (ha : q.ask.get f = false) :
    p.ask.get f = false := by
  rw [Bool.eq_false_iff] at ha ⊢
  exact mt (h.ask f) ha

/-- What the looser policy does not prompt for, the stricter one does not either. -/
theorem Loosens.unprompted (h : q.Loosens p) (hu : q.unprompted c f) : p.unprompted c f := by
  by_cases hq : f = .extraVars ∧ q.surveyGoverns
  · obtain ⟨rfl, hq⟩ := hq
    obtain ⟨-, ha⟩ := surveyGoverns_iff.mp hq
    by_cases hs : p.surveyEnabled
    · -- both surveys govern, and the looser one asks for more
      obtain ⟨name, hname, hout⟩ := (unprompted_extraVars_iff hq).mp hu
      exact (unprompted_extraVars_iff (surveyGoverns_iff.mpr ⟨hs, h.ask_eq_false ha⟩)).mpr
        ⟨name, hname, mt (h.surveyVariables name) hout⟩
    · -- the stricter policy has no survey, and its flag is off like the looser one's
      refine (unprompted_iff fun hp => hs (surveyGoverns_iff.mp hp.2).1).mpr
        ⟨h.ask_eq_false ha, fun hl => ?_⟩
      cases hl.1
  · obtain ⟨ha, hl⟩ := (unprompted_iff hq).mp hu
    refine (unprompted_iff ?_).mpr ⟨h.ask_eq_false ha, hl⟩
    rintro ⟨rfl, hp⟩
    exact hq ⟨rfl, surveyGoverns_iff.mpr ⟨h.surveyEnabled (surveyGoverns_iff.mp hp).1, ha⟩⟩

/-- What is not prompted for was the caller's choice. -/
theorem chosen_of_unprompted (hu : p.unprompted c f) : p.chosen c f := by
  by_cases hp : f = .extraVars ∧ p.surveyGoverns
  · simp [chosen, hp.1, hp.2]
  · obtain ⟨-, hl⟩ := (unprompted_iff hp).mp hu
    rw [not_and_or] at hl
    exact Bool.or_eq_true_iff.mpr (.inr (by simpa using hl))

/-- Prompting for one more field loosens a template's policy. -/
theorem loosens_of_asking (t : JobTemplate) (f : PromptField) :
    (of (.job (t.asking f))).Loosens (of (.job t)) where
  kind := rfl
  ask g hg := by
    change (t.ask.set f true).get g = true
    by_cases h : g = f
    · subst h
      rw [PerField.get_set_self]
    · rw [PerField.get_set_of_ne _ _ h]
      exact hg
  surveyEnabled hs := hs
  surveyVariables _ hv := hv

end PolicySnapshot

namespace LaunchConfig
variable {c : LaunchConfig} {p q : PolicySnapshot}

def chosenFields (c : LaunchConfig) (p : PolicySnapshot) : List PromptField :=
  (c.fieldsUnder p).filter (p.chosen c)

theorem hasAnyOverride_iff : c.hasAnyOverride p ↔ c.chosenFields p ≠ [] := by
  rw [hasAnyOverride, List.any_eq_true, chosenFields, ne_eq, List.filter_eq_nil_iff]
  simp

theorem wasFullyPrompted_iff : c.wasFullyPrompted p ↔ c.unpromptedFields p = [] :=
  List.isEmpty_iff

theorem unpromptedFields_of_loosens (h : q.Loosens p) :
    (c.unpromptedFields q).Sublist (c.unpromptedFields p) := by
  have hfields : c.fieldsUnder q = c.fieldsUnder p := by rw [fieldsUnder, fieldsUnder, h.kind]
  rw [unpromptedFields, unpromptedFields, hfields]
  exact List.monotone_filter_right _ fun f hu => h.unprompted hu

theorem unpromptedFields_sublist_chosenFields :
    (c.unpromptedFields p).Sublist (c.chosenFields p) :=
  List.monotone_filter_right _ fun _ hu => PolicySnapshot.chosen_of_unprompted hu

theorem unpromptedFields_sublist_fields : (c.unpromptedFields p).Sublist p.kind.fields :=
  List.filter_sublist.trans List.filter_sublist

end LaunchConfig

theorem TemplateKind.nodup_fields (kind : TemplateKind) : kind.fields.Nodup := by
  cases kind with
  | job => exact PromptField.nodup_all
  | system => exact List.nodup_singleton _

/-- Prompting for more never stops a relaunch: what a looser policy finds unprompted, the stricter
one finds unprompted too. Under any policy the unprompted fields are among those that count as
overridden, each once and in the order in which fields are decided. -/
theorem loosening_unblocks_relaunches (c : LaunchConfig) :
    (∀ p q : PolicySnapshot, q.Loosens p →
      (c.unpromptedFields q).Sublist (c.unpromptedFields p) ∧
      (c.wasFullyPrompted p → c.wasFullyPrompted q)) ∧
    ∀ p : PolicySnapshot,
      (c.hasAnyOverride p ↔ c.chosenFields p ≠ []) ∧
      (c.unpromptedFields p).Sublist (c.chosenFields p) ∧
      (c.unpromptedFields p).Sublist p.kind.fields ∧ (c.unpromptedFields p).Nodup := by
  constructor
  · intro p q h
    have hsub := LaunchConfig.unpromptedFields_of_loosens (c := c) h
    refine ⟨hsub, fun hp => ?_⟩
    rw [LaunchConfig.wasFullyPrompted_iff] at hp ⊢
    exact List.sublist_nil.mp (hp ▸ hsub)
  · intro p
    have horder := LaunchConfig.unpromptedFields_sublist_fields (c := c) (p := p)
    exact ⟨LaunchConfig.hasAnyOverride_iff, LaunchConfig.unpromptedFields_sublist_chosenFields,
      horder, p.kind.nodup_fields.sublist horder⟩

def LaunchConfig.sampleSetting (name : String) : LaunchConfig :=
  { (default : LaunchConfig) with
    overrides := ((∅ : Overrides).set .limit (some "web")).set .extraVars
      (some (Table.ofEntries [(name, .text "yes")] : Vars)) }

/-- When the template starts to prompt for variables, they are not held against its survey any more:
what the survey asks for is still prompted for, and what it does not ask for is no longer refused. -/
theorem variables_prompted_beyond_survey :
    (LaunchConfig.sampleSetting "color").wasFullyPrompted (.of (.job (.sample [.limit]))) ∧
    (LaunchConfig.sampleSetting "color").wasFullyPrompted
      (.of (.job ((JobTemplate.sample [.limit]).asking .extraVars))) ∧
    (LaunchConfig.sampleSetting "debug").unpromptedFields (.of (.job (.sample [.limit]))) =
      [.extraVars] ∧
    (LaunchConfig.sampleSetting "debug").unpromptedFields
      (.of (.job ((JobTemplate.sample [.limit]).asking .extraVars))) = [] := by
  have hloose := PolicySnapshot.loosens_of_asking (.sample [.limit]) .extraVars
  have hp : (LaunchConfig.sampleSetting "color").wasFullyPrompted
      (.of (.job (.sample [.limit]))) := by
    decide
  obtain ⟨-, hq⟩ := (loosening_unblocks_relaunches (.sampleSetting "color")).1 _ _ hloose
  exact ⟨hp, hq hp, by decide, by decide⟩

end JobLaunch
