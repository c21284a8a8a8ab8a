import JobLaunch.Proofs.SurveyIntake
import JobLaunch.Proofs.Violations
/-!
What becomes of the proposed variables, name by name. A question of an active survey decides about
its name, the ask flag about all other names.
-/
namespace JobLaunch

/-- A table is empty when no name has an entry. -/
theorem Table.isEmpty_iff_getElem? {α : Type} {t : Table α} :
    t.isEmpty ↔ ∀ k : String, t[k]? = none := by
  rw [Std.ExtTreeMap.isEmpty_iff]
  constructor
  · rintro rfl k
    exact Std.ExtTreeMap.getElem?_empty
  · intro h
    refine Std.ExtTreeMap.ext_getElem? fun k => ?_
    rw [h k, Std.ExtTreeMap.getElem?_empty]

theorem Table.exists_of_not_isEmpty {α : Type} {t : Table α} (h : ¬ t.isEmpty) :
    ∃ (k : String) (v : α), t[k]? = some v := by
  rw [Table.isEmpty_iff_getElem?] at h
  obtain ⟨k, hk⟩ := Classical.not_forall.mp h
  obtain ⟨v, hv⟩ := Option.ne_none_iff_exists'.mp hk
  exact ⟨k, v, hv⟩

@[simp] theorem Table.overlay_empty {α : Type} (t : Table α) : t.overlay ∅ = t := by
  refine Std.ExtTreeMap.ext_getElem? fun k => ?_
  rw [Table.getElem?_overlay, Std.ExtTreeMap.getElem?_empty, Option.none_or]

theorem Table.getElem?_filter_names {α : Type} (t : Table α) (p : String → Bool) (k : String) :
    (t.filter fun name _ => p name)[k]? = if p k then t[k]? else none := by
  rw [Std.ExtTreeMap.getElem?_filter']
  cases t[k]? <;> simp [Option.filter_some]

namespace JobTemplate
variable (t : JobTemplate)

def settled (data : Vars) (name : String) : Option Value :=
  match t.questionOf? name with
  | some q => q.answer data[name]?
  | none => if t.ask.extraVars then data[name]? else none

theorem settled_congr {data data' : Vars} {name : String} (h : data[name]? = data'[name]?) :
    t.settled data name = t.settled data' name := by
  simp only [settled, h]

end JobTemplate

theorem getElem?_accepted_mergeJobVariables (t : JobTemplate) (data : Vars)
    (excluded : ErrorCategories) (k : String) :
    (mergeJobVariables t data excluded).accepted[k]? = t.settled data k := by
  cases ha : t.ask.extraVars with
  | true =>
    simp only [mergeJobVariables, ha, if_true, Table.getElem?_overlay, JobTemplate.settled,
      SurveyIntake.getElem?_remaining_run, SurveyIntake.getElem?_accepted_run]
    cases t.questionOf? k <;> simp
  | false =>
    simp only [mergeJobVariables, ha, Bool.false_eq_true, if_false, JobTemplate.settled,
      SurveyIntake.getElem?_accepted_run]
    cases t.questionOf? k <;> simp

/-- What a merge accepts, it accepts again. -/
theorem settled_of_settled {t : JobTemplate} {data data' : Vars} {k : String}
    (h : data'[k]? = t.settled data k) : t.settled data' k = t.settled data k := by
  simp only [JobTemplate.settled] at h ⊢
  cases hq : t.questionOf? k with
  | some q =>
    simp only [hq] at h ⊢
    rw [h, q.answer_answer]
  | none =>
    simp only [hq] at h ⊢
    rw [h]
    split <;> rfl

theorem surveyPasswords_mergeJobVariables_congr {t : JobTemplate} {data data' : Vars}
    {excluded excluded' : ErrorCategories}
    (h : ∀ k q, t.questionOf? k = some q → q.answer data[k]? = q.answer data'[k]?) :
    (mergeJobVariables t data excluded).surveyPasswords =
      (mergeJobVariables t data' excluded').surveyPasswords := by
  have hi : (SurveyIntake.run t (!excluded.required) data).accepted =
      (SurveyIntake.run t (!excluded'.required) data').accepted := by
    refine Std.ExtTreeMap.ext_getElem? fun k => ?_
    rw [SurveyIntake.getElem?_accepted_run, SurveyIntake.getElem?_accepted_run]
    cases hq : t.questionOf? k with
    | none => rfl
    | some q => exact h k q hq
  simp only [mergeJobVariables, hi]

/-- The proposed variables that nothing accepts and that do not repeat the template's own. -/
def JobTemplate.leftover (t : JobTemplate) (data : Vars) (excluded : ErrorCategories) : Vars :=
  if t.ask.extraVars then ∅
  else (SurveyIntake.run t (!excluded.required) data).remaining.filter fun name v =>
    !(t.options.extraVars[name]?).any fun own => own.same v

theorem getElem?_leftover (t : JobTemplate) (data : Vars) (excluded : ErrorCategories)
    (k : String) :
    (t.leftover data excluded)[k]? =
      if t.ask.extraVars ∨ (t.questionOf? k).isSome then none
      else data[k]?.filter fun v => !(t.options.extraVars[k]?).any fun own => own.same v := by
  cases ha : t.ask.extraVars with
  | true => simp [JobTemplate.leftover, ha]
  | false =>
    simp only [JobTemplate.leftover, ha, Bool.false_eq_true, if_false, false_or,
      Std.ExtTreeMap.getElem?_filter', SurveyIntake.getElem?_remaining_run]
    split <;> simp

theorem rejected_mergeJobVariables (t : JobTemplate) (data : Vars) (excluded : ErrorCategories) :
    (mergeJobVariables t data excluded).rejected =
      (SurveyIntake.run t (!excluded.required) data).rejected.overlay (t.leftover data excluded) :=
  rfl

theorem errors_mergeJobVariables (t : JobTemplate) (data : Vars) (excluded : ErrorCategories) :
    (mergeJobVariables t data excluded).errors =
      ((∅ : Errors).add "variables_needed_to_start"
        ((SurveyIntake.run t (!excluded.required) data).problems.map (.mk .validation))).add
        "extra_vars" (if (t.leftover data excluded).isEmpty || excluded.prompts then []
          else [unsupportedVariables (t.leftover data excluded)]) :=
  rfl

/-- Where problems of prompts count, a merge without errors rejects nothing: every answer is valid and
nothing is left over. -/
theorem of_errors_mergeJobVariables {t : JobTemplate} {data : Vars} {excluded : ErrorCategories}
    (hx : ¬ excluded.prompts) (h : (mergeJobVariables t data excluded).errors.isEmpty) :
    (mergeJobVariables t data excluded).rejected = ∅ ∧
      (∀ k : String, (t.leftover data excluded)[k]? = none) ∧
      ∀ k q v, t.questionOf? k = some q → q.settle data[k]? = some v → q.valueProblems v = [] := by
  rw [errors_mergeJobVariables] at h
  obtain ⟨hs, hv⟩ := Errors.isEmpty_add.mp h
  obtain ⟨-, hp⟩ := Errors.isEmpty_add.mp hs
  have hrest : (t.leftover data excluded).isEmpty := by
    by_cases he : (t.leftover data excluded).isEmpty
    · exact he
    · rw [if_neg (by simp [he, hx])] at hv
      exact absurd hv (List.cons_ne_nil _ _)
  obtain ⟨hr, hv⟩ := SurveyIntake.of_problems_run_eq_nil (List.map_eq_nil_iff.mp hp)
  refine ⟨?_, Table.isEmpty_iff_getElem?.mp hrest, hv⟩
  rw [rejected_mergeJobVariables, hr, Std.ExtTreeMap.isEmpty_iff.mp hrest, Table.overlay_empty]

/-- Without exclusions and errors, a proposed variable is accepted as it is, or repeats the
template's own, unless it is a password that was sent back hidden. -/
theorem settled_of_errors {t : JobTemplate} {data : Vars} {k : String} {v : Value}
    (h : (mergeJobVariables t data ∅).errors.isEmpty) (hk : data[k]? = some v)
    (hh : ¬ ∃ q, t.questionOf? k = some q ∧ q.isPassword ∧ v = .text redacted) :
    t.settled data k = some v ∨ t.settled data k = none ∧ t.questionOf? k = none ∧
      ∃ own, t.options.extraVars[k]? = some own ∧ own.same v := by
  obtain ⟨-, hrest, hv⟩ := of_errors_mergeJobVariables (by simp) h
  cases hq : t.questionOf? k with
  | some q =>
    left
    have hs : q.settle data[k]? = some v := by
      rw [hk]
      refine Question.settle_of_ne fun hp => hh ⟨q, hq, hp.1, ?_⟩
      exact Option.some.inj hp.2
    simp only [JobTemplate.settled, hq]
    exact Question.answer_eq_some_iff.mpr ⟨hs, hv k q v hq hs⟩
  | none =>
    cases ha : t.ask.extraVars with
    | true => simp [JobTemplate.settled, hq, ha, hk]
    | false =>
      right
      have hr := hrest k
      rw [getElem?_leftover] at hr
      simp only [ha, hq, hk, Option.filter_some] at hr
      refine ⟨by simp [JobTemplate.settled, hq, ha], rfl, ?_⟩
      cases ho : t.options.extraVars[k]? with
      | none => simp [ho] at hr
      | some own => exact ⟨own, rfl, by simpa [ho] using hr⟩

section
variable {t : JobTemplate} {data data' : Vars} (h : ∀ k : String, data'[k]? = t.settled data k)
  (excluded excluded' : ErrorCategories)
include h

theorem accepted_mergeJobVariables_of_settled :
    (mergeJobVariables t data' excluded').accepted =
      (mergeJobVariables t data excluded).accepted := by
  refine Std.ExtTreeMap.ext_getElem? fun k => ?_
  rw [getElem?_accepted_mergeJobVariables, getElem?_accepted_mergeJobVariables]
  exact settled_of_settled (h k)

/-- Accepted variables are left over by nothing and refused by no question. -/
theorem rejected_mergeJobVariables_of_settled :
    (mergeJobVariables t data' excluded').rejected = ∅ := by
  refine Std.ExtTreeMap.ext_getElem? fun k => ?_
  have hrest : (t.leftover data' excluded')[k]? = none := by
    rw [getElem?_leftover]
    split
    · rfl
    · rename_i hk
      obtain ⟨ha, hq⟩ := not_or.mp hk
      have hn : t.questionOf? k = none := by simpa using hq
      have hs : t.settled data k = none := by simp [JobTemplate.settled, hn, ha]
      rw [h k, hs]
      rfl
  rw [rejected_mergeJobVariables, Table.getElem?_overlay, hrest, Option.none_or,
    SurveyIntake.getElem?_rejected_run, Std.ExtTreeMap.getElem?_empty]
  cases hq : t.questionOf? k with
  | none => rfl
  | some q =>
    have hs : t.settled data k = q.answer data[k]? := by rw [JobTemplate.settled, hq]
    rw [Option.bind_some, h k, hs, q.refusal_answer]

theorem surveyPasswords_mergeJobVariables_of_settled :
    (mergeJobVariables t data' excluded').surveyPasswords =
      (mergeJobVariables t data excluded).surveyPasswords := by
  refine surveyPasswords_mergeJobVariables_congr fun k q hq => ?_
  have hs : t.settled data k = q.answer data[k]? := by rw [JobTemplate.settled, hq]
  rw [h k, hs, q.answer_answer]

end

end JobLaunch
