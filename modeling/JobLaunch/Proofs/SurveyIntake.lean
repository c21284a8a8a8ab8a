import JobLaunch.Variables
/-!
What a survey makes of the proposed variables, name by name: the first question bound to a name
decides about it, and variables that no question is bound to stay as they are.
-/
namespace JobLaunch

namespace Question

/-- What the question takes a proposed value for: a password that was sent back hidden stands for
the default. -/
def settle (q : Question) (v : Option Value) : Option Value :=
  if q.isPassword ∧ v = some (.text redacted) then q.effectiveDefault else v

/-- The answer that the question accepts, if any. It does not depend on whether answers are
required. -/
def answer (q : Question) (v : Option Value) : Option Value :=
  (q.settle v).filter fun v => (q.valueProblems v).isEmpty

/-- The value that the question finds something wrong with, if any. -/
def refusal (q : Question) (v : Option Value) : Option Value :=
  (q.settle v).filter fun v => !(q.valueProblems v).isEmpty

theorem settle_of_ne {q : Question} {v : Option Value}
    (h : ¬ (q.isPassword ∧ v = some (.text redacted))) : q.settle v = v :=
  if_neg h

@[simp] theorem settle_none (q : Question) : q.settle none = none := by
  simp [settle]

@[simp] theorem answer_none (q : Question) : q.answer none = none := by
  simp [answer]

@[simp] theorem refusal_none (q : Question) : q.refusal none = none := by
  simp [refusal]

/-- A default that is itself the marker stands for itself. -/
theorem settle_settle (q : Question) (v : Option Value) : q.settle (q.settle v) = q.settle v := by
  by_cases h : q.isPassword ∧ v = some (.text redacted)
  · have hs : q.settle v = q.effectiveDefault := if_pos h
    rw [hs]
    by_cases hd : q.effectiveDefault = some (.text redacted)
    · rw [hd]
      exact (if_pos ⟨h.1, rfl⟩).trans hd
    · exact settle_of_ne fun hq => hd hq.2
  · rw [settle_of_ne h, settle_of_ne h]

theorem answer_eq_some_iff {q : Question} {v : Option Value} {w : Value} :
    q.answer v = some w ↔ q.settle v = some w ∧ q.valueProblems w = [] := by
  simp [answer, Option.filter_eq_some_iff]

theorem answer_answer (q : Question) (v : Option Value) : q.answer (q.answer v) = q.answer v := by
  cases h : q.answer v with
  | none => exact q.answer_none
  | some w =>
    obtain ⟨hw, hp⟩ := answer_eq_some_iff.mp h
    have hs := q.settle_settle v
    rw [hw] at hs
    exact answer_eq_some_iff.mpr ⟨hs, hp⟩

/-- What a question accepts, it does not refuse. -/
theorem refusal_answer (q : Question) (v : Option Value) : q.refusal (q.answer v) = none := by
  cases h : q.answer v with
  | none => exact q.refusal_none
  | some w =>
    obtain ⟨hw, hp⟩ := answer_eq_some_iff.mp h
    have hs := q.settle_settle v
    rw [hw] at hs
    simp [refusal, hs, hp, Option.filter_some]

theorem getElem?_restorePassword (q : Question) (data : Vars) (k : String) :
    (q.restorePassword data)[k]? = if k = q.varName then q.settle data[k]? else data[k]? := by
  by_cases hk : k = q.varName
  · subst hk
    rw [if_pos rfl]
    unfold restorePassword settle
    split
    · cases q.effectiveDefault <;> simp
    · rfl
  · rw [if_neg hk]
    unfold restorePassword
    split
    · cases q.effectiveDefault <;>
        simp [Std.ExtTreeMap.getElem?_insert, Std.ExtTreeMap.getElem?_erase, Ne.symm hk]
    · rfl

/-- A question with a value to judge has that value's problems only. -/
theorem problems_of_some {q : Question} {data : Vars} {v : Value} (h : data[q.varName]? = some v)
    (b : Bool) : q.problems data b = q.valueProblems v := by
  simp [problems, h]

theorem problems_congr {q : Question} {data data' : Vars}
    (h : data[q.varName]? = data'[q.varName]?) (b : Bool) :
    q.problems data b = q.problems data' b := by
  simp only [problems, h]

/-- A message about a password shows its length only. -/
theorem valueProblems_of_isPassword {q : Question} (hp : q.isPassword) {x y : String}
    (h : x.length = y.length) : q.valueProblems (.text x) = q.valueProblems (.text y) := by
  have hk : q.kind = .password := by simpa [isPassword] using hp
  simp only [valueProblems, hk, shown, hp, if_true, Value.text, textProblems, h]

end Question

def binding? (questions : List Question) (name : String) : Option Question :=
  questions.find? fun q => q.varName == name

/-- The question that decides about a name: the first one of an active survey. -/
def JobTemplate.questionOf? (t : JobTemplate) (name : String) : Option Question :=
  binding? t.activeQuestions name

theorem binding?_cons_of_eq {q : Question} {name : String} (h : q.varName = name)
    (qs : List Question) : binding? (q :: qs) name = some q := by
  simp [binding?, h]

theorem binding?_cons_of_ne {q : Question} {name : String} (h : q.varName ≠ name)
    (qs : List Question) : binding? (q :: qs) name = binding? qs name := by
  simp [binding?, h]

theorem variable_of_binding? {qs : List Question} {name : String} {q : Question}
    (h : binding? qs name = some q) : q.varName = name := by
  simpa using List.find?_some h

namespace SurveyIntake
variable {b : Bool}

theorem getElem?_remaining_ask (s : SurveyIntake) (q : Question) (k : String) :
    (s.ask b q).remaining[k]? = if q.varName = k then none else s.remaining[k]? := by
  simp only [ask, Std.ExtTreeMap.getElem?_erase, Std.compare_eq_iff_eq,
    Question.getElem?_restorePassword]
  grind

/-- An answer goes where the question's verdict on it says, and leaves the rest alone. -/
theorem accepted_and_rejected_ask (s : SurveyIntake) (q : Question) :
    (s.ask b q).accepted = (match q.answer s.remaining[q.varName]? with
      | some v => s.accepted.insert q.varName v
      | none => s.accepted) ∧
    (s.ask b q).rejected = match q.refusal s.remaining[q.varName]? with
      | some v => s.rejected.insert q.varName v
      | none => s.rejected := by
  have hv := q.getElem?_restorePassword s.remaining q.varName
  rw [if_pos rfl] at hv
  simp only [ask, hv]
  cases hs : q.settle s.remaining[q.varName]? with
  | none => simp [Question.answer, Question.refusal, hs]
  | some v =>
    rw [Question.problems_of_some (hv.trans hs)]
    by_cases hp : (q.valueProblems v).isEmpty
    · simp [Question.answer, Question.refusal, hs, Option.filter_some, hp]
    · simp [Question.answer, Question.refusal, hs, Option.filter_some, hp]

private theorem getElem?_taken (vars : Vars) (name : String) (taken : Option Value) (k : String) :
    (match taken with
      | some v => vars.insert name v
      | none => vars)[k]? = if name = k then taken.or vars[k]? else vars[k]? := by
  by_cases hk : name = k
  · subst hk
    cases taken <;> simp
  · cases taken <;> simp [Std.ExtTreeMap.getElem?_insert, hk]

theorem getElem?_accepted_ask (s : SurveyIntake) (q : Question) (k : String) :
    (s.ask b q).accepted[k]? =
      if q.varName = k then (q.answer s.remaining[k]?).or s.accepted[k]? else s.accepted[k]? := by
  rw [(accepted_and_rejected_ask s q).1, getElem?_taken]
  by_cases hk : q.varName = k
  · rw [if_pos hk, if_pos hk, hk]
  · rw [if_neg hk, if_neg hk]

theorem getElem?_rejected_ask (s : SurveyIntake) (q : Question) (k : String) :
    (s.ask b q).rejected[k]? =
      if q.varName = k then (q.refusal s.remaining[k]?).or s.rejected[k]? else s.rejected[k]? := by
  rw [(accepted_and_rejected_ask s q).2, getElem?_taken]
  by_cases hk : q.varName = k
  · rw [if_pos hk, if_pos hk, hk]
  · rw [if_neg hk, if_neg hk]

/-- Where a question finds nothing wrong, nothing is rejected and a value of its name is valid. -/
theorem of_problems_ask_eq_nil {s : SurveyIntake} {q : Question} (h : (s.ask b q).problems = []) :
    s.problems = [] ∧ (s.ask b q).rejected = s.rejected ∧
      ∀ v, q.settle s.remaining[q.varName]? = some v → q.valueProblems v = [] := by
  obtain ⟨hs, hq⟩ := List.append_eq_nil_iff.mp h
  refine ⟨hs, by simp [ask, hq], fun v hv => ?_⟩
  rw [← Question.problems_of_some _ b]
  · exact hq
  · rw [Question.getElem?_restorePassword, if_pos rfl, hv]

theorem getElem?_remaining_foldl (qs : List Question) (s : SurveyIntake) (k : String) :
    (qs.foldl (ask b) s).remaining[k]? =
      if (binding? qs k).isSome then none else s.remaining[k]? := by
  induction qs generalizing s with
  | nil => simp [binding?]
  | cons q qs ih =>
    rw [List.foldl_cons, ih, getElem?_remaining_ask]
    by_cases hk : q.varName = k
    · simp [hk, binding?_cons_of_eq]
    · simp [hk, binding?_cons_of_ne]

/-- Where one question adds its verdict on a value to a part of the intake, all questions add that of
the first one bound to the name: later ones find the value gone. -/
theorem getElem?_foldl_of_ask {part : SurveyIntake → Vars}
    {verdict : Question → Option Value → Option Value} (hn : ∀ q, verdict q none = none)
    (h : ∀ s q k, (part (ask b s q))[k]? =
      if q.varName = k then (verdict q s.remaining[k]?).or (part s)[k]? else (part s)[k]?)
    (qs : List Question) (s : SurveyIntake) (k : String) :
    (part (qs.foldl (ask b) s))[k]? =
      ((binding? qs k).bind fun q => verdict q s.remaining[k]?).or (part s)[k]? := by
  induction qs generalizing s with
  | nil => simp [binding?]
  | cons q qs ih =>
    rw [List.foldl_cons, ih, getElem?_remaining_ask, h]
    by_cases hk : q.varName = k
    · simp [hk, hn, binding?_cons_of_eq]
    · simp [hk, binding?_cons_of_ne]

theorem of_problems_foldl_eq_nil {qs : List Question} {s : SurveyIntake}
    (h : (qs.foldl (ask b) s).problems = []) :
    s.problems = [] ∧ (qs.foldl (ask b) s).rejected = s.rejected ∧
      ∀ k q v, binding? qs k = some q → q.settle s.remaining[k]? = some v →
        q.valueProblems v = [] := by
  induction qs generalizing s with
  | nil => exact ⟨h, rfl, fun k q v hq => by simp [binding?] at hq⟩
  | cons q qs ih =>
    rw [List.foldl_cons] at h ⊢
    obtain ⟨ha, hr, hv⟩ := ih h
    obtain ⟨hs, hr', hv'⟩ := of_problems_ask_eq_nil ha
    refine ⟨hs, hr.trans hr', fun k p v hp hset => ?_⟩
    by_cases hk : q.varName = k
    · subst hk
      rw [binding?_cons_of_eq rfl, Option.some.injEq] at hp
      subst hp
      exact hv' v hset
    · rw [binding?_cons_of_ne hk] at hp
      refine hv k p v hp ?_
      rwa [getElem?_remaining_ask, if_neg hk]

/-- Two runs find the same problems when every question that decides about a name does. -/
theorem problems_foldl_congr {qs : List Question} {s s' : SurveyIntake}
    (hp : s.problems = s'.problems)
    (h : ∀ k q, binding? qs k = some q → q.problems (q.restorePassword s.remaining) b =
      q.problems (q.restorePassword s'.remaining) b) :
    (qs.foldl (ask b) s).problems = (qs.foldl (ask b) s').problems := by
  induction qs generalizing s s' with
  | nil => exact hp
  | cons q qs ih =>
    rw [List.foldl_cons, List.foldl_cons]
    apply ih
    · change s.problems ++ _ = s'.problems ++ _
      rw [hp, h q.varName q (binding?_cons_of_eq rfl qs)]
    · intro k p hk
      have hv : p.varName = k := variable_of_binding? hk
      have hrest (s : SurveyIntake) : ((s.ask b q).remaining)[p.varName]? =
          if q.varName = k then none else s.remaining[p.varName]? := by
        rw [getElem?_remaining_ask, hv]
      by_cases hq : q.varName = k
      · apply Question.problems_congr
        rw [Question.getElem?_restorePassword, Question.getElem?_restorePassword, hrest, hrest,
          if_pos hq, if_pos hq]
      · -- the first question leaves the value that the later one judges
        have hsame (s : SurveyIntake) : p.problems (p.restorePassword (s.ask b q).remaining) b =
            p.problems (p.restorePassword s.remaining) b := by
          apply Question.problems_congr
          rw [Question.getElem?_restorePassword, Question.getElem?_restorePassword, hrest,
            if_neg hq]
        rw [hsame, hsame]
        exact h k p (by rw [binding?_cons_of_ne hq, hk])

theorem getElem?_remaining_run (t : JobTemplate) (data : Vars) (k : String) :
    (run t b data).remaining[k]? = if (t.questionOf? k).isSome then none else data[k]? :=
  getElem?_remaining_foldl _ _ k

theorem getElem?_accepted_run (t : JobTemplate) (data : Vars) (k : String) :
    (run t b data).accepted[k]? = (t.questionOf? k).bind fun q => q.answer data[k]? := by
  have h := getElem?_foldl_of_ask Question.answer_none (getElem?_accepted_ask (b := b))
    t.activeQuestions { remaining := data } k
  simpa [run, JobTemplate.questionOf?] using h

theorem getElem?_rejected_run (t : JobTemplate) (data : Vars) (k : String) :
    (run t b data).rejected[k]? = (t.questionOf? k).bind fun q => q.refusal data[k]? := by
  have h := getElem?_foldl_of_ask Question.refusal_none (getElem?_rejected_ask (b := b))
    t.activeQuestions { remaining := data } k
  simpa [run, JobTemplate.questionOf?] using h

theorem problems_run_congr {t : JobTemplate} {data data' : Vars}
    (h : ∀ k q, t.questionOf? k = some q →
      q.problems (q.restorePassword data) b = q.problems (q.restorePassword data') b) :
    (run t b data).problems = (run t b data').problems :=
  problems_foldl_congr rfl h

/-- A run without problems rejects nothing and answers every question with a valid value. -/
theorem of_problems_run_eq_nil {t : JobTemplate} {data : Vars} (h : (run t b data).problems = []) :
    (run t b data).rejected = ∅ ∧
      ∀ k q v, t.questionOf? k = some q → q.settle data[k]? = some v → q.valueProblems v = [] :=
  (of_problems_foldl_eq_nil h).2

end SurveyIntake
end JobLaunch
