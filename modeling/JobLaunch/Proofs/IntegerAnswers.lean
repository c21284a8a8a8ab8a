import JobLaunch.Proofs.NearestDoubles
import JobLaunch.Proofs.VariableMerge
/-!
Integer answers against the bounds of their question. Both are compared as doubles, so a bound holds
for the integers that satisfy it and for those on its other side that have the same double.
-/
namespace JobLaunch
open Decimal (Double)

namespace Question
variable {q : Question} {v : Value} {i : Int}

structure Within (q : Question) (i : Int) : Prop where
  min : ∀ b, q.min = some b → b.toInt ≤ i
  max : ∀ b, q.max = some b → i ≤ b.toInt

/-- Whether an integer and a bound are the same number as doubles. -/
def Blurs (i : Int) (b : Int64) : Prop := (Double.ofInt i).same (.ofInt b.toInt)

instance (i : Int) (b : Int64) : Decidable (Blurs i b) :=
  inferInstanceAs (Decidable ((Double.ofInt i).same (.ofInt b.toInt) = true))

structure NearlyWithin (q : Question) (i : Int) : Prop where
  min : ∀ b, q.min = some b → b.toInt ≤ i ∨ Blurs i b
  max : ∀ b, q.max = some b → i ≤ b.toInt ∨ Blurs i b

/-- Whether an integer misses a bound of the question that it is close to, both being too large for
doubles to tell apart. -/
def Oversteps (q : Question) (i : Int) : Prop :=
  ∃ b, (q.min = some b ∧ i < b.toInt ∨ q.max = some b ∧ b.toInt < i) ∧
    0x20000000000000 ≤ i.natAbs ∧ 0x20000000000000 ≤ b.toInt.natAbs ∧ (i - b.toInt).natAbs ≤ 1536

theorem Within.nearly (h : q.Within i) : q.NearlyWithin i where
  min b hb := .inl (h.min b hb)
  max b hb := .inl (h.max b hb)

theorem toInt_bounds (b : Int64) :
    -0x8000000000000000 ≤ b.toInt ∧ b.toInt < 0x8000000000000000 :=
  ⟨b.le_toInt, b.toInt_lt⟩

theorem Blurs.close {b : Int64} (h : Blurs i b)
    (hi : -0x8000000000000000 ≤ i ∧ i < 0x10000000000000000) (hne : i ≠ b.toInt) :
    0x20000000000000 ≤ i.natAbs ∧ 0x20000000000000 ≤ b.toInt.natAbs ∧
      (i - b.toInt).natAbs ≤ 1536 :=
  Double.close_of_same hi (toInt_bounds b) hne h

theorem NearlyWithin.within_or_oversteps (h : q.NearlyWithin i)
    (hi : -0x8000000000000000 ≤ i ∧ i < 0x10000000000000000) : q.Within i ∨ q.Oversteps i := by
  by_cases ho : q.Oversteps i
  · exact .inr ho
  · refine .inl ⟨fun b hb => ?_, fun b hb => ?_⟩
    · refine Int.not_lt.mp fun hlt => ho ⟨b, .inl ⟨hb, hlt⟩, ?_⟩
      rcases h.min b hb with hle | hblur
      · omega
      · exact hblur.close hi (by omega)
    · refine Int.not_lt.mp fun hlt => ho ⟨b, .inr ⟨hb, hlt⟩, ?_⟩
      rcases h.max b hb with hle | hblur
      · omega
      · exact hblur.close hi (by omega)

theorem outOfBounds_eq_nil {shown note : String} {below above : Int64 → Bool} :
    q.outOfBounds shown note below above = [] ↔
      (∀ b, q.min = some b → below b = false) ∧ (∀ b, q.max = some b → above b = false) := by
  simp [outOfBounds, Option.filter_eq_none_iff]

theorem valueProblems_integer (hk : q.kind = .integer) (hv : v.json = .int i)
    (hi : -0x8000000000000000 ≤ i ∧ i < 0x10000000000000000) :
    q.valueProblems v = [] ↔ q.NearlyWithin i := by
  have hp : q.valueProblems v = q.numberProblems (q.shown v) (.ofInt i) := by
    simp only [valueProblems, hk, hv]
  have hmin (b : Int64) : (Double.ofInt i).less (.ofInt b.toInt) = false ↔
      b.toInt ≤ i ∨ Blurs i b := by
    have hb := toInt_bounds b
    exact Double.less_ofInt_eq_false (by omega) (by omega)
  have hmax (b : Int64) : (Double.ofInt b.toInt).less (.ofInt i) = false ↔
      i ≤ b.toInt ∨ Blurs i b := by
    have hb := toInt_bounds b
    rw [Blurs, Double.same_comm]
    exact Double.less_ofInt_eq_false (by omega) (by omega)
  rw [hp, numberProblems, outOfBounds_eq_nil]
  simp only [hmin, hmax]
  exact ⟨fun h => ⟨h.1, h.2⟩, fun h => ⟨h.min, h.max⟩⟩

end Question

/-- An integer question finds nothing wrong with a 64-bit integer exactly when doubles show it within
the bounds, and then a merge accepts it as the answer. These are the integers within the bounds, and
else only some that miss a bound by at most 1536 where both are 2^53 or larger. -/
theorem integer_bounds_as_doubles (q : Question) (hk : q.kind = .integer) (v : Value) (i : Int)
    (hv : v.json = .int i) (hi : -0x8000000000000000 ≤ i ∧ i < 0x10000000000000000) :
    (∀ (data : Vars) (required : Bool), data[q.varName]? = some v →
      (q.problems data required = [] ↔ q.NearlyWithin i)) ∧
    (∀ (t : JobTemplate) (extraVars surveyAnswers : Vars) (excluded : ErrorCategories),
      t.questionOf? q.varName = some q →
      (extraVars.overlay surveyAnswers)[q.varName]? = some v →
      ((mergeVariables (.job t) extraVars surveyAnswers excluded).accepted[q.varName]? = some v ↔
        q.NearlyWithin i)) ∧
    (q.Within i → q.NearlyWithin i) ∧
    (q.NearlyWithin i → q.Within i ∨ q.Oversteps i) := by
  have hproblems : q.valueProblems v = [] ↔ q.NearlyWithin i :=
    Question.valueProblems_integer hk hv hi
  refine ⟨fun data required hd => ?_, fun t extraVars surveyAnswers excluded hq hd => ?_,
    Question.Within.nearly, fun h => h.within_or_oversteps hi⟩
  · rw [Question.problems_of_some hd]
    exact hproblems
  · have hsettle : q.settle (some v) = some v :=
      Question.settle_of_ne fun h => by simp [Question.isPassword, hk] at h
    change (mergeJobVariables t (extraVars.overlay surveyAnswers) excluded).accepted[q.varName]? =
      some v ↔ q.NearlyWithin i
    rw [getElem?_accepted_mergeJobVariables, JobTemplate.settled, hq, hd]
    exact Question.answer_eq_some_iff.trans ((and_iff_right hsettle).trans hproblems)

/-- A question with a bound that the numbers up to 1536 above it have the same double as. -/
def Question.sampleBounded : Question :=
  ⟨"Count", "count", .integer, true, none, none, some 9223372036854775296, []⟩

/-- The answer is 1536 more than the bound, and accepted. -/
theorem answer_above_bound :
    Question.sampleBounded.problems
      (Table.ofEntries [("count", .ofJson (.int 9223372036854776832))]) true = [] ∧
    ¬ Question.sampleBounded.Within 9223372036854776832 ∧
    Question.sampleBounded.Oversteps 9223372036854776832 := by
  have hnot : ¬ Question.sampleBounded.Within 9223372036854776832 := fun h =>
    absurd (h.max _ rfl) (by decide)
  have hnearly : Question.sampleBounded.NearlyWithin 9223372036854776832 := by
    constructor
    · intro b hb
      cases hb
    · rintro b ⟨⟩
      exact .inr (by decide)
  obtain ⟨hproblems, -, -, hsteps⟩ := integer_bounds_as_doubles .sampleBounded rfl
    (.ofJson (.int 9223372036854776832)) 9223372036854776832 rfl (by decide)
  exact ⟨(hproblems _ true (by decide)).mpr hnearly, hnot, (hsteps hnearly).resolve_left hnot⟩

end JobLaunch
