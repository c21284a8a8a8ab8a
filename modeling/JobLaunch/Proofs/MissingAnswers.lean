import JobLaunch.Proofs.SurveyIntake
/-!
Messages about missing answers. Every other message of a survey ends in a full stop, so none reads
like one of them, and a survey that does not insist on answers gives the same messages without them.
-/
namespace JobLaunch

def missingValue (name : String) : String := "'" ++ name ++ "' value missing"

/-- Whether a message says that some variable has no value. -/
def ReportsMissing (message : String) : Prop := ∃ name, message = missingValue name

theorem toList_missingValue (name : String) :
    (missingValue name).toList = '\'' :: (name.toList ++ "' value missing".toList) := by
  simp [missingValue, String.toList_append]

/-- The name is what stands between a quotation mark and the last 15 characters. -/
instance : DecidablePred ReportsMissing := fun message =>
  decidable_of_iff
    (message = missingValue (.ofList ((message.toList.drop 1).take (message.length - 16)))) <| by
    constructor
    · exact fun h => ⟨_, h⟩
    · rintro ⟨name, rfl⟩
      have hl : (missingValue name).length = name.toList.length + 16 := by
        rw [← String.length_toList, toList_missingValue]
        simp
      rw [hl, toList_missingValue]
      simp

theorem not_reportsMissing_of_stop {message : String} (h : message.toList.getLast? = some '.') :
    ¬ ReportsMissing message := by
  rintro ⟨name, rfl⟩
  rw [missingValue, String.toList_append, List.getLast?_append] at h
  cases h

private theorem getLast?_append_stop (s ending : String) (h : ending.toList.getLast? = some '.') :
    (s ++ ending).toList.getLast? = some '.' := by
  rw [String.toList_append, List.getLast?_append, h]
  rfl

namespace Question
variable {q : Question} {message : String}

theorem getLast?_unexpected (q : Question) (shown expected : String) :
    (q.unexpected shown expected).toList.getLast? = some '.' :=
  getLast?_append_stop _ "." rfl

theorem getLast?_outOfBounds {shown note : String} {below above : Int64 → Bool}
    (h : message ∈ q.outOfBounds shown note below above) :
    message.toList.getLast? = some '.' := by
  rw [outOfBounds, List.mem_append, Option.mem_toList, Option.mem_toList] at h
  rcases h with h | h
  · obtain ⟨_, -, rfl⟩ := Option.map_eq_some_iff.mp h
    exact getLast?_append_stop _ ")." rfl
  · obtain ⟨_, -, rfl⟩ := Option.map_eq_some_iff.mp h
    exact getLast?_append_stop _ ")." rfl

theorem getLast?_textProblems {shown : String} {j : Json} (h : message ∈ q.textProblems shown j) :
    message.toList.getLast? = some '.' := by
  cases j with
  | string s => exact getLast?_outOfBounds h
  | _ =>
    obtain rfl := List.mem_singleton.mp h
    exact q.getLast?_unexpected _ _

theorem getLast?_choiceProblems {shown : String} {j : Json}
    (h : message ∈ q.choiceProblems shown j) : message.toList.getLast? = some '.' := by
  unfold choiceProblems at h
  split at h
  · cases h
  · obtain rfl := List.mem_singleton.mp h
    exact q.getLast?_unexpected _ _

theorem getLast?_valueProblems {v : Value} (h : message ∈ q.valueProblems v) :
    message.toList.getLast? = some '.' := by
  unfold valueProblems at h
  split at h
  · exact getLast?_textProblems h
  · exact getLast?_textProblems h
  · exact getLast?_textProblems h
  · exact getLast?_outOfBounds h
  · exact getLast?_outOfBounds h
  · exact getLast?_outOfBounds h
  · obtain rfl := List.mem_singleton.mp h
    exact q.getLast?_unexpected _ _
  · obtain rfl := List.mem_singleton.mp h
    exact q.getLast?_unexpected _ _
  · exact getLast?_choiceProblems h
  · obtain ⟨_, -, hm⟩ := List.mem_flatMap.mp h
    exact getLast?_choiceProblems hm
  · obtain rfl := List.mem_singleton.mp h
    exact getLast?_append_stop _ "' value is expected to be a list." rfl

/-- A question that does not insist on an answer finds everything else wrong that it finds wrong
anyway. -/
theorem problems_false (q : Question) (data : Vars) :
    q.problems data false = (q.problems data true).filter fun s => ¬ ReportsMissing s := by
  cases h : data[q.varName]? with
  | none =>
    have hm : ReportsMissing s!"'{q.varName}' value missing" := ⟨q.varName, rfl⟩
    have hf : q.problems data false = [] := by simp [problems, h]
    rw [hf]
    refine (List.filter_eq_nil_iff.mpr fun s hs => ?_).symm
    simp only [problems, h] at hs
    split at hs
    · rw [List.mem_singleton.mp hs]
      simpa using hm
    · cases hs
  | some v =>
    rw [problems_of_some h, problems_of_some h]
    refine (List.filter_eq_self.mpr fun s hs => ?_).symm
    simpa using not_reportsMissing_of_stop (getLast?_valueProblems hs)

end Question

namespace SurveyIntake

theorem problems_foldl_false {qs : List Question} {s s' : SurveyIntake}
    (hr : s'.remaining = s.remaining)
    (hp : s'.problems = s.problems.filter fun p => ¬ ReportsMissing p) :
    (qs.foldl (ask false) s').problems =
      (qs.foldl (ask true) s).problems.filter fun p => ¬ ReportsMissing p := by
  induction qs generalizing s s' with
  | nil => exact hp
  | cons q qs ih =>
    rw [List.foldl_cons, List.foldl_cons]
    apply ih
    · simp only [ask, hr]
    · simp only [ask, hr, hp, List.filter_append, q.problems_false]

variable (t : JobTemplate) (data : Vars) (b b' : Bool)

/-- What a survey makes of the values does not depend on whether it insists on answers. -/
theorem remaining_run_eq : (run t b data).remaining = (run t b' data).remaining := by
  refine Std.ExtTreeMap.ext_getElem? fun k => ?_
  rw [getElem?_remaining_run, getElem?_remaining_run]

theorem rejected_run_eq : (run t b data).rejected = (run t b' data).rejected := by
  refine Std.ExtTreeMap.ext_getElem? fun k => ?_
  rw [getElem?_rejected_run, getElem?_rejected_run]

theorem problems_run_false : (run t false data).problems =
    (run t true data).problems.filter fun p => ¬ ReportsMissing p :=
  problems_foldl_false rfl rfl

end SurveyIntake
end JobLaunch
