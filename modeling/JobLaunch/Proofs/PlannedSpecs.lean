import JobLaunch.Planning
/-!
The jobs of a plan. They differ in their slice only, and which slices there are depends on the
request and on how many slices the accepted overrides allow.
-/
namespace JobLaunch

theorem Table.getElem?_insertIfNew {α : Type} (t : Table α) (name : String) (v : α) (k : String) :
    (t.insertIfNew name v)[k]? = t[k]?.or (if name = k then some v else none) := by
  rw [Std.ExtTreeMap.getElem?_insertIfNew]
  by_cases hk : name = k
  · subst hk
    cases h : t[name]? with
    | none => simp [Std.ExtTreeMap.mem_iff_isSome_getElem?, h]
    | some w => simp [Std.ExtTreeMap.mem_iff_isSome_getElem?, h]
  · simp [hk]

namespace JobTemplate
variable {t : JobTemplate} {res : Resolution} {r : LaunchRequest}

def workflowSpec (t : JobTemplate) (res : Resolution) (r : LaunchRequest) : WorkflowSpec where
  templateId := t.id
  name := t.name
  launchType := r.launchType
  sliceCount := t.effectiveSliceCount res.accepted
  inventory := (t.jobSpec res r).inventory
  extraVars := (t.jobSpec res r).options.extraVars

/-- A launch is kept from slicing, has slices for one job only, or becomes a workflow of slices. -/
theorem plan_cases (t : JobTemplate) (res : Resolution) (r : LaunchRequest) :
    (r.preventSlicing ∧
      t.plan res r = .single { t.jobSpec res r with slice := r.pinnedSlice.getD .whole }) ∨
    (r.preventSlicing = false ∧ (t.effectiveSliceCount res.accepted).toNat ≤ 1 ∧
      t.plan res r = .single (t.jobSpec res r)) ∨
    (r.preventSlicing = false ∧ 2 ≤ (t.effectiveSliceCount res.accepted).toNat ∧
      t.plan res r = .sliced (t.workflowSpec res r)
        ((Slice.parts (t.effectiveSliceCount res.accepted)).map fun slice =>
          { t.jobSpec res r with slice })) := by
  cases hp : r.preventSlicing with
  | true =>
    left
    refine ⟨rfl, ?_⟩
    rw [plan, if_pos hp]
  | false =>
    right
    have hn : ¬ r.preventSlicing = true := by simp [hp]
    by_cases hc : t.effectiveSliceCount res.accepted ≤ 1
    · left
      refine ⟨rfl, UInt32.le_iff_toNat_le.mp hc, ?_⟩
      rw [plan, if_neg hn, if_pos hc]
    · right
      rw [UInt32.le_iff_toNat_le] at hc
      refine ⟨rfl, Nat.lt_of_not_le hc, ?_⟩
      rw [plan, if_neg hn, if_neg (mt UInt32.le_iff_toNat_le.mp hc)]
      rfl

def slices (t : JobTemplate) (o : Overrides) (r : LaunchRequest) : List Slice :=
  if r.preventSlicing then [r.pinnedSlice.getD .whole]
  else if t.effectiveSliceCount o ≤ 1 then [.whole]
  else Slice.parts (t.effectiveSliceCount o)

/-- The jobs of a plan are one job, up to its slice. -/
theorem jobSpecs_plan (t : JobTemplate) (res : Resolution) (r : LaunchRequest) :
    (t.plan res r).jobSpecs = (t.slices res.accepted r).map fun slice =>
      { t.jobSpec res r with slice } := by
  rcases t.plan_cases res r with ⟨hp, h⟩ | ⟨hp, hle, h⟩ | ⟨hp, h2, h⟩
  · rw [h, slices, if_pos hp]
    rfl
  · rw [h, slices, if_neg (by simp [hp]), if_pos (UInt32.le_iff_toNat_le.mpr hle)]
    rfl
  · have hc : ¬ t.effectiveSliceCount res.accepted ≤ 1 :=
      mt UInt32.le_iff_toNat_le.mp (Nat.not_le_of_lt h2)
    rw [h, slices, if_neg (by simp [hp]), if_neg hc]
    rfl

theorem slices_ne_nil (t : JobTemplate) (o : Overrides) (r : LaunchRequest) :
    t.slices o r ≠ [] := by
  unfold slices
  split
  · exact List.cons_ne_nil _ _
  · split
    · exact List.cons_ne_nil _ _
    · rename_i hc
      intro hn
      rw [Slice.parts, List.map_eq_nil_iff, List.range_eq_nil] at hn
      exact hc (UInt32.le_iff_toNat_le.mpr (by rw [hn]; exact Nat.zero_le _))

theorem jobSpecs_plan_ne_nil (t : JobTemplate) (res : Resolution) (r : LaunchRequest) :
    (t.plan res r).jobSpecs ≠ [] := by
  rw [jobSpecs_plan, Ne, List.map_eq_nil_iff]
  exact t.slices_ne_nil res.accepted r

theorem of_mem_jobSpecs_plan {spec : JobSpec} (h : spec ∈ (t.plan res r).jobSpecs) :
    spec.slice ∈ t.slices res.accepted r ∧ spec = { t.jobSpec res r with slice := spec.slice } := by
  rw [jobSpecs_plan] at h
  obtain ⟨slice, hs, rfl⟩ := List.mem_map.mp h
  exact ⟨hs, rfl⟩

/-- The default that the survey has for a name: the first one of the questions bound to it. -/
def defaultFor (t : JobTemplate) (name : String) : Option Value :=
  t.activeQuestions.findSome? fun q => if q.varName = name then q.effectiveDefault else none

/-- Defaults answer only what is not answered. -/
theorem getElem?_withSurveyDefaults (t : JobTemplate) (vars : Vars) (k : String) :
    (t.withSurveyDefaults vars)[k]? = vars[k]?.or (t.defaultFor k) := by
  unfold withSurveyDefaults defaultFor
  induction t.activeQuestions generalizing vars with
  | nil => simp
  | cons q qs ih =>
    rw [List.foldl_cons, ih, List.findSome?_cons]
    cases q.effectiveDefault with
    | none => simp
    | some v =>
      simp only [Table.getElem?_insertIfNew]
      by_cases hk : q.varName = k
      · simp [hk]
      · simp [hk]

/-- A variable of the job is accepted, or the template's own, or a default. -/
theorem getElem?_jobSpec (t : JobTemplate) (res : Resolution) (r : LaunchRequest) (k : String) :
    (t.jobSpec res r).options.extraVars[k]? =
      ((res.accepted.extraVars.getD ∅)[k]?.or t.options.extraVars[k]?).or (t.defaultFor k) := by
  rw [← Table.getElem?_overlay]
  exact t.getElem?_withSurveyDefaults _ k

theorem getElem?_jobSpec_of_accepted {k : String} {v : Value}
    (h : (res.accepted.extraVars.getD ∅)[k]? = some v) :
    (t.jobSpec res r).options.extraVars[k]? = some v := by
  rw [getElem?_jobSpec, h, Option.some_or, Option.some_or]

theorem getElem?_jobSpec_of_own {k : String} {v : Value}
    (h : (res.accepted.extraVars.getD ∅)[k]? = none) (ho : t.options.extraVars[k]? = some v) :
    (t.jobSpec res r).options.extraVars[k]? = some v := by
  rw [getElem?_jobSpec, h, ho, Option.none_or, Option.some_or]

end JobTemplate
end JobLaunch
