import JobLaunch.Proofs.VariableMerge
/-!
Merging neither loses nor invents variables. Every proposed variable is accepted or rejected, but not
both, with its own value or with the default that a hidden password stands for. What is dropped
without a word repeats the template's own value, or hides a password that has no default.
-/
namespace JobLaunch

/-- The value that is recorded for a name: the proposed one, or the default of the question that
decides about the name where a password was sent back hidden. -/
def JobTemplate.recorded (t : JobTemplate) (data : Vars) (name : String) : Option Value :=
  match t.questionOf? name with
  | some q => q.settle data[name]?
  | none => data[name]?

inductive JobTemplate.Drops (t : JobTemplate) (data : Vars) (name : String) : Prop where
  | repeated {v own : Value} (unbound : t.questionOf? name = none) (unprompted : ¬ t.ask.extraVars)
    (proposed : data[name]? = some v) (kept : t.options.extraVars[name]? = some own)
    (same : own.same v)
  | hidden {q : Question} (bound : t.questionOf? name = some q) (password : q.isPassword)
    (unset : q.effectiveDefault = none) (proposed : data[name]? = some (.text redacted))

def Template.recorded (t : Template) (data : Vars) (name : String) : Option Value :=
  match t with
  | .job t => t.recorded data name
  | .system _ => data[name]?

def Template.Drops (t : Template) (data : Vars) (name : String) : Prop :=
  match t with
  | .job t => t.Drops data name
  | .system _ => False

namespace VariableMerge
variable {m : VariableMerge} {k : String} {v : Option Value}

/-- Whether a name has a given value, if any, on one side of a merge and none on the other. -/
def Files (m : VariableMerge) (name : String) (v : Option Value) : Prop :=
  m.accepted[name]? = v ∧ m.rejected[name]? = none ∨
    m.accepted[name]? = none ∧ m.rejected[name]? = v

theorem Files.mem_iff (h : m.Files k v) : k ∈ m.accepted ∨ k ∈ m.rejected ↔ v.isSome := by
  rw [Std.ExtTreeMap.mem_iff_isSome_getElem?, Std.ExtTreeMap.mem_iff_isSome_getElem?]
  rcases h with ⟨ha, hr⟩ | ⟨ha, hr⟩ <;> simp [ha, hr]

theorem Files.not_mem (h : m.Files k v) (hk : k ∈ m.accepted) : k ∉ m.rejected := by
  rw [Std.ExtTreeMap.mem_iff_isSome_getElem?] at hk ⊢
  rcases h with ⟨-, hr⟩ | ⟨ha, -⟩
  · simp [hr]
  · simp [ha] at hk

theorem Files.eq_some (h : m.Files k v) {w : Value}
    (hw : m.accepted[k]? = some w ∨ m.rejected[k]? = some w) : v = some w := by
  rcases h with ⟨ha, hr⟩ | ⟨ha, hr⟩ <;> simpa [ha, hr] using hw

end VariableMerge

/-- A question either accepts or refuses what it takes a value for. -/
theorem Question.answer_or_refusal (q : Question) (v : Option Value) :
    q.answer v = q.settle v ∧ q.refusal v = none ∨
      q.answer v = none ∧ q.refusal v = q.settle v := by
  unfold answer refusal
  cases q.settle v with
  | none => simp
  | some w => by_cases h : q.valueProblems w = [] <;> simp [Option.filter_some, h]

section
variable {t : JobTemplate} {data : Vars} {excluded : ErrorCategories} {k : String}

theorem getElem?_rejected_mergeJobVariables :
    (mergeJobVariables t data excluded).rejected[k]? = match t.questionOf? k with
      | some q => q.refusal data[k]?
      | none => if t.ask.extraVars then none
        else data[k]?.filter fun v => !(t.options.extraVars[k]?).any fun own => own.same v := by
  rw [rejected_mergeJobVariables, Table.getElem?_overlay, getElem?_leftover,
    SurveyIntake.getElem?_rejected_run]
  cases t.questionOf? k <;> simp

theorem files_mergeJobVariables (h : ¬ t.Drops data k) :
    (mergeJobVariables t data excluded).Files k (t.recorded data k) := by
  rw [VariableMerge.Files, getElem?_accepted_mergeJobVariables, getElem?_rejected_mergeJobVariables,
    JobTemplate.settled, JobTemplate.recorded]
  cases hq : t.questionOf? k with
  | some q => exact q.answer_or_refusal data[k]?
  | none =>
    by_cases ha : t.ask.extraVars
    · exact .inl ⟨if_pos ha, if_pos ha⟩
    · refine .inr ⟨if_neg ha, (if_neg ha).trans ?_⟩
      cases hv : data[k]? with
      | none => rfl
      | some v =>
        cases ho : t.options.extraVars[k]? with
        | none => simp [Option.filter_some]
        | some own =>
          have hs : ¬ own.same v := fun hs => h (.repeated hq ha hv ho hs)
          simp [Option.filter_some, hs]

theorem files_mergeJobVariables_of_drops (h : t.Drops data k) :
    (mergeJobVariables t data excluded).Files k none := by
  refine .inl ⟨?_, ?_⟩
  · rw [getElem?_accepted_mergeJobVariables, JobTemplate.settled]
    cases h with
    | repeated hq ha => simp [hq, ha]
    | hidden hq hp hd hv => simp [hq, Question.answer, Question.settle, hp, hd, hv]
  · rw [getElem?_rejected_mergeJobVariables]
    cases h with
    | repeated hq ha hv ho hs => simp [hq, ha, hv, ho, hs, Option.filter_some]
    | hidden hq hp hd hv => simp [hq, Question.refusal, Question.settle, hp, hd, hv]

/-- A proposed variable has a value to record unless it is dropped. -/
theorem JobTemplate.isSome_recorded (h : ¬ t.Drops data k) :
    (t.recorded data k).isSome ↔ data[k]?.isSome := by
  rw [JobTemplate.recorded]
  cases hq : t.questionOf? k with
  | none => rfl
  | some q =>
    by_cases hm : q.isPassword ∧ data[k]? = some (.text redacted)
    · have hd : q.effectiveDefault ≠ none := fun hd => h (.hidden hq hm.1 hd hm.2)
      simp [Question.settle, hm, Option.isSome_iff_ne_none, hd]
    · simp only [q.settle_of_ne hm]

end

def SystemJobTemplate.takes (t : SystemJobTemplate) (data : Vars) (name : String) : Bool :=
  systemVariables.contains name &&
    !(t.jobType.takesDays && (data["days"]?).any (fun v => (retentionDays? v).isNone) &&
      name == "days")

section
variable {t : SystemJobTemplate} {data : Vars} {k : String}

theorem getElem?_accepted_mergeSystemVariables :
    (mergeSystemVariables t data).accepted[k]? = if t.takes data k then data[k]? else none :=
  Table.getElem?_filter_names data (t.takes data) k

theorem getElem?_rejected_mergeSystemVariables :
    (mergeSystemVariables t data).rejected[k]? = if t.takes data k then none else data[k]? := by
  refine (Table.getElem?_filter_names data (fun name => !t.takes data name) k).trans ?_
  cases t.takes data k <;> rfl

theorem files_mergeSystemVariables : (mergeSystemVariables t data).Files k data[k]? := by
  rw [VariableMerge.Files, getElem?_accepted_mergeSystemVariables,
    getElem?_rejected_mergeSystemVariables]
  cases t.takes data k <;> simp

theorem overlay_mergeSystemVariables :
    (mergeSystemVariables t data).accepted.overlay (mergeSystemVariables t data).rejected =
      data := by
  refine Std.ExtTreeMap.ext_getElem? fun k => ?_
  rw [Table.getElem?_overlay]
  have hfiles : (mergeSystemVariables t data).Files k data[k]? := files_mergeSystemVariables
  rcases hfiles with ⟨ha, hr⟩ | ⟨ha, hr⟩
  · rw [ha, hr, Option.none_or]
  · rw [ha, hr, Option.or_none]

/-- A merge without errors has found neither an unknown variable nor bad days. -/
theorem takes_of_errors_mergeSystemVariables (h : (mergeSystemVariables t data).errors.isEmpty)
    {v : Value} (hk : data[k]? = some v) : t.takes data k := by
  obtain ⟨hu, hd⟩ := List.append_eq_nil_iff.mp (Errors.isEmpty_add.mp h).2
  have hunknown : (data.filter fun name _ => !systemVariables.contains name).isEmpty := by
    simpa using hu
  have hdays : (t.jobType.takesDays &&
      (data["days"]?).any fun v => (retentionDays? v).isNone) = false := by
    simpa using hd
  have hname : systemVariables.contains k := by
    have hn := Table.isEmpty_iff_getElem?.mp hunknown k
    rw [Table.getElem?_filter_names data (fun name => !systemVariables.contains name), hk] at hn
    simpa using hn
  rw [SystemJobTemplate.takes, hname, hdays]
  rfl

theorem rejected_of_errors_mergeSystemVariables (h : (mergeSystemVariables t data).errors.isEmpty) :
    (mergeSystemVariables t data).rejected = ∅ := by
  refine Std.ExtTreeMap.ext_getElem? fun k => ?_
  rw [getElem?_rejected_mergeSystemVariables, Std.ExtTreeMap.getElem?_empty]
  cases hk : data[k]? with
  | none => exact ite_self _
  | some v => exact if_pos (takes_of_errors_mergeSystemVariables h hk)

end

namespace Template
variable {t : Template} {extraVars surveyAnswers : Vars} {excluded : ErrorCategories} {k : String}

theorem files_mergeVariables (h : ¬ t.Drops (extraVars.overlay surveyAnswers) k) :
    (mergeVariables t extraVars surveyAnswers excluded).Files k
      (t.recorded (extraVars.overlay surveyAnswers) k) := by
  cases t with
  | job t => exact files_mergeJobVariables h
  | system t => exact files_mergeSystemVariables

theorem files_mergeVariables_of_drops (h : t.Drops (extraVars.overlay surveyAnswers) k) :
    (mergeVariables t extraVars surveyAnswers excluded).Files k none := by
  cases t with
  | job t => exact files_mergeJobVariables_of_drops h
  | system t => exact h.elim

theorem isSome_recorded {data : Vars} (h : ¬ t.Drops data k) :
    (t.recorded data k).isSome ↔ k ∈ data := by
  rw [Std.ExtTreeMap.mem_iff_isSome_getElem?]
  cases t with
  | job t => exact JobTemplate.isSome_recorded h
  | system t => rfl

theorem rejected_of_errors_mergeVariables (hx : ¬ (t.kind = .job ∧ excluded.prompts))
    (h : (mergeVariables t extraVars surveyAnswers excluded).errors.isEmpty) :
    (mergeVariables t extraVars surveyAnswers excluded).rejected = ∅ := by
  cases t with
  | job t => exact (of_errors_mergeJobVariables (fun hp => hx ⟨rfl, hp⟩) h).1
  | system t => exact rejected_of_errors_mergeSystemVariables h

end Template

/-- What a merge has to account for. Of the proposed variables, each is on one side and keeps its
recorded value, unless it is dropped; nothing else is on either side. The two sides of a system
template's merge are all that was proposed, and nothing is rejected without an error, unless errors
about prompts are left out. -/
structure VariableMerge.Accounts (m : VariableMerge) (t : Template) (data : Vars)
    (excluded : ErrorCategories) : Prop where
  disjoint : ∀ k ∈ m.accepted, k ∉ m.rejected
  proposed : ∀ k, k ∈ m.accepted ∨ k ∈ m.rejected → k ∈ data
  kept : ∀ k ∈ data, k ∈ m.accepted ∨ k ∈ m.rejected ↔ ¬ t.Drops data k
  recorded : ∀ (k : String) (v : Value), m.accepted[k]? = some v ∨ m.rejected[k]? = some v →
    t.recorded data k = some v
  system : t.kind = .system → m.accepted.overlay m.rejected = data
  clean : m.errors.isEmpty → ¬ (t.kind = .job ∧ excluded.prompts) → m.rejected = ∅

/-- A merge accounts for the survey answers overlaid on the other variables. -/
theorem merge_accounts_for_variables (t : Template) (extraVars surveyAnswers : Vars)
    (excluded : ErrorCategories) :
    (mergeVariables t extraVars surveyAnswers excluded).Accounts t
      (extraVars.overlay surveyAnswers) excluded where
  disjoint k hk := by
    by_cases h : t.Drops (extraVars.overlay surveyAnswers) k
    · exact (Template.files_mergeVariables_of_drops h).not_mem hk
    · exact (Template.files_mergeVariables h).not_mem hk
  proposed k hk := by
    by_cases h : t.Drops (extraVars.overlay surveyAnswers) k
    · rw [(Template.files_mergeVariables_of_drops h).mem_iff] at hk
      cases hk
    · rwa [(Template.files_mergeVariables h).mem_iff, Template.isSome_recorded h] at hk
  kept k hk := by
    by_cases h : t.Drops (extraVars.overlay surveyAnswers) k
    · simp [(Template.files_mergeVariables_of_drops h).mem_iff, h]
    · simp [(Template.files_mergeVariables h).mem_iff, Template.isSome_recorded h, h, hk]
  recorded k v hv := by
    by_cases h : t.Drops (extraVars.overlay surveyAnswers) k
    · cases (Template.files_mergeVariables_of_drops h).eq_some hv
    · exact (Template.files_mergeVariables h).eq_some hv
  system h := by
    cases t with
    | job t => cases h
    | system t => exact overlay_mergeSystemVariables
  clean h hx := Template.rejected_of_errors_mergeVariables hx h

end JobLaunch
