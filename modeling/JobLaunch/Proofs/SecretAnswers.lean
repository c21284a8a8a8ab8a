import Mathlib.Data.List.Basic
import JobLaunch.Proofs.HiddenPasswords
import JobLaunch.Proofs.StoreGrowth
/-!
Two requests that differ in the answer to a password question only. As long as the answers have the
same length and neither is the marker, everything that is shown of the two launches is the same.
-/
namespace JobLaunch

/-- Whether variables are the same but for the value that both have of one name. -/
def Vars.AgreeBut (x : String) (vars vars' : Vars) : Prop :=
  ∀ k : String, vars[k]? = vars'[k]? ∨ k = x ∧ vars[k]?.isSome ∧ vars'[k]?.isSome

namespace Vars.AgreeBut
variable {x : String} {vars vars' : Vars}

theorem erase_eq (h : AgreeBut x vars vars') : vars.erase x = vars'.erase x := by
  apply Std.ExtTreeMap.ext_getElem?
  intro k
  simp only [Std.ExtTreeMap.getElem?_erase, Std.compare_eq_iff_eq]
  rcases h k with hk | ⟨rfl, -, -⟩
  · rw [hk]
  · rw [if_pos rfl, if_pos rfl]

theorem isEmpty_eq (h : AgreeBut x vars vars') : vars.isEmpty = vars'.isEmpty := by
  rw [Bool.eq_iff_iff, Table.isEmpty_iff_getElem?, Table.isEmpty_iff_getElem?]
  apply forall_congr'
  intro k
  rcases h k with hk | ⟨-, hs, hs'⟩
  · rw [hk]
  · obtain ⟨v, hv⟩ := Option.isSome_iff_exists.mp hs
    obtain ⟨v', hv'⟩ := Option.isSome_iff_exists.mp hs'
    simp [hv, hv']

theorem map_override? (h : AgreeBut x vars vars') {α : Type} {f g : Vars → α}
    (hfg : f vars = g vars') : vars.override?.map f = vars'.override?.map g := by
  unfold Vars.override?
  rw [h.isEmpty_eq]
  split
  · rfl
  · exact congrArg some hfg

/-- Variables that differ in a hidden value only are shown alike. -/
theorem displayVars_eq {passwords : Table String} (h : AgreeBut x vars vars')
    (hx : vars[x]? ≠ vars'[x]? → x ∈ passwords) :
    displayVars vars passwords = displayVars vars' passwords := by
  apply Std.ExtTreeMap.ext_getElem?
  intro k
  rw [getElem?_displayVars, getElem?_displayVars]
  rcases h k with hk | ⟨rfl, hs, hs'⟩
  · rw [hk]
  · by_cases hk : vars[k]? = vars'[k]?
    · rw [hk]
    · obtain ⟨marker, hm⟩ := Option.isSome_iff_exists.mp
        (Std.ExtTreeMap.mem_iff_isSome_getElem?.mp (hx hk))
      obtain ⟨v, hv⟩ := Option.isSome_iff_exists.mp hs
      obtain ⟨v', hv'⟩ := Option.isSome_iff_exists.mp hs'
      simp [hv, hv', hm]

end Vars.AgreeBut

def Overrides.withoutVar (o : Overrides) (x : String) : Overrides :=
  o.set .extraVars (o.extraVars.map fun vars => vars.erase x)

def JobSpec.withVars (s : JobSpec) (vars : Vars) : JobSpec :=
  { s with options := { s.options with extraVars := vars } }

def JobSpec.shown (s : JobSpec) : JobSpec :=
  s.withVars (displayVars s.options.extraVars s.surveyPasswords)

theorem JobSpec.shown_withVars (s : JobSpec) (vars : Vars) :
    (s.withVars vars).shown = s.withVars (displayVars vars s.surveyPasswords) := rfl

theorem JobSpec.shown_withSlice (s : JobSpec) (slice : Slice) :
    ({ s with slice } : JobSpec).shown = { s.shown with slice } := rfl

/-- Whether two resolutions are the same but for the value of one variable. -/
structure Resolution.AgreeBut (x : String) (res res' : Resolution) : Prop where
  errors : res.errors = res'.errors
  launchable : res.launchable = res'.launchable
  surveyPasswords : res.surveyPasswords = res'.surveyPasswords
  accepted : res.accepted.withoutVar x = res'.accepted.withoutVar x
  rejected : res.rejected.withoutVar x = res'.rejected.withoutVar x

/-- The request with a text as the answer to the question bound to a name. -/
def LaunchRequest.answering (r : LaunchRequest) (x a : String) : LaunchRequest :=
  { r with surveyAnswers := r.surveyAnswers.insert x (.text a) }

theorem LaunchRequest.getElem?_proposed_answering (r : LaunchRequest) (x a k : String) :
    (r.answering x a).proposed[k]? = if k = x then some (.text a) else r.proposed[k]? := by
  rw [proposed, Table.getElem?_overlay, proposed, Table.getElem?_overlay]
  change (r.surveyAnswers.insert x (.text a))[k]?.or _ = _
  rw [Std.ExtTreeMap.getElem?_insert]
  by_cases hk : k = x
  · simp [hk]
  · simp [hk, Ne.symm hk]
    rfl

theorem Overrides.withoutVar_eq {o o' : Overrides} {x : String}
    (h : ∀ f, f ≠ .extraVars → o.get f = o'.get f)
    (hv : o.extraVars.map (·.erase x) = o'.extraVars.map (·.erase x)) :
    o.withoutVar x = o'.withoutVar x := by
  apply PerField.ext_get
  intro f
  by_cases hf : f = .extraVars
  · subst hf
    rw [withoutVar, withoutVar, PerField.get_set_self, PerField.get_set_self, hv]
  · rw [withoutVar, withoutVar, PerField.get_set_of_ne _ _ hf, PerField.get_set_of_ne _ _ hf,
      h f hf]

theorem Overrides.eq_set_of_agree {o o' : Overrides}
    (h : ∀ f, f ≠ .extraVars → o.get f = o'.get f) : o' = o.set .extraVars o'.extraVars := by
  apply PerField.ext_get
  intro f
  by_cases hf : f = .extraVars
  · subst hf
    rw [PerField.get_set_self]
    rfl
  · rw [PerField.get_set_of_ne _ _ hf, h f hf]

/-- The prompts shown of a launch depend on its variables only as far as these are shown. -/
theorem LaunchConfig.displayPrompts_eq {c c' : LaunchConfig}
    (h : ∀ f, f ≠ .extraVars → c.overrides.get f = c'.overrides.get f)
    (he : c.overrides.extraVars.map Std.ExtTreeMap.isEmpty =
      c'.overrides.extraVars.map Std.ExtTreeMap.isEmpty)
    (hv : c.overrides.extraVars.map (displayVars · c.surveyPasswords) =
      c'.overrides.extraVars.map (displayVars · c'.surveyPasswords)) :
    c.displayPrompts = c'.displayPrompts := by
  unfold displayPrompts provided Overrides.values
  rw [List.filter_filterMap, List.filter_filterMap, List.map_filterMap, List.map_filterMap]
  congr 1
  apply List.filterMap_congr
  intro f _
  by_cases hf : f = .extraVars
  · subst hf
    change Option.map _ (Option.filter _ (c.overrides.extraVars.map _)) =
      Option.map _ (Option.filter _ (c'.overrides.extraVars.map _))
    cases hc : c.overrides.extraVars with
    | none =>
      cases hc' : c'.overrides.extraVars with
      | none => rfl
      | some _ => simp [hc, hc'] at he
    | some vars =>
      cases hc' : c'.overrides.extraVars with
      | none => simp [hc, hc'] at he
      | some vars' =>
        simp only [hc, hc', Option.map_some, Option.some.injEq] at he hv
        simp only [Option.map_some, Option.filter_some, he]
        split
        · simp only [Option.map_some, hv]
        · rfl
  · rw [h f hf]
    cases c'.overrides.get f with
    | none => rfl
    | some v =>
      cases f with
      | extraVars => exact absurd rfl hf
      | _ =>
        simp only [Option.map_some, Option.filter_some]
        split <;> simp only [Option.map_some, Option.map_none]

namespace Question
variable {q : Question} {a b : String}

theorem settle_secret (q : Question) (ha : a ≠ redacted) :
    q.settle (some (.text a)) = some (.text a) := by
  apply settle_of_ne
  rintro ⟨-, h⟩
  injection h with h
  injection h with h
  injection h with h
  exact ha h

section
variable (hp : q.isPassword) (hl : a.length = b.length) (ha : a ≠ redacted) (hb : b ≠ redacted)
include hp hl ha hb

theorem isSome_answer_secret :
    (q.answer (some (.text a))).isSome = (q.answer (some (.text b))).isSome := by
  simp only [answer, q.settle_secret ha, q.settle_secret hb, Option.filter_some,
    valueProblems_of_isPassword hp hl]
  split <;> rfl

theorem isSome_refusal_secret :
    (q.refusal (some (.text a))).isSome = (q.refusal (some (.text b))).isSome := by
  simp only [refusal, q.settle_secret ha, q.settle_secret hb, Option.filter_some,
    valueProblems_of_isPassword hp hl]
  split <;> rfl

end
end Question

namespace JobTemplate
variable {t : JobTemplate} {m : UInt32} {r : LaunchRequest} {x a b : String} {q : Question}

theorem surveyPasswords_congr {accepted accepted' : Vars}
    (h : ∀ k : String, accepted[k]?.isSome = accepted'[k]?.isSome) :
    t.surveyPasswords accepted = t.surveyPasswords accepted' := by
  simp only [surveyPasswords, Std.ExtTreeMap.contains_eq_isSome_getElem?, h]

theorem missingResources_congr {o o' : Overrides} (h : o.inventory = o'.inventory) :
    t.missingResources o = t.missingResources o' := by
  simp only [missingResources, h]

theorem leftover_answering (hq : t.questionOf? x = some q) (excluded : ErrorCategories) :
    t.leftover (r.answering x a).proposed excluded =
      t.leftover (r.answering x b).proposed excluded := by
  apply Std.ExtTreeMap.ext_getElem?
  intro k
  rw [getElem?_leftover, getElem?_leftover]
  by_cases hx : k = x
  · have hs : t.ask.extraVars ∨ (t.questionOf? k).isSome := by simp [hx, hq]
    rw [if_pos hs, if_pos hs]
  · rw [LaunchRequest.getElem?_proposed_answering, LaunchRequest.getElem?_proposed_answering,
      if_neg hx, if_neg hx]

/-- Where a verdict of the question finds both answers or neither, the verdicts of all questions are
the same but for the answer. -/
theorem verdict_answering (hq : t.questionOf? x = some q)
    {verdict : Question → Option Value → Option Value}
    (hv : (verdict q (some (.text a))).isSome = (verdict q (some (.text b))).isSome) (k : String) :
    (t.questionOf? k).bind (fun p => verdict p (r.answering x a).proposed[k]?) =
      (t.questionOf? k).bind (fun p => verdict p (r.answering x b).proposed[k]?) ∨
    k = x ∧ ((t.questionOf? k).bind fun p => verdict p (r.answering x a).proposed[k]?).isSome ∧
      ((t.questionOf? k).bind fun p => verdict p (r.answering x b).proposed[k]?).isSome := by
  rw [LaunchRequest.getElem?_proposed_answering, LaunchRequest.getElem?_proposed_answering]
  by_cases hx : k = x
  · subst hx
    rw [if_pos rfl, if_pos rfl, hq, Option.bind_some, Option.bind_some]
    cases h : verdict q (some (.text a)) with
    | none =>
      rw [h] at hv
      exact Or.inl (Option.not_isSome_iff_eq_none.mp (by simp [← hv])).symm
    | some v =>
      rw [h] at hv
      exact Or.inr ⟨rfl, rfl, hv.symm⟩
  · rw [if_neg hx, if_neg hx]
    exact Or.inl rfl

section
variable (hq : t.questionOf? x = some q) (hp : q.isPassword) (hl : a.length = b.length)
  (ha : a ≠ redacted) (hb : b ≠ redacted)
include hq hp hl ha hb

theorem problems_answering (required : Bool) :
    (SurveyIntake.run t required (r.answering x a).proposed).problems =
      (SurveyIntake.run t required (r.answering x b).proposed).problems := by
  apply SurveyIntake.problems_run_congr
  intro k p hk
  have hv : p.varName = k := variable_of_binding? hk
  by_cases hx : k = x
  · rw [hx, hq, Option.some.injEq] at hk
    subst hk
    have hproblems {c : String} (hc : c ≠ redacted) : q.problems
        (q.restorePassword (r.answering x c).proposed) required = q.valueProblems (.text c) := by
      apply Question.problems_of_some
      rw [Question.getElem?_restorePassword, if_pos rfl, LaunchRequest.getElem?_proposed_answering,
        if_pos (hv.trans hx), q.settle_secret hc]
    rw [hproblems ha, hproblems hb, Question.valueProblems_of_isPassword hp hl]
  · apply Question.problems_congr
    rw [Question.getElem?_restorePassword, Question.getElem?_restorePassword,
      LaunchRequest.getElem?_proposed_answering, LaunchRequest.getElem?_proposed_answering, hv,
      if_neg hx, if_neg hx]

theorem accepted_run_answering (required : Bool) :
    Vars.AgreeBut x (SurveyIntake.run t required (r.answering x a).proposed).accepted
      (SurveyIntake.run t required (r.answering x b).proposed).accepted := by
  intro k
  rw [SurveyIntake.getElem?_accepted_run, SurveyIntake.getElem?_accepted_run]
  exact verdict_answering hq (Question.isSome_answer_secret hp hl ha hb) k

theorem accepted_answering :
    Vars.AgreeBut x (t.merged (r.answering x a)).accepted
      (t.merged (r.answering x b)).accepted := by
  intro k
  rw [merged, merged, getElem?_accepted_mergeJobVariables, getElem?_accepted_mergeJobVariables]
  cases hk : t.questionOf? k with
  | some p =>
    have h := verdict_answering (r := r) hq (Question.isSome_answer_secret hp hl ha hb) k
    simpa only [settled, hk, Option.bind_some] using h
  | none =>
    left
    apply settled_congr
    have hx : k ≠ x := by
      rintro rfl
      simp [hq] at hk
    rw [LaunchRequest.getElem?_proposed_answering, LaunchRequest.getElem?_proposed_answering,
      if_neg hx, if_neg hx]

theorem rejected_answering :
    Vars.AgreeBut x (t.merged (r.answering x a)).rejected
      (t.merged (r.answering x b)).rejected := by
  intro k
  have h := verdict_answering (r := r) hq (Question.isSome_refusal_secret hp hl ha hb) k
  rw [merged, merged, rejected_mergeJobVariables, rejected_mergeJobVariables,
    Table.getElem?_overlay, Table.getElem?_overlay, SurveyIntake.getElem?_rejected_run,
    SurveyIntake.getElem?_rejected_run, leftover_answering (b := b) hq]
  change (t.leftover _ r.excludedErrors)[k]?.or _ = (t.leftover _ r.excludedErrors)[k]?.or _ ∨ _
  rcases h with h | ⟨hx, h, h'⟩
  · rw [h]
    exact Or.inl rfl
  · refine Or.inr ⟨hx, ?_, ?_⟩
    · simp [Option.isSome_or, h]
    · rw [Option.isSome_or, h', Bool.or_true]

theorem errors_merged_answering :
    (t.merged (r.answering x a)).errors = (t.merged (r.answering x b)).errors := by
  rw [merged, merged, errors_mergeJobVariables, errors_mergeJobVariables,
    leftover_answering (b := b) hq, problems_answering hq hp hl ha hb]
  rfl

end

theorem get_accepted_answering {f : PromptField} (hf : f ≠ .extraVars) :
    (t.resolution m (r.answering x a)).accepted.get f =
      (t.resolution m (r.answering x b)).accepted.get f := by
  rw [accepted_resolution hf, accepted_resolution hf]
  rfl

theorem slices_answering : t.slices (t.resolution m (r.answering x a)).accepted (r.answering x a) =
    t.slices (t.resolution m (r.answering x b)).accepted (r.answering x b) := by
  have hs : t.effectiveSliceCount (t.resolution m (r.answering x a)).accepted =
      t.effectiveSliceCount (t.resolution m (r.answering x b)).accepted :=
    effectiveSliceCount_congr
      (fun _ => get_accepted_answering (f := .inventory) (by decide))
      (fun _ => get_accepted_answering (f := .jobSliceCount) (by decide))
  unfold slices
  rw [hs]
  rfl

theorem get_rejected_answering {f : PromptField} (hf : f ≠ .extraVars) :
    (t.resolution m (r.answering x a)).rejected.get f =
      (t.resolution m (r.answering x b)).rejected.get f := by
  rw [rejected_resolution hf, rejected_resolution hf]
  rfl

theorem mem_surveyPasswords_of_accepted (hq : t.questionOf? x = some q) (hp : q.isPassword)
    (hx : (t.resolution m r).accepted.vars[x]?.isSome) :
    x ∈ (t.resolution m r).surveyPasswords := by
  have hv : q.varName = x := variable_of_binding? hq
  rw [← hv]
  apply (mem_surveyPasswords_resolution (List.mem_of_find?_eq_some hq) hp).mpr
  intro hu
  rw [hv] at hu
  rw [hu.unanswered] at hx
  cases hx

theorem surveyPasswords_jobSpec (t : JobTemplate) (res : Resolution) (r : LaunchRequest) :
    (t.jobSpec res r).surveyPasswords = res.surveyPasswords := rfl

theorem jobSpec_eq_withVars {res res' : Resolution} {r r' : LaunchRequest}
    (h : ∀ f, f ≠ .extraVars → res.accepted.get f = res'.accepted.get f)
    (hp : res.surveyPasswords = res'.surveyPasswords) (hl : r.launchType = r'.launchType) :
    t.jobSpec res' r' = (t.jobSpec res r).withVars (t.jobSpec res' r').options.extraVars := by
  have ho := Overrides.eq_set_of_agree h
  generalize res'.accepted.extraVars = vars at ho
  simp only [jobSpec, jobOptions, ho, hp, hl]
  rfl

section
variable (hq : t.questionOf? x = some q) (hp : q.isPassword) (hl : a.length = b.length)
  (ha : a ≠ redacted) (hb : b ≠ redacted)
include hq hp hl ha hb

theorem surveyPasswords_answering : (t.resolution m (r.answering x a)).surveyPasswords =
    (t.resolution m (r.answering x b)).surveyPasswords := by
  apply surveyPasswords_congr
  intro k
  rcases accepted_run_answering (r := r) hq hp hl ha hb (!r.excludedErrors.required) k with
    h | ⟨-, h, h'⟩
  · exact congrArg Option.isSome h
  · exact h.trans h'.symm

theorem agree_answering :
    (t.resolution m (r.answering x a)).AgreeBut x (t.resolution m (r.answering x b)) := by
  have herrors : (t.resolution m (r.answering x a)).errors =
      (t.resolution m (r.answering x b)).errors := by
    rw [errors_resolution, errors_resolution, errors_merged_answering hq hp hl ha hb,
      missingResources_congr (get_accepted_answering (f := .inventory) (by decide))]
    rfl
  constructor
  · exact herrors
  · exact congrArg Std.ExtTreeMap.isEmpty herrors
  · exact surveyPasswords_answering hq hp hl ha hb
  · apply Overrides.withoutVar_eq fun f hf => get_accepted_answering hf
    have h := accepted_answering (r := r) hq hp hl ha hb
    exact h.map_override? h.erase_eq
  · apply Overrides.withoutVar_eq fun f hf => get_rejected_answering hf
    have h := rejected_answering (r := r) hq hp hl ha hb
    exact h.map_override? h.erase_eq

/-- Where an accepted answer makes a difference, it is recorded as a password. -/
theorem recorded_of_differs
    (hx : (t.merged (r.answering x a)).accepted[x]? ≠ (t.merged (r.answering x b)).accepted[x]?) :
    x ∈ (t.resolution m (r.answering x a)).surveyPasswords := by
  rcases accepted_answering (r := r) hq hp hl ha hb x with h | ⟨-, h, -⟩
  · exact absurd h hx
  · apply mem_surveyPasswords_of_accepted hq hp
    rw [Overrides.vars, accepted_resolution_extraVars, Vars.getElem?_override?]
    exact h

theorem displayPrompts_answering (jobId : Id) (launchType : LaunchType) (now : Timestamp) :
    (LaunchConfig.capture jobId launchType (t.resolution m (r.answering x a)) now).displayPrompts =
      (LaunchConfig.capture jobId launchType (t.resolution m (r.answering x b))
        now).displayPrompts := by
  have h := accepted_answering (r := r) hq hp hl ha hb
  apply LaunchConfig.displayPrompts_eq
  · exact fun f hf => get_accepted_answering hf
  · exact h.map_override? h.isEmpty_eq
  · apply h.map_override?
    change displayVars _ (t.resolution m (r.answering x a)).surveyPasswords =
      displayVars _ (t.resolution m (r.answering x b)).surveyPasswords
    rw [← surveyPasswords_answering hq hp hl ha hb]
    exact h.displayVars_eq (recorded_of_differs hq hp hl ha hb)

theorem shown_jobSpec_answering :
    (t.jobSpec (t.resolution m (r.answering x a)) (r.answering x a)).shown =
      (t.jobSpec (t.resolution m (r.answering x b)) (r.answering x b)).shown := by
  have hw := surveyPasswords_answering (m := m) (r := r) hq hp hl ha hb
  have h : Vars.AgreeBut x
      (t.jobSpec (t.resolution m (r.answering x a)) (r.answering x a)).options.extraVars
      (t.jobSpec (t.resolution m (r.answering x b)) (r.answering x b)).options.extraVars := by
    intro k
    rw [getElem?_jobSpec, getElem?_jobSpec, accepted_resolution_extraVars,
      accepted_resolution_extraVars, Vars.getElem?_override?, Vars.getElem?_override?]
    rcases accepted_answering (r := r) hq hp hl ha hb k with h | ⟨hk, h, h'⟩
    · rw [h]
      exact Or.inl rfl
    · exact Or.inr ⟨hk, by simp [h], by simp [h']⟩
  have hv : displayVars
      (t.jobSpec (t.resolution m (r.answering x a)) (r.answering x a)).options.extraVars
        (t.resolution m (r.answering x a)).surveyPasswords = displayVars
      (t.jobSpec (t.resolution m (r.answering x b)) (r.answering x b)).options.extraVars
        (t.resolution m (r.answering x a)).surveyPasswords := by
    apply h.displayVars_eq
    intro hx
    apply recorded_of_differs hq hp hl ha hb
    intro he
    rw [getElem?_jobSpec, getElem?_jobSpec, accepted_resolution_extraVars,
      accepted_resolution_extraVars, Vars.getElem?_override?, Vars.getElem?_override?, he] at hx
    exact hx rfl
  rw [jobSpec_eq_withVars (fun f hf => get_accepted_answering (b := b) hf) hw rfl,
    JobSpec.shown_withVars, surveyPasswords_jobSpec, ← hv]
  rfl

end

/-- A plan's jobs are shown alike when the job that they are slices of is. -/
theorem shown_jobSpecs_eq {res res' : Resolution} {r r' : LaunchRequest}
    (hs : t.slices res.accepted r = t.slices res'.accepted r')
    (h : (t.jobSpec res r).shown = (t.jobSpec res' r').shown) :
    (t.plan res r).jobSpecs.map JobSpec.shown = (t.plan res' r').jobSpecs.map JobSpec.shown := by
  rw [jobSpecs_plan, jobSpecs_plan, hs, List.map_map, List.map_map]
  apply List.map_congr_left
  intro slice _
  calc ({ t.jobSpec res r with slice } : JobSpec).shown
      = { (t.jobSpec res r).shown with slice } := JobSpec.shown_withSlice _ slice
    _ = { (t.jobSpec res' r').shown with slice } := by rw [h]
    _ = ({ t.jobSpec res' r' with slice } : JobSpec).shown := (JobSpec.shown_withSlice _ slice).symm

end JobTemplate

/-- Everything that is shown of a launch is the same for two answers to a password question that
have the same length, unless one of them is the marker: messages, what is accepted and rejected,
the prompts that are recorded, and the variables of the jobs. -/
theorem password_answers_not_shown (t : JobTemplate) (m : UInt32) (r : LaunchRequest)
    (x a b : String) (q : Question) (hq : t.questionOf? x = some q) (hp : q.isPassword)
    (hl : a.length = b.length) (ha : a ≠ redacted) (hb : b ≠ redacted) :
    (t.resolution m (r.answering x a)).AgreeBut x (t.resolution m (r.answering x b)) ∧
    (∀ jobId launchType now,
      (LaunchConfig.capture jobId launchType (t.resolution m (r.answering x a))
        now).displayPrompts =
      (LaunchConfig.capture jobId launchType (t.resolution m (r.answering x b))
        now).displayPrompts) ∧
    ((Template.job t).planned m (r.answering x a)).jobSpecs.map JobSpec.shown =
      ((Template.job t).planned m (r.answering x b)).jobSpecs.map JobSpec.shown := by
  refine ⟨JobTemplate.agree_answering hq hp hl ha hb,
    JobTemplate.displayPrompts_answering hq hp hl ha hb, ?_⟩
  apply JobTemplate.shown_jobSpecs_eq
  · exact JobTemplate.slices_answering
  · exact JobTemplate.shown_jobSpec_answering hq hp hl ha hb

def LaunchRequest.withPassword (password : String) : LaunchRequest :=
  LaunchRequest.answering {} "pw" password

/-- Two passwords that are accepted, and not shown. -/
theorem own_password_answers_not_shown :
    JobTemplate.ownPassword.questionOf? "pw" = some .optionalPassword ∧
    (JobTemplate.ownPassword.resolution 0 (.withPassword "hunter2")).accepted.vars["pw"]? =
      some (.text "hunter2") ∧
    (JobTemplate.ownPassword.resolution 0 (.withPassword "hunter2")).AgreeBut "pw"
      (JobTemplate.ownPassword.resolution 0 (.withPassword "letmein")) ∧
    ((Template.job .ownPassword).planned 0 (.withPassword "hunter2")).jobSpecs.map JobSpec.shown =
      ((Template.job .ownPassword).planned 0 (.withPassword "letmein")).jobSpecs.map
        JobSpec.shown := by
  have hq : JobTemplate.ownPassword.questionOf? "pw" = some .optionalPassword := by decide
  obtain ⟨hres, -, hjobs⟩ := password_answers_not_shown .ownPassword 0 {} "pw" "hunter2" "letmein"
    .optionalPassword hq (by decide) (by decide) (by decide) (by decide)
  exact ⟨hq, by decide, hres, hjobs⟩

end JobLaunch
