import JobLaunch.Proofs.RelaunchGate
import JobLaunch.Proofs.SliceCounts
/-!
Replays on an unchanged template. What a resolution accepts is in a form that the template takes as
it is: resolving it again changes nothing, and the relaunch gate lets it pass.
-/
namespace JobLaunch

/-- Whether a requested inventory that is the template's own, by id, also has its number of hosts. -/
def LaunchRequest.CountsHosts (r : LaunchRequest) (t : JobTemplate) : Prop :=
  ∀ asked own, r.overrides.inventory = some asked → t.inventory = some own → own.id = asked.id →
    own.hostCount = asked.hostCount

theorem LaunchRequest.proposed_of_overrides (o : Overrides) :
    ({ overrides := o } : LaunchRequest).proposed = o.vars :=
  Table.overlay_empty _

/-- Overrides that a template takes as they are: every field changes something, is prompted for and
valid among the others, and every variable stands for itself. -/
structure JobTemplate.Takes (t : JobTemplate) (m : UInt32) (o : Overrides) : Prop where
  effect : ∀ f y, f ≠ .extraVars → o.get f = some y → t.effect? f y = some y
  asked : ∀ f y, f ≠ .extraVars → o.get f = some y → t.ask.get f
  valid : ∀ f y, f ≠ .extraVars → o.get f = some y → t.violation? m o f y = none
  settled : ∀ k : String, o.vars[k]? = t.settled o.vars k
  override : o.vars.override? = o.extraVars

namespace JobTemplate
variable {t : JobTemplate} {m : UInt32} {r : LaunchRequest} {o : Overrides}

theorem hostCount_accepted (hc : r.CountsHosts t) :
    (t.countedInventory (t.resolution m r).accepted).map (·.hostCount) =
      (t.countedInventory r.overrides).map (·.hostCount) := by
  by_cases hr : ∃ asked own, r.Repeats t asked own
  · obtain ⟨asked, own, hr⟩ := hr
    obtain ⟨ha, ho⟩ := countedInventory_of_repeats (m := m) hr
    rw [ha, ho]
    exact congrArg some (hc asked own hr.names hr.has hr.same)
  · rw [countedInventory_of_not_repeats hr]

theorem valid_accepted (hc : r.CountsHosts t) {f : PromptField} (hf : f ≠ .extraVars)
    {y : f.Carrier} (hy : (t.resolution m r).accepted.get f = some y) :
    t.violation? m (t.resolution m r).accepted f y = none := by
  obtain ⟨x, -, -, -, hv⟩ := (accepted_resolution_eq_some hf).mp hy
  by_cases hs : f = .jobSliceCount
  · subst hs
    obtain ⟨ha, -, hn⟩ := of_accepted_sliceCount hy
    rw [filledSlices_congr (hostCount_accepted (m := m) hc).symm] at hn
    exact (violation?_sliceCount ha hy).mpr hn
  · rw [violation?_of_ne hs _ r.overrides]
    exact hv

theorem takes_accepted (hc : r.CountsHosts t) : t.Takes m (t.resolution m r).accepted where
  effect f y hf hy := by
    obtain ⟨x, -, he, -, -⟩ := (accepted_resolution_eq_some hf).mp hy
    exact effect?_of_effect? he
  asked f y hf hy := by
    obtain ⟨x, -, -, ha, -⟩ := (accepted_resolution_eq_some hf).mp hy
    exact ha
  valid f y hf hy := valid_accepted hc hf hy
  settled k := by
    have hk : (t.resolution m r).accepted.vars[k]? = t.settled r.proposed k :=
      getElem?_acceptedVars k
    rw [settled_of_settled hk, hk]
  override := by
    have he (vars : Vars) : (vars.override?.getD ∅).override? = vars.override? := by
      by_cases hv : vars.isEmpty
      · simp [Vars.override?, hv]
      · simp [Vars.override?, hv]
    exact he (t.merged r).accepted

theorem resolution_of_takes (h : t.Takes m o) :
    (t.resolution m { overrides := o }).accepted = o ∧
      (t.resolution m { overrides := o }).rejected = ∅ := by
  have hk (k : String) : ({ overrides := o } : LaunchRequest).proposed[k]? = t.settled o.vars k := by
    rw [LaunchRequest.proposed_of_overrides]
    exact h.settled k
  constructor
  · refine PerField.ext_get fun f => ?_
    by_cases hf : f = .extraVars
    · subst hf
      have ha : (t.merged { overrides := o }).accepted = o.vars := by
        refine Std.ExtTreeMap.ext_getElem? fun k => ?_
        rw [merged, getElem?_accepted_mergeJobVariables, settled_of_settled (hk k), h.settled k]
      show (t.merged { overrides := o }).accepted.override? = o.extraVars
      rw [ha, h.override]
    · refine Option.ext fun y => ?_
      rw [accepted_resolution_eq_some hf]
      constructor
      · rintro ⟨x, hx, he, -, -⟩
        rw [h.effect f x hf hx, Option.some.injEq] at he
        rw [← he]
        exact hx
      · intro hy
        exact ⟨y, hy, h.effect f y hf hy, h.asked f y hf hy, h.valid f y hf hy⟩
  · refine PerField.ext_get fun f => ?_
    rw [Overrides.get_empty]
    by_cases hf : f = .extraVars
    · subst hf
      have hr : (t.merged { overrides := o }).rejected = ∅ :=
        rejected_mergeJobVariables_of_settled hk _
      show (t.merged { overrides := o }).rejected.override? = none
      rw [hr]
      rfl
    · rw [rejected_resolution hf]
      -- a rejected value would be its own effect, prompted for and valid, and so accepted
      refine Option.eq_none_iff_forall_ne_some.mpr fun y hy => ?_
      obtain ⟨x, hx, hd⟩ := Option.bind_eq_some_iff.mp hy
      obtain ⟨he, hn⟩ := rejected_decideField.mp hd
      rw [h.effect f x hf hx, Option.some.injEq] at he
      subst he
      exact hn (h.asked f x hf hx) (h.valid f x hf hx)

end JobTemplate

namespace LaunchConfig
variable {c : LaunchConfig}

theorem exists_of_any_provided {f : PromptField} (h : c.provided.any fun v => v.field == f) :
    ∃ x, c.overrides.get f = some x := by
  obtain ⟨v, hv, hf⟩ := List.any_eq_true.mp h
  obtain rfl : v.field = f := by simpa using hf
  exact ⟨v.value, Overrides.mem_values.mp (List.mem_filter.mp hv).1⟩

/-- Variables are shown only when there are some. -/
theorem exists_var_of_any_provided (h : c.provided.any fun v => v.field == .extraVars) :
    ∃ (k : String) (v : Value), c.extraVars[k]? = some v := by
  obtain ⟨⟨f, vars⟩, hv, hf⟩ := List.any_eq_true.mp h
  obtain rfl : f = .extraVars := by simpa using hf
  obtain ⟨hm, hne⟩ := List.mem_filter.mp hv
  have hx : c.overrides.extraVars = some vars := Overrides.mem_values.mp hm
  have he : ¬ Std.ExtTreeMap.isEmpty (vars : Vars) := by simpa using hne
  obtain ⟨k, w, hk⟩ := Table.exists_of_not_isEmpty he
  refine ⟨k, w, ?_⟩
  rw [LaunchConfig.extraVars, hx]
  exact hk

end LaunchConfig

theorem JobTemplate.unpromptedFields_of_takes {t : JobTemplate} {m : UInt32} {c : LaunchConfig}
    (h : t.Takes m c.overrides) : c.unpromptedFields (.of (.job t)) = [] := by
  rw [LaunchConfig.unpromptedFields_eq_nil]
  intro f _ hp
  rw [Bool.eq_false_iff]
  intro hu
  -- a name that is not prompted for as a variable is one that a question of the survey decides
  have hk (k : String) (v : Value) (hv : c.extraVars[k]? = some v) (ha : t.ask.extraVars = false) :
      (t.questionOf? k).isSome := by
    have hs : c.extraVars[k]? = t.settled c.extraVars k := h.settled k
    cases hq : t.questionOf? k with
    | some q => rfl
    | none =>
      rw [hv] at hs
      simp [settled, hq, ha] at hs
  by_cases hg : f = .extraVars ∧ (PolicySnapshot.of (.job t)).surveyGoverns
  · obtain ⟨rfl, hg⟩ := hg
    obtain ⟨-, ha⟩ := (PolicySnapshot.surveyGoverns_job t).mp hg
    obtain ⟨name, hn, hout⟩ := (PolicySnapshot.unprompted_extraVars_iff hg).mp hu
    obtain ⟨w, hw⟩ := Option.isSome_iff_exists.mp
      (Std.ExtTreeMap.mem_iff_isSome_getElem?.mp (Std.ExtTreeMap.mem_keys.mp hn))
    exact hout (isSome_questionOf?_iff.mp (hk name w hw ha)).2
  · obtain ⟨ha, -⟩ := (PolicySnapshot.unprompted_iff hg).mp hu
    by_cases hf : f = .extraVars
    · subst hf
      obtain ⟨k, v, hv⟩ := LaunchConfig.exists_var_of_any_provided hp
      have hs : t.surveyEnabled := (isSome_questionOf?_iff.mp (hk k v hv ha)).1
      exact hg ⟨rfl, (PolicySnapshot.surveyGoverns_job t).mpr ⟨hs, ha⟩⟩
    · obtain ⟨x, hx⟩ := LaunchConfig.exists_of_any_provided hp
      cases (h.asked f x hf hx).symm.trans ha

namespace SystemJobTemplate
variable (t : SystemJobTemplate) (data : Vars)

/-- Whether days are given, to a command that takes them, that are no number of days. -/
def badDays (t : SystemJobTemplate) (data : Vars) : Bool :=
  t.jobType.takesDays && (data["days"]?).any fun v => (retentionDays? v).isNone

theorem getElem?_accepted (k : String) : (mergeSystemVariables t data).accepted[k]? =
    if systemVariables.contains k && !(t.badDays data && k == "days") then data[k]? else none :=
  Table.getElem?_filter_names data _ k

theorem getElem?_rejected (k : String) : (mergeSystemVariables t data).rejected[k]? =
    if !(systemVariables.contains k && !(t.badDays data && k == "days")) then data[k]? else none :=
  Table.getElem?_filter_names data _ k

theorem badDays_accepted : t.badDays (mergeSystemVariables t data).accepted = false := by
  have hd := getElem?_accepted t data "days"
  have hc : systemVariables.contains "days" = true := by decide
  rw [hc] at hd
  cases hb : t.badDays data with
  | false =>
    simp only [hb] at hd
    rw [badDays, hd]
    exact hb
  | true =>
    simp only [hb] at hd
    rw [badDays, hd]
    simp

/-- Accepted variables are known, and their days are a number of days. -/
theorem merge_accepted :
    (mergeSystemVariables t (mergeSystemVariables t data).accepted).accepted =
      (mergeSystemVariables t data).accepted ∧
    (mergeSystemVariables t (mergeSystemVariables t data).accepted).rejected = ∅ := by
  have hk (k : String) (h : systemVariables.contains k = false) :
      (mergeSystemVariables t data).accepted[k]? = none := by
    rw [getElem?_accepted, h]
    rfl
  constructor
  · refine Std.ExtTreeMap.ext_getElem? fun k => ?_
    rw [getElem?_accepted, badDays_accepted]
    cases h : systemVariables.contains k with
    | false => exact (hk k h).symm
    | true => rfl
  · refine Std.ExtTreeMap.ext_getElem? fun k => ?_
    rw [getElem?_rejected, badDays_accepted, Std.ExtTreeMap.getElem?_empty]
    cases h : systemVariables.contains k with
    | false => exact hk k h
    | true => rfl

def overriding (vars : Vars) : Overrides := (∅ : Overrides).set .extraVars vars.override?

theorem vars_overriding (vars : Vars) : (overriding vars).vars = vars := by
  have he : (overriding vars).extraVars = vars.override? :=
    PerField.get_set_self (∅ : Overrides) .extraVars _
  rw [Overrides.vars, he]
  exact Std.ExtTreeMap.ext_getElem? fun k => Vars.getElem?_override? vars k

theorem accepted_resolve (m : UInt32) (r : LaunchRequest) :
    ((Template.system t).resolve m r).accepted =
      overriding (mergeSystemVariables t r.proposed).accepted :=
  rfl

theorem rejected_resolve (m : UInt32) (r : LaunchRequest) :
    ((Template.system t).resolve m r).rejected =
      overriding (mergeSystemVariables t r.proposed).rejected :=
  rfl

end SystemJobTemplate

theorem PolicySnapshot.unpromptedFields_system (t : SystemJobTemplate) (c : LaunchConfig) :
    c.unpromptedFields (.of (.system t)) = [] := by
  rw [LaunchConfig.unpromptedFields_eq_nil]
  intro f hf _
  obtain rfl : f = .extraVars := List.mem_singleton.mp hf
  rfl

/-- On an unchanged template, what a resolution accepted passes the relaunch gate and resolves to
itself: nothing is rejected and the recorded passwords are the same. -/
theorem accepted_resolves_to_itself (T : Template) (m : UInt32) (r : LaunchRequest)
    (hc : ∀ t, T.asJob? = some t → r.CountsHosts t) (jobId : Id) (launchType : LaunchType)
    (now : Timestamp) :
    (LaunchConfig.capture jobId launchType (T.resolve m r) now).unpromptedFields (.of T) = [] ∧
    (T.resolve m { overrides := (T.resolve m r).accepted }).accepted = (T.resolve m r).accepted ∧
    (T.resolve m { overrides := (T.resolve m r).accepted }).rejected = ∅ ∧
    (T.resolve m { overrides := (T.resolve m r).accepted }).surveyPasswords =
      (T.resolve m r).surveyPasswords := by
  cases T with
  | job t =>
    have ht := JobTemplate.takes_accepted (m := m) (hc t rfl)
    obtain ⟨ha, hr⟩ := JobTemplate.resolution_of_takes ht
    refine ⟨JobTemplate.unpromptedFields_of_takes ht, ha, hr, ?_⟩
    have hk (k : String) :
        ({ overrides := (t.resolution m r).accepted } : LaunchRequest).proposed[k]? =
          t.settled r.proposed k := by
      rw [LaunchRequest.proposed_of_overrides]
      exact JobTemplate.getElem?_acceptedVars k
    exact surveyPasswords_mergeJobVariables_of_settled hk _ _
  | system t =>
    obtain ⟨ha, hr⟩ := t.merge_accepted r.proposed
    refine ⟨PolicySnapshot.unpromptedFields_system t _, ?_, ?_, rfl⟩
    · rw [SystemJobTemplate.accepted_resolve, LaunchRequest.proposed_of_overrides,
        SystemJobTemplate.accepted_resolve, SystemJobTemplate.vars_overriding, ha]
    · rw [SystemJobTemplate.rejected_resolve, LaunchRequest.proposed_of_overrides,
        SystemJobTemplate.accepted_resolve, SystemJobTemplate.vars_overriding, hr]
      rfl

def LaunchRequest.ownInventory : LaunchRequest :=
  { LaunchRequest.sample with
    overrides := LaunchRequest.sample.overrides.set .inventory
      (some ⟨⟨2⟩, "everything", 4, none, [], false⟩) }

def JobTemplate.sliceable : JobTemplate := .sample [.inventory, .jobSliceCount]

theorem own_inventory_resolves_to_itself :
    (∀ t, (Template.job .sliceable).asJob? = some t → LaunchRequest.ownInventory.CountsHosts t) ∧
    ((Template.job .sliceable).resolve 0 .ownInventory).accepted.jobSliceCount = some 3 ∧
    (LaunchConfig.capture ⟨5⟩ .manual ((Template.job .sliceable).resolve 0 .ownInventory)
      default).unpromptedFields (.of (.job .sliceable)) = [] ∧
    ((Template.job .sliceable).resolve 0
      { overrides := ((Template.job .sliceable).resolve 0 .ownInventory).accepted }).rejected = ∅ := by
  have hc (t : JobTemplate) (ht : (Template.job .sliceable).asJob? = some t) :
      LaunchRequest.ownInventory.CountsHosts t := by
    intro asked own ha ho _
    obtain rfl : _ = t := Option.some.inj ht
    obtain rfl : _ = asked := Option.some.inj ha
    obtain rfl : _ = own := Option.some.inj ho
    rfl
  obtain ⟨hp, -, hr, -⟩ :=
    accepted_resolves_to_itself (.job .sliceable) 0 .ownInventory hc ⟨5⟩ .manual default
  exact ⟨hc, by decide, hp, hr⟩

end JobLaunch
