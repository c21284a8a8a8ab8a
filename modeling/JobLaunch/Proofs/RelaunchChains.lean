import JobLaunch.Proofs.ReplayedOverrides
import JobLaunch.Proofs.StoreRuns
/-!
Chains of relaunches. A relaunched job differs from the one before in its launch type, its limit and
its slice only: the limit is the one that is recorded, and a job that is no slice is planned anew. So
a relaunch is faithful when limit and slice of the job are those of its record, and not otherwise.
-/
namespace JobLaunch

namespace LaunchPlan

def definitions : LaunchPlan → List JobDefinition
  | system spec => [.system spec]
  | plan => plan.jobSpecs.map .playbook

/-- A limit that is put on a plan is the limit of every playbook job. -/
theorem jobSpecs_limitedTo (plan : LaunchPlan) (limit : Option String) :
    (plan.limitedTo limit).jobSpecs = plan.jobSpecs.map fun spec =>
      { spec with options := { spec.options with limit := limit.getD spec.options.limit } } := by
  cases limit with
  | none => simp [limitedTo]
  | some limit =>
    cases plan with
    | single spec => rfl
    | sliced workflow slices => rfl
    | system spec => rfl

theorem mem_jobSpecs_of_mem_definitions {plan : LaunchPlan} {spec : JobSpec}
    (h : .playbook spec ∈ plan.definitions) : spec ∈ plan.jobSpecs := by
  cases plan with
  | system s => simp [definitions] at h
  | single s => simpa [definitions] using h
  | sliced workflow slices => simpa [definitions] using h

end LaunchPlan

namespace Service

theorem definitions_records (stamp : Stamp) (plan : LaunchPlan) :
    (records stamp plan).1.map (·.definition) = plan.definitions := by
  cases plan with
  | single spec => rfl
  | system spec => rfl
  | sliced workflow slices =>
    refine List.ext_getElem (by simp [records, LaunchPlan.definitions, LaunchPlan.jobSpecs]) ?_
    intro i _ _
    simp [records, LaunchPlan.definitions, LaunchPlan.jobSpecs, Job.pending]

theorem templateId_of_mem_records {stamp : Stamp} {plan : LaunchPlan} {j : Job}
    (h : j ∈ (records stamp plan).1) : j.templateId = j.definition.templateId := by
  cases plan with
  | single spec =>
    rw [List.mem_singleton.mp h]
    rfl
  | system spec =>
    rw [List.mem_singleton.mp h]
    rfl
  | sliced workflow slices =>
    obtain ⟨i, hi, rfl⟩ := List.mem_mapIdx.mp h
    rfl

end Service

namespace JobTemplate
variable {t : JobTemplate} {m m' : UInt32} {r : LaunchRequest} {c : LaunchConfig} {job : Job}
  {pw : Table String}

theorem definitions_plan (t : JobTemplate) (res : Resolution) (r : LaunchRequest)
    (limit : Option String) : ((t.plan res r).limitedTo limit).definitions =
      ((t.plan res r).limitedTo limit).jobSpecs.map .playbook := by
  unfold plan
  simp only []
  split
  · cases limit <;> rfl
  · split <;> cases limit <;> rfl

/-- The slices of the jobs that a relaunch creates: a slice stays the slice it is, anything else is
sliced as what is recorded says. -/
def replaySlices (t : JobTemplate) (c : LaunchConfig) (slice : Slice) : List Slice :=
  if slice.isSliced then [slice]
  else if t.effectiveSliceCount c.overrides ≤ 1 then [.whole]
  else Slice.parts (t.effectiveSliceCount c.overrides)

/-- A job as it is relaunched: with the recorded limit, and a slice of its own. -/
def replaySpec (t : JobTemplate) (c : LaunchConfig) (spec : JobSpec) (slice : Slice) : JobSpec :=
  { spec with
    launchType := .relaunch
    options := { spec.options with limit := c.overrides.limit.getD t.options.limit }
    slice }

variable (hc : c.overrides = (t.resolution m r).accepted)
  (hl : (t.resolution m' (Service.replayRequest job c pw)).launchable)
include hc hl

theorem jobSpec_replay : t.jobSpec (t.resolution m' (Service.replayRequest job c pw))
    (Service.replayRequest job c pw) =
      { t.jobSpec (t.resolution m r) r with
        launchType := .relaunch
        options := { (t.jobSpec (t.resolution m r) r).options with
          limit := (Service.replayRequest job c pw).overrides.limit.getD t.options.limit } } := by
  simp only [jobSpec, accepted_replay hc hl, surveyPasswords_replay hc]
  unfold Service.replayRequest
  rw [hc]
  split <;> rfl

/-- How a relaunch slices what it creates does not depend on the limit. -/
theorem slices_replay {spec : JobSpec} (hs : job.spec? = some spec) :
    t.slices (t.resolution m' (Service.replayRequest job c pw)).accepted
      (Service.replayRequest job c pw) = t.replaySlices c spec.slice := by
  have hn : t.effectiveSliceCount (Service.replayRequest job c pw).overrides =
      t.effectiveSliceCount c.overrides := by
    unfold Service.replayRequest
    split <;> rfl
  rw [accepted_replay hc hl, slices, hn, replaySlices]
  unfold Service.replayRequest
  simp only [hs, Option.map_some]
  by_cases hslice : spec.slice.isSliced
  · simp [hslice, Option.filter_some]
  · simp [hslice, Option.filter_some]

/-- The jobs of a relaunch are the job that is relaunched, but for launch type, limit and slice. -/
theorem definitions_replay {spec : JobSpec} (hs : job.spec? = some spec) {limit : String}
    {slice : Slice} (hspec : spec = { t.jobSpec (t.resolution m r) r with
      options := { (t.jobSpec (t.resolution m r) r).options with limit }, slice }) :
    ((t.plan (t.resolution m' (Service.replayRequest job c pw))
      (Service.replayRequest job c pw)).limitedTo c.callbackLimit).definitions =
      (t.replaySlices c spec.slice).map fun slice => .playbook (t.replaySpec c spec slice) := by
  have hlim : c.callbackLimit.getD
      ((Service.replayRequest job c pw).overrides.limit.getD t.options.limit) =
        c.overrides.limit.getD t.options.limit := by
    have hg := get_replayRequest job c pw .limit
    change (Service.replayRequest job c pw).overrides.limit = _ at hg
    rw [hg, LaunchConfig.callbackLimit]
    by_cases hcb : c.launchType = .callback
    · simp only [hcb, and_self, if_true]
      cases c.overrides.limit <;> rfl
    · simp only [hcb, and_false, if_false]
      rfl
  rw [definitions_plan, LaunchPlan.jobSpecs_limitedTo, jobSpecs_plan, slices_replay hc hl hs,
    List.map_map, List.map_map, jobSpec_replay hc hl]
  refine List.map_congr_left fun slice _ => ?_
  simp only [Function.comp_apply, hlim, replaySpec]
  rw [hspec]

end JobTemplate

/-- Whether a job's limit and slice are those that are recorded of it. -/
def JobSpec.Recorded (spec : JobSpec) (t : JobTemplate) (c : LaunchConfig) : Prop :=
  spec.options.limit = c.overrides.limit.getD t.options.limit ∧
    (spec.slice.isSliced ∨ spec.slice = .whole ∧ t.effectiveSliceCount c.overrides ≤ 1)

theorem JobTemplate.replaySlices_eq_singleton {t : JobTemplate} {c : LaunchConfig} {slice : Slice} :
    t.replaySlices c slice = [slice] ↔
      slice.isSliced ∨ slice = .whole ∧ t.effectiveSliceCount c.overrides ≤ 1 := by
  unfold replaySlices
  split
  · rename_i h
    simp [h]
  · rename_i h
    split
    · rename_i hc
      simp [h, hc, eq_comm]
    · rename_i hc
      have hne : Slice.parts (t.effectiveSliceCount c.overrides) ≠ [slice] := by
        intro hp
        have hlen := congrArg List.length hp
        rw [Slice.parts, List.length_map, List.length_range, List.length_singleton] at hlen
        exact hc (UInt32.le_iff_toNat_le.mpr (by rw [hlen]; decide))
      simp [h, hc, hne]

/-- Only what is recorded is relaunched as it is. -/
theorem JobSpec.recorded_iff {spec : JobSpec} {t : JobTemplate} {c : LaunchConfig} :
    ((t.replaySlices c spec.slice).map fun slice =>
        JobDefinition.playbook (t.replaySpec c spec slice)) =
      [.playbook { spec with launchType := .relaunch }] ↔ spec.Recorded t c := by
  constructor
  · intro h
    obtain ⟨slice, hs, he⟩ := List.map_eq_singleton_iff.mp h
    have he := JobDefinition.playbook.inj he
    have hslice : slice = spec.slice := congrArg JobSpec.slice he
    have hlim := congrArg (·.options.limit) he
    subst hslice
    exact ⟨hlim.symm, JobTemplate.replaySlices_eq_singleton.mp hs⟩
  · rintro ⟨hlim, hs⟩
    rw [JobTemplate.replaySlices_eq_singleton.mpr hs, List.map_singleton, JobTemplate.replaySpec,
      ← hlim]

/-- Whether an operation records the limit and the slice of what it launches: a launch that may be
sliced does, and so does a relaunch on all hosts of a job whose record is not that of a callback. -/
def Operation.Records (s : Store) : Operation → Prop
  | .launch _ _ _ r => r.preventSlicing = false
  | .relaunch _ stamp id r => r.hosts = none ∧
    ∀ i, s.findJob? id = some i → (s.configOf i stamp.now).launchType ≠ .callback
  | _ => True

/-- A job that need not be planned in one piece is a slice, or there is nothing to slice. -/
theorem JobTemplate.isSliced_or_whole {t : JobTemplate} {o : Overrides} {r : LaunchRequest}
    {slice : Slice} (h : slice ∈ t.slices o r)
    (hp : r.preventSlicing → (r.pinnedSlice.getD .whole).isSliced) :
    slice.isSliced ∨ slice = .whole ∧ t.effectiveSliceCount o ≤ 1 := by
  unfold slices at h
  split at h
  · rename_i hs
    rw [List.mem_singleton.mp h]
    exact Or.inl (hp hs)
  · split at h
    · exact Or.inr ⟨List.mem_singleton.mp h, ‹_›⟩
    · rename_i hc
      obtain ⟨i, -, rfl⟩ := List.mem_map.mp h
      exact Or.inl (decide_eq_true (UInt32.not_le.mp hc))

/-- A job of a plan, with the limit that is put on it. -/
theorem JobTemplate.of_mem_jobSpecs_limitedTo {t : JobTemplate} {res : Resolution}
    {r : LaunchRequest} {limit : Option String} {spec : JobSpec}
    (h : spec ∈ ((t.plan res r).limitedTo limit).jobSpecs) :
    spec.slice ∈ t.slices res.accepted r ∧
      spec = { t.jobSpec res r with
        options := { (t.jobSpec res r).options with
          limit := limit.getD (res.accepted.limit.getD t.options.limit) }
        slice := spec.slice } := by
  rw [LaunchPlan.jobSpecs_limitedTo] at h
  obtain ⟨s, hs, rfl⟩ := List.mem_map.mp h
  obtain ⟨hmem, he⟩ := of_mem_jobSpecs_plan hs
  refine ⟨hmem, ?_⟩
  rw [he]
  rfl

/-- What an operation that records limit and slice launches is as recorded. -/
theorem Operation.recorded_of_records {s : Store} {op : Operation} {config : Config} {stamp : Stamp}
    {t : JobTemplate} {r : LaunchRequest} {limit : Option String}
    (hlaunch : op.Launches s config stamp (.job t) r limit) (h : op.Records s) {res : Resolution}
    {spec : JobSpec} (hs : spec ∈ ((t.plan res r).limitedTo limit).jobSpecs) {c : LaunchConfig}
    (hc : c.overrides = res.accepted) : spec.Recorded t c := by
  obtain ⟨hmem, he⟩ := JobTemplate.of_mem_jobSpecs_limitedTo hs
  have hlim : spec.options.limit = limit.getD (res.accepted.limit.getD t.options.limit) :=
    congrArg (·.options.limit) he
  rw [← hc] at hmem hlim
  cases hlaunch with
  | launch ht =>
    have hp : r.preventSlicing = false := h
    exact ⟨hlim, JobTemplate.isSliced_or_whole hmem (by simp [hp])⟩
  | relaunch hj ht hl =>
    obtain ⟨hhosts, hrecord⟩ := h
    rename_i id request job
    have hn : limit = none := by
      rw [hl hhosts, LaunchConfig.callbackLimit, if_neg (hrecord job hj)]
    subst hn
    refine ⟨hlim, JobTemplate.isSliced_or_whole hmem ?_⟩
    intro hp
    -- a replay prevents slicing only to keep the slice of a job that is one
    obtain ⟨slice, hslice⟩ := Option.isSome_iff_exists.mp hp
    obtain ⟨-, hsliced⟩ := Option.filter_eq_some_iff.mp hslice
    have hpin : (Service.replayRequest job (s.configOf job stamp.now)
        request.credentialPasswords).pinnedSlice = some slice := hslice
    rw [hpin]
    exact hsliced

/-- A playbook job that an operation creates comes from a job template, which is the job's own. -/
theorem Operation.template_of_created {s : Store} (hs : s.Keyed) {op : Operation} {j : Job}
    {spec : JobSpec} (hn : s.findJob? j.id = none) (hj : (op.apply s).findJob? j.id = some j)
    (hd : j.definition = .playbook spec) : ∃ config stamp t r limit,
      op.Launches s config stamp (.job t) r limit ∧
      (op.apply s).templates[j.templateId]? = some (.job t) ∧
      spec ∈ ((t.plan (t.resolution config.maxForks r) r).limitedTo limit).jobSpecs ∧
      (op.apply s).launchConfigs[j.id]? =
        some (.capture j.id r.launchType (t.resolution config.maxForks r) stamp.now) := by
  obtain ⟨config, stamp, T, r, limit, hlaunch, htemplates, hmem, hconfig⟩ :=
    (op.effect s).launches_of_created hn hj
  have hdef := List.mem_map_of_mem (f := (·.definition)) hmem
  rw [Service.definitions_records, hd] at hdef
  cases T with
  | system t =>
    cases limit <;> simp [Template.plan, LaunchPlan.limitedTo, LaunchPlan.withLimit,
      LaunchPlan.definitions] at hdef
  | job t =>
    have hspec := LaunchPlan.mem_jobSpecs_of_mem_definitions hdef
    refine ⟨config, stamp, t, r, limit, hlaunch, ?_, hspec, hconfig⟩
    have hid : j.templateId = t.id := by
      rw [Service.templateId_of_mem_records hmem, hd]
      exact congrArg JobSpec.templateId (JobTemplate.of_mem_jobSpecs_limitedTo hspec).2
    rw [htemplates, hid]
    exact hlaunch.template hs

/-- A relaunch replays what is recorded of a job, on the template that is stored under the job's
template id. -/
theorem Service.definitions_relaunch {s s' : Store} {j : Job} {t : JobTemplate} {c : LaunchConfig}
    (hj : ∃ i, s.findJob? j.id = some i ∧ i.templateId = j.templateId ∧ i.definition = j.definition)
    (ht : s.templates[j.templateId]? = some (.job t)) (hc : s.launchConfigs[j.id]? = some c)
    {config : Config} {stamp : Stamp} {passwords : Table String} {outcome : LaunchOutcome}
    (h : (relaunch config stamp j.id ⟨none, passwords⟩).exec s = (.ok outcome, s')) :
    ∃ i, i.definition = j.definition ∧
      (t.resolution config.maxForks (replayRequest i c passwords)).launchable ∧
      outcome.jobs.map (·.definition) =
        ((t.plan (t.resolution config.maxForks (replayRequest i c passwords))
          (replayRequest i c passwords)).limitedTo c.callbackLimit).definitions := by
  obtain ⟨i, hi, hti, hdi⟩ := hj
  rcases relaunch_cases config stamp j.id ⟨none, passwords⟩ s with
    ⟨e, hs⟩ | ⟨i', T, limit, hi', hT, hlim, hl, -, hs⟩
  · rw [hs] at h
    cases h
  rw [hi, Option.some.injEq] at hi'
  subst hi'
  rw [hti, ht, Option.some.injEq] at hT
  subst hT
  have hrec : s.configOf i stamp.now = c := by
    rw [Store.configOf, Store.id_of_findJob? hi, hc, Option.getD_some]
  rw [hrec] at hl hs hlim
  rw [hs] at h
  refine ⟨i, hdi, hl, ?_⟩
  rw [of_exec_persist_eq_ok h, hlim rfl]
  exact definitions_records _ _

/-- A job of a run, relaunched on all hosts while its template is what it was, becomes itself again
but for launch type, limit and slice. It is relaunched faithfully exactly when its limit and its
slice are recorded, which operations do that neither prevent slicing, nor filter hosts, nor relaunch
the job of a callback. -/
theorem relaunch_of_created (before rest : List Operation) (op : Operation) {j : Job}
    {spec : JobSpec} (hn : ((∅ : Store).after before).findJob? j.id = none)
    (hj : (op.apply ((∅ : Store).after before)).findJob? j.id = some j)
    (hd : j.definition = .playbook spec)
    (ht : ((op.apply ((∅ : Store).after before)).after rest).templates[j.templateId]? =
      (op.apply ((∅ : Store).after before)).templates[j.templateId]?)
    {config : Config} {stamp : Stamp} {passwords : Table String} {outcome : LaunchOutcome} {s : Store}
    (h : (Service.relaunch config stamp j.id ⟨none, passwords⟩).exec
      ((op.apply ((∅ : Store).after before)).after rest) = (.ok outcome, s)) :
    ∃ t c, (op.apply ((∅ : Store).after before)).templates[j.templateId]? = some (.job t) ∧
      (op.apply ((∅ : Store).after before)).launchConfigs[j.id]? = some c ∧
      outcome.jobs.map (·.definition) =
        (t.replaySlices c spec.slice).map (fun slice => .playbook (t.replaySpec c spec slice)) ∧
      (outcome.jobs.map (·.definition) = [.playbook { spec with launchType := .relaunch }] ↔
        spec.Recorded t c) ∧
      (op.Records ((∅ : Store).after before) → spec.Recorded t c) := by
  obtain ⟨config₀, stamp₀, t, r, limit, hlaunch, ht₁, hspec, hc₁⟩ :=
    Operation.template_of_created (Store.keyed_after Store.keyed_empty before) hn hj hd
  have hkeeps := (op.apply ((∅ : Store).after before)).keeps_after rest
  obtain ⟨i, hdi, hl, hjobs⟩ := Service.definitions_relaunch (hkeeps.job hj) (ht.trans ht₁)
    ((hkeeps.config hj).trans hc₁) h
  have hs : i.spec? = some spec := by
    rw [Job.spec?, hdi, hd]
    rfl
  rw [JobTemplate.definitions_replay rfl hl hs (JobTemplate.of_mem_jobSpecs_limitedTo hspec).2]
    at hjobs
  refine ⟨t, _, ht₁, hc₁, hjobs, ?_, fun ho => Operation.recorded_of_records hlaunch ho hspec rfl⟩
  rw [hjobs]
  exact JobSpec.recorded_iff

def Operation.callbackRun : List Operation := [
  .saveTemplate (.job (.sample [.limit])),
  .launch default ⟨default, ⟨10⟩, fun i => ⟨.ofNat 128 (11 + i)⟩⟩ ⟨1⟩
    { overrides := (∅ : Overrides).set .limit (some "web"), launchType := .callback }]

/-- The relaunch of the callback's job, which keeps the limit but does not record it. -/
def Operation.callbackRelaunch : Operation :=
  .relaunch default ⟨default, ⟨20⟩, fun i => ⟨.ofNat 128 (21 + i)⟩⟩ ⟨11⟩ {}

theorem limit_lost_by_second_relaunch : ∃ j spec outcome s,
    (Operation.callbackRelaunch.apply ((∅ : Store).after Operation.callbackRun)).findJob? j.id =
      some j ∧
    j.definition = .playbook spec ∧ spec.options.limit = "web" ∧
    (Service.relaunch default ⟨default, ⟨30⟩, fun i => ⟨.ofNat 128 (31 + i)⟩⟩ j.id {}).exec
      (Operation.callbackRelaunch.apply ((∅ : Store).after Operation.callbackRun)) =
        (.ok outcome, s) ∧
    outcome.jobs.map (·.definition) ≠ [.playbook { spec with launchType := .relaunch }] := by
  obtain ⟨j, hj, spec, hd, ht, hlim⟩ : ∃ j, (Operation.callbackRelaunch.apply
      ((∅ : Store).after Operation.callbackRun)).findJob? ⟨21⟩ = some j ∧ ∃ spec,
      j.definition = .playbook spec ∧ j.templateId = ⟨1⟩ ∧ spec.options.limit = "web" :=
    ⟨_, rfl, _, rfl, rfl, rfl⟩
  obtain ⟨outcome, s, h⟩ : ∃ outcome s, (Service.relaunch default
      ⟨default, ⟨30⟩, fun i => ⟨.ofNat 128 (31 + i)⟩⟩ ⟨21⟩ {}).exec
        (Operation.callbackRelaunch.apply ((∅ : Store).after Operation.callbackRun)) =
          (.ok outcome, s) := ⟨_, _, rfl⟩
  have hid := Store.id_of_findJob? hj
  rw [← hid] at hj h
  obtain ⟨t, c, ht₁, hc, -, hiff, -⟩ := relaunch_of_created Operation.callbackRun []
    Operation.callbackRelaunch (by rw [hid]; rfl) hj hd rfl h
  refine ⟨j, spec, outcome, s, hj, hd, hlim, h, fun hf => ?_⟩
  have hrec := (hiff.mp hf).1
  have hown : (Operation.callbackRelaunch.apply
      ((∅ : Store).after Operation.callbackRun)).templates[(⟨1⟩ : Id)]? =
        some (.job (.sample [.limit])) := rfl
  have hnone : ((Operation.callbackRelaunch.apply
      ((∅ : Store).after Operation.callbackRun)).launchConfigs[(⟨21⟩ : Id)]?).map
        (·.overrides.limit) = some none := rfl
  rw [ht, hown] at ht₁
  cases ht₁
  rw [← hid, hc, Option.map_some, Option.some.injEq] at hnone
  rw [hnone, hlim] at hrec
  exact absurd hrec (by decide)

end JobLaunch
