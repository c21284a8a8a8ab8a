import JobLaunch.Proofs.JobResolution
import JobLaunch.Proofs.PlannedSpecs
/-!
What a plan makes of a template. Every job has the accepted overrides in the place of the template's
own values, and everything else as the template has it, whatever was accepted and however the launch
is sliced.
-/
namespace JobLaunch

def unassigned {α : Type} (id : α → Id) (assigned items : List α) : List α :=
  (items.filter fun x => id x ∉ assigned.map id).eraseDupsBy fun x y => id x == id y

theorem novel_eq_unassigned {α : Type} (id : α → Id) (assigned items : List α) :
    novel id (.ofList (assigned.map id)) items = unassigned id assigned items := by
  rw [novel_eq_eraseDupsBy]
  simp [unassigned]

theorem credentialDelta_eq (assigned items : List Credential) :
    credentialDelta assigned items = unassigned (·.id) assigned items :=
  novel_eq_unassigned _ _ _

theorem idDelta_eq (assigned items : List Id) :
    idDelta assigned items = unassigned (fun i => i) assigned items := by
  rw [← novel_eq_unassigned, List.map_id']
  rfl

/-- Whether a job is a template with overrides in the place of the template's own values, and with
nothing else changed. -/
structure JobSpec.Overlays (spec : JobSpec) (t : JobTemplate) (o : Overrides) : Prop where
  limit : spec.options.limit = o.limit.getD t.options.limit
  jobTags : spec.options.jobTags = o.jobTags.getD t.options.jobTags
  skipTags : spec.options.skipTags = o.skipTags.getD t.options.skipTags
  jobType : spec.options.jobType = o.jobType.getD t.options.jobType
  verbosity : spec.options.verbosity = o.verbosity.getD t.options.verbosity
  diffMode : spec.options.diffMode = o.diffMode.getD t.options.diffMode
  forks : spec.options.forks = o.forks.getD t.options.forks
  timeout : spec.options.timeout = o.timeout.getD t.options.timeout
  scmBranch : spec.options.scmBranch = o.scmBranch.getD t.options.scmBranch
  inventory : spec.inventory = o.inventory.or t.inventory
  executionEnvironment : spec.executionEnvironment =
    o.executionEnvironment.or t.executionEnvironment
  /-- Credentials and labels are added to; instance groups are those of the overrides or none. -/
  credentials : spec.credentials =
    t.credentials ++ unassigned (·.id) t.credentials (o.credentials.getD [])
  labels : spec.labels = t.labels ++ unassigned (fun i => i) t.labels (o.labels.getD [])
  instanceGroups : spec.instanceGroups = o.instanceGroups
  /-- Accepted variables win over the template's own, and no variable comes from elsewhere but the
  survey's defaults. -/
  accepted : ∀ (k : String) (v : Value), o.vars[k]? = some v → spec.options.extraVars[k]? = some v
  own : ∀ (k : String) (v : Value), o.vars[k]? = none → t.options.extraVars[k]? = some v →
    spec.options.extraVars[k]? = some v
  origin : ∀ (k : String) (v : Value), spec.options.extraVars[k]? = some v →
    o.vars[k]? = some v ∨ t.options.extraVars[k]? = some v ∨
      ∃ q ∈ t.activeQuestions, q.varName = k ∧ q.effectiveDefault = some v
  playbook : spec.options.playbook = t.options.playbook
  startAtTask : spec.options.startAtTask = t.options.startAtTask
  forceHandlers : spec.options.forceHandlers = t.options.forceHandlers
  becomeEnabled : spec.options.becomeEnabled = t.options.becomeEnabled
  allowSimultaneous : spec.options.allowSimultaneous = t.options.allowSimultaneous
  useFactCache : spec.options.useFactCache = t.options.useFactCache
  project : spec.project = t.project
  name : spec.name = t.name
  templateId : spec.templateId = t.id
  preventFallback : spec.preventFallback = t.preventFallback

namespace JobTemplate
variable {t : JobTemplate} {res : Resolution} {r : LaunchRequest} {k : String} {v : Value}

theorem mem_of_defaultFor (h : t.defaultFor k = some v) :
    ∃ q ∈ t.activeQuestions, q.varName = k ∧ q.effectiveDefault = some v := by
  obtain ⟨q, hq, hd⟩ := List.exists_of_findSome?_eq_some h
  rw [Option.ite_none_right_eq_some] at hd
  exact ⟨q, hq, hd⟩

theorem origin_of_getElem?_jobSpec (h : (t.jobSpec res r).options.extraVars[k]? = some v) :
    res.accepted.vars[k]? = some v ∨ t.options.extraVars[k]? = some v ∨
      ∃ q ∈ t.activeQuestions, q.varName = k ∧ q.effectiveDefault = some v := by
  rw [getElem?_jobSpec, Option.or_eq_some_iff, Option.or_eq_some_iff] at h
  rcases h with (ha | ⟨-, ho⟩) | ⟨-, hd⟩
  · exact Or.inl ha
  · exact Or.inr (Or.inl ho)
  · exact Or.inr (Or.inr (mem_of_defaultFor hd))

/-- The job on all hosts overlays the template. -/
theorem overlays_jobSpec (t : JobTemplate) (res : Resolution) (r : LaunchRequest) :
    (t.jobSpec res r).Overlays t res.accepted where
  limit := rfl
  jobTags := rfl
  skipTags := rfl
  jobType := rfl
  verbosity := rfl
  diffMode := rfl
  forks := rfl
  timeout := rfl
  scmBranch := rfl
  inventory := rfl
  executionEnvironment := rfl
  credentials := congrArg (t.credentials ++ ·) (credentialDelta_eq _ _)
  labels := congrArg (t.labels ++ ·) (idDelta_eq _ _)
  instanceGroups := rfl
  accepted _ _ ha := getElem?_jobSpec_of_accepted ha
  own _ _ ha ho := getElem?_jobSpec_of_own ha ho
  origin _ _ h := origin_of_getElem?_jobSpec h
  playbook := rfl
  startAtTask := rfl
  forceHandlers := rfl
  becomeEnabled := rfl
  allowSimultaneous := rfl
  useFactCache := rfl
  project := rfl
  name := rfl
  templateId := rfl
  preventFallback := rfl

end JobTemplate

/-- Which slice a job is makes no other difference to it. -/
theorem JobSpec.Overlays.slice {spec : JobSpec} {t : JobTemplate} {o : Overrides}
    (h : spec.Overlays t o) (slice : Slice) : { spec with slice }.Overlays t o :=
  { h with }

/-- A plan has a job, and each of its jobs is the template with the accepted overrides in place, one
slice like the other. -/
theorem planned_overlays_accepted (t : JobTemplate) (res : Resolution) (r : LaunchRequest) :
    ((Template.job t).plan res r).jobSpecs ≠ [] ∧
      ∀ spec ∈ ((Template.job t).plan res r).jobSpecs, spec.Overlays t res.accepted := by
  refine ⟨t.jobSpecs_plan_ne_nil res r, fun spec hs => ?_⟩
  rw [(JobTemplate.of_mem_jobSpecs_plan hs).2]
  exact (t.overlays_jobSpec res r).slice _

def JobTemplate.sampleOwning : JobTemplate :=
  { JobTemplate.sample [] with
    options := { limit := "all", extraVars := Table.ofEntries [("a", .text "own")] }
    labels := [⟨5⟩]
    sliceCount := 2 }

def Resolution.sampleAccepting : Resolution where
  accepted := ((((∅ : Overrides).set .limit (some "web")).set .labels (some [⟨6⟩, ⟨5⟩, ⟨6⟩])).set
    .instanceGroups (some [])).set .extraVars (some (Table.ofEntries [("b", .text "new")] : Vars))

/-- The second slice has the accepted limit, the new label once, no instance groups rather than the
template's, and both variables. -/
theorem second_slice_overlaid :
    ∃ spec ∈ ((Template.job .sampleOwning).plan .sampleAccepting {}).jobSpecs,
    spec.slice = ⟨2, 2⟩ ∧ spec.Overlays .sampleOwning Resolution.sampleAccepting.accepted ∧
      spec.options.limit = "web" ∧ spec.labels = [⟨5⟩, ⟨6⟩] ∧ spec.instanceGroups = some [] ∧
      spec.options.extraVars["a"]? = some (.text "own") ∧
      spec.options.extraVars["b"]? = some (.text "new") := by
  have hs : { JobTemplate.sampleOwning.jobSpec .sampleAccepting {} with slice := ⟨2, 2⟩ } ∈
      ((Template.job .sampleOwning).plan .sampleAccepting {}).jobSpecs :=
    List.mem_cons_of_mem _ List.mem_cons_self
  have h := (planned_overlays_accepted .sampleOwning .sampleAccepting {}).2 _ hs
  exact ⟨_, hs, rfl, h, h.limit, h.labels, h.instanceGroups, h.own _ _ (by decide) (by decide),
    h.accepted _ _ (by decide)⟩

end JobLaunch
