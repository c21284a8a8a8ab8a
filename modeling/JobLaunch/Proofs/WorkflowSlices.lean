import JobLaunch.Proofs.RelaunchChains
import JobLaunch.Proofs.SliceShares
/-!
The jobs of a workflow. A launch makes one job for each slice of its workflow, all of them alike,
and the store lists the jobs of a workflow in the order of their slices.
-/
namespace JobLaunch

/-- Plans of launches of a type. A sliced plan has one job for each slice of its workflow, and its
jobs are equal apart from the slice. -/
inductive LaunchPlan.LaunchedAs (type : LaunchType) : LaunchPlan → Prop
  | single {spec : JobSpec} (h : spec.launchType = type) : LaunchedAs type (.single spec)
  | system {spec : SystemJobSpec} (h : spec.launchType = type) : LaunchedAs type (.system spec)
  | sliced {w : WorkflowSpec} {spec : JobSpec} (h : spec.launchType = type) :
    LaunchedAs type (.sliced w ((Slice.parts w.sliceCount).map fun slice => { spec with slice }))

theorem LaunchPlan.LaunchedAs.limitedTo {type : LaunchType} {plan : LaunchPlan}
    (h : plan.LaunchedAs type) (limit : Option String) :
    (plan.limitedTo limit).LaunchedAs type := by
  cases limit with
  | none => exact h
  | some limit =>
    cases h with
    | single h => exact .single h
    | system h => exact .system h
    | @sliced w spec h =>
      have hs : (LaunchPlan.sliced w ((Slice.parts w.sliceCount).map fun slice =>
          { spec with slice })).limitedTo (some limit) =
          .sliced w ((Slice.parts w.sliceCount).map fun slice =>
            { spec with options := { spec.options with limit }, slice }) :=
        congrArg (LaunchPlan.sliced w) (List.map_map ..)
      have hl : ({ spec with options := { spec.options with limit } } : JobSpec).launchType =
        type := h
      rw [hs]
      exact .sliced hl

theorem Template.launchedAs_plan (t : Template) (res : Resolution) (r : LaunchRequest) :
    (t.plan res r).LaunchedAs r.launchType := by
  cases t with
  | system t => exact .system rfl
  | job t =>
    change (t.plan res r).LaunchedAs r.launchType
    rcases t.plan_cases res r with ⟨-, h⟩ | ⟨-, -, h⟩ | ⟨-, -, h⟩
    · rw [h]
      exact .single rfl
    · rw [h]
      exact .single rfl
    · rw [h]
      have hl : (t.jobSpec res r).launchType = r.launchType := rfl
      exact .sliced hl

namespace Service
variable {stamp : Stamp} {plan : LaunchPlan} {j : Job}

/-- A job of a plan is a new job below the plan's workflow, if there is one. -/
theorem of_mem_records (h : j ∈ (records stamp plan).1) :
    ∃ i, j = .pending (stamp.jobId i) j.definition ((records stamp plan).2.map (·.id))
      stamp.now := by
  cases plan with
  | single spec =>
    rw [List.mem_singleton.mp h]
    exact ⟨0, rfl⟩
  | system spec =>
    rw [List.mem_singleton.mp h]
    exact ⟨0, rfl⟩
  | sliced w slices =>
    obtain ⟨i, hi, rfl⟩ := List.mem_mapIdx.mp h
    exact ⟨i, rfl⟩

theorem launchType_of_mem_records {type : LaunchType} (hp : plan.LaunchedAs type)
    (h : j ∈ (records stamp plan).1) : j.launchType = type := by
  have hd : j.definition ∈ plan.definitions := by
    rw [← definitions_records stamp plan]
    exact List.mem_map_of_mem h
  obtain ⟨i, hj⟩ := of_mem_records h
  rw [hj]
  change j.definition.launchType = type
  cases hp with
  | single hs =>
    rw [List.mem_singleton.mp hd]
    exact hs
  | system hs =>
    rw [List.mem_singleton.mp hd]
    exact hs
  | sliced hs =>
    obtain ⟨spec, hspec, he⟩ := List.mem_map.mp hd
    obtain ⟨slice, -, rfl⟩ := List.mem_map.mp hspec
    rw [← he]
    exact hs

/-- The workflow of a plan is new, and the plan's jobs are its slices. -/
theorem of_workflow_records {type : LaunchType} (hp : plan.LaunchedAs type) {w : WorkflowJob}
    (h : (records stamp plan).2 = some w) : w.id = stamp.workflowId ∧ ∃ spec : JobSpec,
      (records stamp plan).1.map (·.definition) =
        (Slice.parts w.spec.sliceCount).map fun slice => .playbook { spec with slice } := by
  cases hp with
  | single hs => cases h
  | system hs => cases h
  | @sliced w spec hs =>
    cases h
    refine ⟨rfl, spec, ?_⟩
    rw [definitions_records]
    exact List.map_map

end Service

theorem Slice.numbers_parts (count : UInt32) :
    (Slice.parts count).map (·.number.toNat) = List.range' 1 count.toNat := by
  apply List.ext_getElem?
  intro k
  by_cases hk : k < count.toNat
  · rw [List.getElem?_map, getElem?_parts hk, List.getElem?_range' hk, Option.map_some,
      toNat_number_part hk]
    simp [Nat.add_comm]
  · have hn : count.toNat ≤ k := Nat.le_of_not_lt hk
    rw [List.getElem?_eq_none (by simpa [length_parts] using hn),
      List.getElem?_eq_none (by simpa using hn)]

theorem Slice.pairwise_parts (count : UInt32) :
    (Slice.parts count).Pairwise fun a b => a.number ≤ b.number := by
  have hsorted : ((Slice.parts count).map (·.number.toNat)).Pairwise (· ≤ ·) := by
    rw [numbers_parts]
    exact List.pairwise_le_range' _
  apply (List.pairwise_map.mp hsorted).imp
  intro a b hab
  exact UInt32.le_iff_toNat_le.mpr hab

/-- The number of the slice that runs; a system job has none and counts as zero. -/
def JobDefinition.sliceNumber (d : JobDefinition) : UInt32 :=
  (d.asPlaybook?.map (·.slice.number)).getD 0

/-- What the jobs of a workflow run, in the order of the jobs' creation. -/
def Store.workflowDefinitions (s : Store) (id : Id) : List JobDefinition :=
  (s.jobs.filter fun j => j.workflowId == some id).map (·.definition)

namespace Store
variable {s : Store} {id : Id}

theorem definitions_workflowJobs (s : Store) (id : Id) :
    (s.workflowJobs id).map (·.definition) =
      (s.workflowDefinitions id).mergeSort fun a b => a.sliceNumber ≤ b.sliceNumber := by
  apply List.map_mergeSort
  intro a _ b _
  rfl

/-- Slices that are created in order stay in order. -/
theorem definitions_workflowJobs_of_parts {count : UInt32} {spec : JobSpec}
    (h : s.workflowDefinitions id =
      (Slice.parts count).map fun slice => .playbook { spec with slice }) :
    (s.workflowJobs id).map (·.definition) =
      (Slice.parts count).map fun slice => .playbook { spec with slice } := by
  rw [definitions_workflowJobs, h]
  apply List.mergeSort_of_pairwise
  apply List.pairwise_map.mpr
  apply (Slice.pairwise_parts count).imp
  intro a b hab
  exact decide_eq_true hab

end Store
end JobLaunch
