import JobLaunch.Proofs.SliceCounts
import JobLaunch.Proofs.SliceShares
/-!
Planned jobs cover the hosts of their inventory once. A sliced plan has as many jobs as its workflow
says, numbered in order and alike but for their slices, and never more than there are hosts; any
other plan is one job on all hosts, unless the request pins a slice.
-/
namespace JobLaunch

/-- Whether jobs are the slices of a workflow and share the hosts of its inventory. -/
structure WorkflowSpec.Covers (w : WorkflowSpec) (specs : List JobSpec) : Prop where
  several : 2 ≤ w.sliceCount.toNat
  length : specs.length = w.sliceCount.toNat
  numbered : ∀ i spec, specs[i]? = some spec →
    spec.slice.number.toNat = i + 1 ∧ spec.slice.count = w.sliceCount
  alike : ∀ spec ∈ specs, ∀ other ∈ specs, { spec with slice := other.slice } = other
  inventory : ∀ spec ∈ specs, spec.inventory = w.inventory
  extraVars : ∀ spec ∈ specs, spec.options.extraVars = w.extraVars
  fits : ∀ i, w.inventory = some i → w.sliceCount.toNat ≤ i.hostCount.toNat
  shares : ∀ i, w.inventory = some i → ∀ {α : Type} (hosts : List α),
    hosts.length = i.hostCount.toNat → Slice.Share (specs.map (·.slice)) hosts

/-- Whether the jobs of a plan cover all hosts, unless a request pins a slice. -/
def LaunchPlan.CoversHosts (r : LaunchRequest) : LaunchPlan → Prop
  | .sliced w specs => w.Covers specs
  | .single spec =>
    (spec.slice = .whole ∧ ∀ {α : Type} (hosts : List α), spec.slice.select hosts = hosts) ∨
      r.preventSlicing ∧ r.pinnedSlice = some spec.slice
  | .system _ => False

theorem filledSlices_le_hostCount (i : Inventory) (n : UInt32) :
    filledSlices (some i) n ≤ i.hostCount.toNat :=
  Nat.min_le_right _ _

/-- The slices of a job, however many, share the hosts of a workflow that they fit. -/
theorem WorkflowSpec.covers_parts {w : WorkflowSpec} {spec : JobSpec} (h2 : 2 ≤ w.sliceCount.toNat)
    (hi : spec.inventory = w.inventory) (hv : spec.options.extraVars = w.extraVars)
    (hfits : ∀ i, w.inventory = some i → w.sliceCount.toNat ≤ i.hostCount.toNat) :
    w.Covers ((Slice.parts w.sliceCount).map fun slice => { spec with slice }) where
  several := h2
  length := by rw [List.length_map, Slice.length_parts]
  numbered i other h := by
    rw [List.getElem?_map, Option.map_eq_some_iff] at h
    obtain ⟨slice, hs, rfl⟩ := h
    obtain ⟨hlt, -⟩ := List.getElem?_eq_some_iff.mp hs
    rw [Slice.length_parts] at hlt
    rw [Slice.getElem?_parts hlt, Option.some.injEq] at hs
    subst hs
    exact ⟨Slice.toNat_number_part hlt, rfl⟩
  alike a ha b hb := by
    obtain ⟨_, -, rfl⟩ := List.mem_map.mp ha
    obtain ⟨_, -, rfl⟩ := List.mem_map.mp hb
    rfl
  inventory a ha := by
    obtain ⟨_, -, rfl⟩ := List.mem_map.mp ha
    exact hi
  extraVars a ha := by
    obtain ⟨_, -, rfl⟩ := List.mem_map.mp ha
    exact hv
  fits := hfits
  shares i hw α hosts hl := by
    have hs : ((Slice.parts w.sliceCount).map fun slice => { spec with slice }).map (·.slice) =
        Slice.parts w.sliceCount := by
      rw [List.map_map]
      exact List.map_id _
    rw [hs]
    exact Slice.share_parts h2 (hl ▸ hfits i hw)

/-- The jobs of a request cover the hosts of their inventory, each once, unless the request pins a
slice. -/
theorem planned_covers_hosts (t : JobTemplate) (m : UInt32) (r : LaunchRequest) :
    ((Template.job t).planned m r).CoversHosts r := by
  show (t.plan (t.resolution m r) r).CoversHosts r
  rcases t.plan_cases (t.resolution m r) r with ⟨hp, hplan⟩ | ⟨-, -, hplan⟩ | ⟨-, h2, hplan⟩
  · rw [hplan]
    cases hs : r.pinnedSlice with
    | none => exact Or.inl ⟨rfl, fun hosts => Slice.select_whole hosts⟩
    | some slice => exact Or.inr ⟨hp, hs⟩
  · rw [hplan]
    exact Or.inl ⟨rfl, fun hosts => Slice.select_whole hosts⟩
  · rw [hplan]
    refine WorkflowSpec.covers_parts (w := t.workflowSpec (t.resolution m r) r) h2 rfl rfl
      fun i hi => ?_
    have hc : t.countedInventory (t.resolution m r).accepted = some i := by
      rw [JobTemplate.countedInventory_accepted]
      exact hi
    show (t.effectiveSliceCount (t.resolution m r).accepted).toNat ≤ _
    rw [JobTemplate.toNat_effectiveSliceCount, hc]
    exact filledSlices_le_hostCount i _

theorem three_slices_cover_hosts :
    ∃ w specs, (Template.job (.sample [.jobSliceCount])).planned 0 .inThree = .sliced w specs ∧
      w.sliceCount = 3 ∧ w.Covers specs ∧
      specs.map (fun spec => spec.slice.select ["a", "b", "c", "d"]) =
        [["a", "d"], ["b"], ["c"]] := by
  have hcovers := planned_covers_hosts (.sample [.jobSliceCount]) 0 .inThree
  have hplan : (Template.job (.sample [.jobSliceCount])).planned 0 .inThree =
      .sliced _ ((Slice.parts 3).map fun slice =>
        { (JobTemplate.sample [.jobSliceCount]).jobSpec
            ((JobTemplate.sample [.jobSliceCount]).resolution 0 .inThree) .inThree with slice }) :=
    rfl
  rw [hplan] at hcovers
  refine ⟨_, _, hplan, by decide, hcovers, ?_⟩
  have hparts : Slice.parts 3 = [⟨1, 3⟩, ⟨2, 3⟩, ⟨3, 3⟩] := by decide
  rw [List.map_map, hparts]
  simp [Slice.select, Slice.isSliced, Slice.everyNth]

end JobLaunch
