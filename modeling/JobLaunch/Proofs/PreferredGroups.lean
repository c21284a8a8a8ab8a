import JobLaunch.Placement
import JobLaunch.Proofs.SelectionDelta
/-!
Where the instance groups of a job come from. Without a choice at launch they are the groups of the
template, the inventory and the organization, in this order and each once, down to the first that
stops the search.
-/
namespace JobLaunch

namespace GroupLevel
variable {levels : List GroupLevel} {i : Id}

def searched (levels : List GroupLevel) : List GroupLevel :=
  levels.take (levels.findIdx (·.stops) + 1)

theorem reached_eq_flatMap (levels : List GroupLevel) :
    reached levels = (searched levels).flatMap (·.groups) := by
  induction levels with
  | nil => rfl
  | cons level levels ih =>
    rw [reached, searched, List.take_succ_cons, List.flatMap_cons, List.findIdx_cons]
    cases level.stops with
    | true => rfl
    | false =>
      rw [ih, searched]
      rfl

/-- The groups of the searched levels, each where it comes first. -/
def union (levels : List GroupLevel) : List Id :=
  ((searched levels).flatMap (·.groups)).eraseDups

theorem novel_reached (levels : List GroupLevel) : novel id ∅ (reached levels) = union levels := by
  rw [novel_eq_eraseDupsBy, List.filter_eq_self.mpr (by simp), reached_eq_flatMap]
  rfl

theorem reached_append (above below : List GroupLevel) : reached (above ++ below) =
    reached above ++ if above.any (·.stops) then [] else reached below := by
  induction above with
  | nil => rfl
  | cons level above ih =>
    rw [List.cons_append, reached, reached, List.any_cons, ih]
    cases level.stops with
    | true => simp
    | false => simp

theorem mem_reached_append {above below : List GroupLevel} : i ∈ reached (above ++ below) ↔
    i ∈ reached above ∨ (above.any (·.stops) = false ∧ i ∈ reached below) := by
  rw [reached_append, List.mem_append]
  cases above.any (·.stops) <;> simp

theorem mem_reached_toList {level? : Option GroupLevel} :
    i ∈ reached level?.toList ↔ ∃ level, level? = some level ∧ i ∈ level.groups := by
  cases level? <;> simp [reached]

end GroupLevel

/-- Whether a group is among those of the template, of the inventory or of the organization, and
neither the job nor the inventory stops the search before. The job's own stop is for what comes after
the template, so it counts only when there is one. -/
inductive JobSpec.Offers (s : JobSpec) (template : Option JobTemplate)
    (organization : Option Organization) (i : Id) : Prop where
  | template {t : JobTemplate} (ht : template = some t) (hi : i ∈ t.instanceGroups)
  | inventory {v : Inventory} (hv : s.inventory = some v)
      (hs : template.isSome → s.preventFallback = false) (hi : i ∈ v.instanceGroups)
  | organization {o : Organization} (ho : organization = some o)
      (hs : template.isSome → s.preventFallback = false)
      (hv : ∀ v, s.inventory = some v → v.preventFallback = false) (hi : i ∈ o.instanceGroups)

theorem JobSpec.mem_reached_groupLevels {s : JobSpec} {template : Option JobTemplate}
    {organization : Option Organization} {i : Id} :
    i ∈ GroupLevel.reached (s.groupLevels template organization) ↔
      s.Offers template organization i := by
  have htemplate : ((template.map fun t => GroupLevel.mk t.instanceGroups
      s.preventFallback).toList.any (·.stops)) = false ↔
        (template.isSome → s.preventFallback = false) := by
    cases template <;> simp
  have hinventory : ((s.inventory.map fun v => GroupLevel.mk v.instanceGroups
      v.preventFallback).toList.any (·.stops)) = false ↔
        ∀ v, s.inventory = some v → v.preventFallback = false := by
    cases s.inventory <;> simp
  rw [groupLevels, GroupLevel.mem_reached_append, GroupLevel.mem_reached_append, List.any_append,
    Bool.or_eq_false_iff, htemplate, hinventory]
  simp only [GroupLevel.mem_reached_toList, Option.map_eq_some_iff]
  constructor
  · rintro ((⟨_, ⟨t, ht, rfl⟩, hi⟩ | ⟨hs, _, ⟨v, hv, rfl⟩, hi⟩) | ⟨⟨hs, hv⟩, _, ⟨o, ho, rfl⟩, hi⟩)
    · exact .template ht hi
    · exact .inventory hv hs hi
    · exact .organization ho hs hv hi
  · rintro (⟨ht, hi⟩ | ⟨hv, hs, hi⟩ | ⟨ho, hs, hv, hi⟩)
    · exact .inl (.inl ⟨_, ⟨_, ht, rfl⟩, hi⟩)
    · exact .inl (.inr ⟨hs, _, ⟨_, hv, rfl⟩, hi⟩)
    · exact .inr ⟨⟨hs, hv⟩, _, ⟨_, ho, rfl⟩, hi⟩

/-- Groups that are chosen at launch are preferred as they are, and choosing none leaves the global
groups. Without a choice the preferred groups are the union of the levels down to the first that
stops, or the global groups if that is empty. The union lists no group twice, has none of a level
behind a stop, and lacks none of a level before it. -/
theorem preferred_groups_by_level (s : JobSpec) (template : Option JobTemplate)
    (organization : Option Organization) (global : List Id) :
    (∀ chosen, s.instanceGroups = some chosen → s.preferredGroups template organization global =
      if chosen = [] then global else chosen) ∧
    (s.instanceGroups = none → s.preferredGroups template organization global =
      if GroupLevel.union (s.groupLevels template organization) = [] then global
      else GroupLevel.union (s.groupLevels template organization)) ∧
    (GroupLevel.union (s.groupLevels template organization)).Nodup ∧
    ∀ i, i ∈ GroupLevel.union (s.groupLevels template organization) ↔
      s.Offers template organization i := by
  refine ⟨fun chosen hc => ?_, fun hn => ?_, ?_, fun i => ?_⟩
  · simp only [JobSpec.preferredGroups, hc, Option.getD_some, List.isEmpty_iff]
  · simp only [JobSpec.preferredGroups, hn, Option.getD_none, GroupLevel.novel_reached,
      List.isEmpty_iff]
  · have hnodup := nodup_map_novel id ∅ (GroupLevel.reached (s.groupLevels template organization))
    rwa [List.map_id, GroupLevel.novel_reached] at hnodup
  · rw [GroupLevel.union, List.mem_eraseDups, ← GroupLevel.reached_eq_flatMap,
      JobSpec.mem_reached_groupLevels]

def JobSpec.sampleGrouped : JobSpec :=
  { (default : JobSpec) with inventory := some ⟨⟨2⟩, "all", 4, none, [⟨12⟩, ⟨11⟩], true⟩ }

def JobTemplate.sampleGrouped : JobTemplate where
  id := ⟨1⟩
  name := "deploy"
  instanceGroups := [⟨11⟩, ⟨11⟩]

/-- The organization's group is behind the inventory's stop. Where the job stops the search itself,
after a template without groups, the global group is left. -/
theorem organization_behind_stops :
    JobSpec.sampleGrouped.preferredGroups (some .sampleGrouped) (some ⟨⟨5⟩, "ops", [⟨13⟩], {}⟩)
      [⟨14⟩] = [⟨11⟩, ⟨12⟩] ∧
    ({ JobSpec.sampleGrouped with preventFallback := true }).preferredGroups
      (some { JobTemplate.sampleGrouped with instanceGroups := [] })
      (some ⟨⟨5⟩, "ops", [⟨13⟩], {}⟩) [⟨14⟩] = [⟨14⟩] :=
  ⟨((preferred_groups_by_level .sampleGrouped _ _ _).2.1 rfl).trans (by decide),
    ((preferred_groups_by_level { JobSpec.sampleGrouped with preventFallback := true } _ _ _).2.1
      rfl).trans (by decide)⟩

end JobLaunch
