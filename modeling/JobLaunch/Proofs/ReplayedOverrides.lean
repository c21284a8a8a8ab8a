import JobLaunch.Proofs.RequestHonoured
import JobLaunch.Proofs.StoreGrowth
/-!
Replays. On the template that it was recorded with, a configuration is accepted again as it is,
whatever was accepted of the request that it was recorded from; only the limit of a callback is left
out.
-/
namespace JobLaunch

section
variable (job : Job) (c : LaunchConfig) (pw : Table String)

theorem get_replayRequest (f : PromptField) : (Service.replayRequest job c pw).overrides.get f =
    if f = .limit ∧ c.launchType = .callback then none else c.overrides.get f := by
  unfold Service.replayRequest
  by_cases hc : c.launchType = .callback
  · by_cases hf : f = .limit
    · subst hf
      simp [hc]
    · simp [hc, hf, PerField.get_set_of_ne]
  · simp [hc]

theorem proposed_replayRequest : (Service.replayRequest job c pw).proposed = c.extraVars := by
  have h : (Service.replayRequest job c pw).overrides.extraVars = c.overrides.extraVars := by
    have hg := get_replayRequest job c pw .extraVars
    rwa [if_neg (by simp)] at hg
  rw [LaunchRequest.proposed, h]
  exact Table.overlay_empty _

end

namespace JobTemplate
variable {t : JobTemplate} {m m' : UInt32} {r : LaunchRequest} {c : LaunchConfig} {job : Job}
  {pw : Table String}

theorem getElem?_proposed_replay (hc : c.overrides = (t.resolution m r).accepted) (k : String) :
    (Service.replayRequest job c pw).proposed[k]? = t.settled r.proposed k := by
  rw [proposed_replayRequest, LaunchConfig.extraVars, hc, getElem?_acceptedVars]

/-- A replay that can be launched accepts what was recorded. -/
theorem accepted_replay (hc : c.overrides = (t.resolution m r).accepted)
    (hl : (t.resolution m' (Service.replayRequest job c pw)).launchable) :
    (t.resolution m' (Service.replayRequest job c pw)).accepted =
      (Service.replayRequest job c pw).overrides := by
  refine PerField.ext_get fun f => ?_
  by_cases hf : f = .extraVars
  · subst hf
    have ha : (t.merged (Service.replayRequest job c pw)).accepted = (t.merged r).accepted :=
      accepted_mergeJobVariables_of_settled (getElem?_proposed_replay hc) _ _
    rw [get_replayRequest, if_neg (by simp), hc]
    show (t.merged _).accepted.override? = (t.merged r).accepted.override?
    rw [ha]
  · cases hr : (Service.replayRequest job c pw).overrides.get f with
    | none => rw [accepted_resolution hf, hr, Option.bind_none]
    | some x =>
      rw [accepted_of_launchable rfl hl hf hr]
      rw [get_replayRequest] at hr
      split at hr
      · cases hr
      rw [hc] at hr
      obtain ⟨_, -, he, -, -⟩ := (accepted_resolution_eq_some hf).mp hr
      exact effect?_of_effect? he

theorem surveyPasswords_replay (hc : c.overrides = (t.resolution m r).accepted) :
    (t.resolution m' (Service.replayRequest job c pw)).surveyPasswords =
      (t.resolution m r).surveyPasswords := by
  rw [surveyPasswords_resolution, surveyPasswords_resolution]
  exact surveyPasswords_mergeJobVariables_of_settled (getElem?_proposed_replay hc) _ _

end JobTemplate
end JobLaunch
