import JobLaunch.Service
/-!
Runs of services on a store. Reading changes nothing; a run that passes a step goes on with the
store that the step leaves.
-/
namespace JobLaunch.Service
variable {α β : Type}

/-- The result of a service on a store, and the store that it leaves. -/
def exec (service : Service α) (s : Store) : Except LaunchError α × Store :=
  Id.run ((ExceptT.run service).run s)

@[simp] theorem exec_pure (a : α) (s : Store) : (pure a : Service α).exec s = (.ok a, s) := rfl

@[simp] theorem exec_throw (e : LaunchError) (s : Store) :
    (throw e : Service α).exec s = (.error e, s) := rfl

@[simp] theorem exec_get (s : Store) : (get : Service Store).exec s = (.ok s, s) := rfl

@[simp] theorem exec_modify (f : Store → Store) (s : Store) :
    (modify f : Service PUnit).exec s = (.ok (), f s) := rfl

theorem exec_bind (x : Service α) (f : α → Service β) (s : Store) :
    (x >>= f).exec s = match x.exec s with
      | (.ok a, s') => (f a).exec s'
      | (.error e, s') => (.error e, s') := by
  unfold exec ExceptT.run StateT.run Id.run
  simp only [bind, ExceptT.bind, ExceptT.mk, StateT.bind, ExceptT.bindCont]
  cases x s with
  | mk r s' => cases r <;> rfl

theorem exec_bind_of_ok {x : Service α} {a : α} {s s' : Store} (h : x.exec s = (.ok a, s'))
    (f : α → Service β) : (x >>= f).exec s = (f a).exec s' := by
  rw [exec_bind, h]

theorem exec_bind_of_error {x : Service α} {e : LaunchError} {s s' : Store}
    (h : x.exec s = (.error e, s')) (f : α → Service β) : (x >>= f).exec s = (.error e, s') := by
  rw [exec_bind, h]

/-- A run that ends well has passed its first step. -/
theorem of_exec_bind_eq_ok {x : Service α} {f : α → Service β} {s s' : Store} {b : β}
    (h : (x >>= f).exec s = (.ok b, s')) :
    ∃ a s₁, x.exec s = (.ok a, s₁) ∧ (f a).exec s₁ = (.ok b, s') := by
  rw [exec_bind] at h
  cases hx : x.exec s with
  | mk r s₁ =>
    rw [hx] at h
    cases r with
    | ok a => exact ⟨a, s₁, rfl, h⟩
    | error e => cases h

/-- A service that leaves every store as it is. -/
def Reads (service : Service α) : Prop := ∀ s, (service.exec s).2 = s

/-- After a step that only reads, the service has failed with the store as it was, or the rest runs
on it. -/
theorem Reads.exec_bind_cases {x : Service α} (hx : x.Reads) (f : α → Service β) (s : Store) :
    (∃ e, (x >>= f).exec s = (.error e, s)) ∨
      ∃ a, x.exec s = (.ok a, s) ∧ (x >>= f).exec s = (f a).exec s := by
  have hs := hx s
  cases h : x.exec s with
  | mk r s' =>
    rw [h] at hs
    subst hs
    cases r with
    | ok a => exact Or.inr ⟨a, rfl, exec_bind_of_ok h f⟩
    | error e => exact Or.inl ⟨e, exec_bind_of_error h f⟩

theorem Reads.bind {x : Service α} (hx : x.Reads) {f : α → Service β} (hf : ∀ a, (f a).Reads) :
    (x >>= f).Reads := by
  intro s
  rcases hx.exec_bind_cases f s with ⟨e, h⟩ | ⟨a, -, h⟩
  · rw [h]
  · rw [h]
    exact hf a s

theorem reads_pure (a : α) : (pure a : Service α).Reads := fun _ => rfl

theorem reads_throw (e : LaunchError) : (throw e : Service α).Reads := fun _ => rfl

theorem reads_get : (get : Service Store).Reads := fun _ => rfl

theorem reads_found (e : LaunchError) (o : Option α) : (found e o).Reads := by
  cases o with
  | none => exact reads_throw e
  | some a => exact reads_pure a

theorem exec_found_eq_ok {e : LaunchError} {o : Option α} {a : α} {s s' : Store} :
    (found e o).exec s = (.ok a, s') ↔ o = some a ∧ s = s' := by
  cases o with
  | none => simp [found]
  | some b => simp [found]

theorem exec_loadTemplate_eq_ok {id : Id} {t : Template} {s s' : Store} :
    (loadTemplate id).exec s = (.ok t, s') ↔ s.templates[id]? = some t ∧ s = s' := by
  rw [loadTemplate, exec_bind, exec_get]
  exact exec_found_eq_ok

theorem exec_loadJob_eq_ok {id : Id} {j : Job} {s s' : Store} :
    (loadJob id).exec s = (.ok j, s') ↔ s.findJob? id = some j ∧ s = s' := by
  rw [loadJob, exec_bind, exec_get]
  exact exec_found_eq_ok

theorem reads_loadTemplate (id : Id) : (loadTemplate id).Reads :=
  reads_get.bind fun _ => reads_found _ _

theorem reads_loadJob (id : Id) : (loadJob id).Reads :=
  reads_get.bind fun _ => reads_found _ _

theorem exec_planLaunch (config : Config) (t : Template) (r : LaunchRequest) (s : Store) :
    (planLaunch config t r).exec s =
      (if t.isBlocked config.scheduleMaxJobs (countActive s.jobs t.id) then
        .error (.capacityBlocked t.name (countActive s.jobs t.id))
      else if (t.resolve config.maxForks r).launchable then
        .ok (t.plan (t.resolve config.maxForks r) r, t.resolve config.maxForks r)
      else .error (.rejected (t.resolve config.maxForks r).errors), s) := by
  rw [planLaunch, exec_bind, exec_get]
  by_cases hb : t.isBlocked config.scheduleMaxJobs (countActive s.jobs t.id)
  · simp only [hb, if_true]
    rfl
  · by_cases hl : (t.resolve config.maxForks r).launchable
    · simp only [hb, hl, if_true]
      rfl
    · simp only [hb, hl]
      rfl

theorem reads_planLaunch (config : Config) (t : Template) (r : LaunchRequest) :
    (planLaunch config t r).Reads := by
  intro s
  rw [exec_planLaunch]

/-- A launch is planned from a launchable resolution, and while there is room. -/
theorem of_exec_planLaunch_eq_ok {config : Config} {t : Template} {r : LaunchRequest}
    {plan : LaunchPlan} {res : Resolution} {s s' : Store}
    (h : (planLaunch config t r).exec s = (.ok (plan, res), s')) :
    res = t.resolve config.maxForks r ∧ plan = t.plan res r ∧ res.launchable ∧
      t.isBlocked config.scheduleMaxJobs (countActive s.jobs t.id) = false := by
  rw [exec_planLaunch] at h
  obtain ⟨h, -⟩ := Prod.mk.inj h
  split at h
  · cases h
  · rename_i hb
    split at h
    · cases h
      exact ⟨rfl, rfl, ‹_›, Bool.eq_false_iff.mpr hb⟩
    · cases h

end JobLaunch.Service
