import JobLaunch.Proofs.JobResolution
import JobLaunch.Proofs.PlannedSpecs
/-!
Nothing requested is silently lost. When a request without exclusions can be launched, every
override that it provides is in force in every job, by acceptance or because the template has it
anyway.
-/
namespace JobLaunch

/-- The branch that a job runs: the project's, when its own is empty. -/
def branchOf (project : Option Project) (branch : String) : Option String :=
  if branch = "" then project.map (·.scmBranch) else some branch

/-- Whether a proposed variable is a password that was sent back hidden: the first question of an
active survey that is bound to its name asks for a password, and its value is the marker. -/
def JobTemplate.Hides (t : JobTemplate) (name : String) (v : Value) : Prop :=
  ∃ q, t.questionOf? name = some q ∧ q.isPassword ∧ v = .text redacted

/-- Whether everything that a request provides is in force in a job of a template. Values of
variables are compared as data. -/
structure JobSpec.Honours (spec : JobSpec) (t : JobTemplate) (r : LaunchRequest) : Prop where
  limit : ∀ v, r.overrides.limit = some v → spec.options.limit = v
  jobTags : ∀ v, r.overrides.jobTags = some v → spec.options.jobTags = v
  skipTags : ∀ v, r.overrides.skipTags = some v → spec.options.skipTags = v
  jobType : ∀ v, r.overrides.jobType = some v → spec.options.jobType = v
  verbosity : ∀ v, r.overrides.verbosity = some v → spec.options.verbosity = v
  diffMode : ∀ v, r.overrides.diffMode = some v → spec.options.diffMode = v
  forks : ∀ v, r.overrides.forks = some v → spec.options.forks = v
  timeout : ∀ v, r.overrides.timeout = some v → spec.options.timeout = v
  executionEnvironment : ∀ v, r.overrides.executionEnvironment = some v →
    spec.executionEnvironment = some v
  inventory : ∀ v, r.overrides.inventory = some v → ∃ i, spec.inventory = some i ∧ i.id = v.id
  scmBranch : ∀ v, r.overrides.scmBranch = some v →
    branchOf spec.project spec.options.scmBranch = branchOf spec.project v
  credentials : ∀ v, r.overrides.credentials = some v →
    ∀ c ∈ v, ∃ d ∈ spec.credentials, d.id = c.id
  labels : ∀ v, r.overrides.labels = some v → ∀ i ∈ v, i ∈ spec.labels
  instanceGroups : ∀ v, r.overrides.instanceGroups = some v →
    spec.instanceGroups = some v ∨ spec.instanceGroups = none ∧ v = t.instanceGroups
  proposed : ∀ k v, r.proposed[k]? = some v → ¬ t.Hides k v →
    ∃ w, spec.options.extraVars[k]? = some w ∧ w.same v

namespace PromptField

/-- Whether a field's values are compared by equality alone: it is no selection, no inventory and
no branch, and holds no variables. -/
def comparesEqual : PromptField → Bool
  | limit | jobTags | skipTags | jobType | verbosity | diffMode | executionEnvironment | forks
  | jobSliceCount | timeout => true
  | _ => false

theorem of_comparesEqual {f : PromptField} (h : f.comparesEqual) :
    f ≠ .extraVars ∧ f.strategy = .scalar ∧ f ≠ .scmBranch := by
  revert h
  cases f <;> decide

theorem eq_of_same {f : PromptField} (h : f.comparesEqual) {x y : f.Carrier} (hs : f.same x y) :
    x = y := by
  cases f <;> first | exact of_decide_eq_true hs | cases h

end PromptField

namespace JobTemplate
variable {t : JobTemplate} {m : UInt32} {r : LaunchRequest} {f : PromptField}

/-- A requested value either changes nothing or is accepted as the change it makes. -/
theorem accepted_of_launchable (hx : r.excludedErrors = ∅)
    (hl : (t.resolution m r).launchable) (hf : f ≠ .extraVars) {x : f.Carrier}
    (hr : r.overrides.get f = some x) :
    (t.resolution m r).accepted.get f = t.effect? f x := by
  have hv := (launchable_resolution.mp hl).2.1 f x hf hr
  rw [accepted_resolution hf, hr, Option.bind_some]
  refine Option.ext fun y => ?_
  rw [accepted_decideField]
  refine ⟨fun h => h.1, fun he => ?_⟩
  have hn (v : Violation) (h : t.ask.get f = false ∧ r.excludedErrors.prompts = false ∧
      v = notPrompted ∨ t.ask.get f ∧ t.violation? m r.overrides f y = some v) : False := by
    have hs := violation_decideField.mpr ⟨y, he, h⟩
    rw [hv] at hs
    cases hs
  cases ha : t.ask.get f with
  | false => exact (hn notPrompted (Or.inl ⟨ha, by rw [hx]; rfl, rfl⟩)).elim
  | true =>
    refine ⟨he, rfl, ?_⟩
    cases hy : t.violation? m r.overrides f y with
    | none => rfl
    | some v => exact (hn v (Or.inr ⟨ha, hy⟩)).elim

theorem rejected_of_launchable (hx : r.excludedErrors = ∅)
    (hl : (t.resolution m r).launchable) (hf : f ≠ .extraVars) :
    (t.resolution m r).rejected.get f = none := by
  rw [rejected_resolution hf]
  cases hr : r.overrides.get f with
  | none => rfl
  | some x =>
    rw [Option.bind_some]
    refine Option.eq_none_iff_forall_ne_some.mpr fun y hy => ?_
    obtain ⟨he, hn⟩ := rejected_decideField.mp hy
    have ha := accepted_of_launchable hx hl hf hr
    rw [he, accepted_resolution_eq_some hf] at ha
    obtain ⟨z, hz, hze, hask, hval⟩ := ha
    exact hn hask hval

theorem rejected_eq_empty_of_launchable (hx : r.excludedErrors = ∅)
    (hl : (t.resolution m r).launchable) : (t.resolution m r).rejected = ∅ := by
  refine PerField.ext_get fun f => ?_
  rw [Overrides.get_empty]
  by_cases hf : f = .extraVars
  · subst hf
    have he := (launchable_resolution.mp hl).1
    rw [merged, hx] at he
    show (t.merged r).rejected.override? = none
    rw [merged, hx, (of_errors_mergeJobVariables (by simp) he).1]
    rfl
  · exact rejected_of_launchable hx hl hf

/-- A scalar field other than the branch is in force: as accepted, or as the template has it. -/
theorem same_of_launchable (hx : r.excludedErrors = ∅) (hl : (t.resolution m r).launchable)
    (hf : f ≠ .extraVars) (hs : f.strategy = .scalar) (hb : f ≠ .scmBranch) {x : f.Carrier}
    (hr : r.overrides.get f = some x) :
    ∃ y, ((t.resolution m r).accepted.get f).or (t.value? f) = some y ∧ f.same y x := by
  rw [accepted_of_launchable hx hl hf hr, effect?_of_scalar hs hb]
  cases ho : t.value? f with
  | none => exact ⟨x, rfl, f.same_self x⟩
  | some own =>
    by_cases h : f.same own x
    · exact ⟨own, by simp [h], h⟩
    · exact ⟨x, by simp [h], f.same_self x⟩

theorem or_of_launchable (hx : r.excludedErrors = ∅) (hl : (t.resolution m r).launchable)
    (he : f.comparesEqual) {x : f.Carrier} (hr : r.overrides.get f = some x) :
    ((t.resolution m r).accepted.get f).or (t.value? f) = some x := by
  obtain ⟨hf, hs, hb⟩ := PromptField.of_comparesEqual he
  obtain ⟨y, hy, hsame⟩ := same_of_launchable hx hl hf hs hb hr
  rw [hy, PromptField.eq_of_same he hsame]

theorem getD_of_launchable (hx : r.excludedErrors = ∅) (hl : (t.resolution m r).launchable)
    (he : f.comparesEqual) {own : f.Carrier} (ho : t.value? f = some own) {x : f.Carrier}
    (hr : r.overrides.get f = some x) : ((t.resolution m r).accepted.get f).getD own = x := by
  have h := or_of_launchable hx hl he hr
  rw [ho, Option.or_some] at h
  exact Option.some.inj h

theorem branch_of_launchable (hx : r.excludedErrors = ∅) (hl : (t.resolution m r).launchable)
    {x : String} (hr : r.overrides.scmBranch = some x) :
    branchOf t.project ((t.resolution m r).accepted.scmBranch.getD t.options.scmBranch) =
      branchOf t.project x := by
  have ha : (t.resolution m r).accepted.scmBranch = t.effect? .scmBranch x :=
    accepted_of_launchable (f := .scmBranch) hx hl (by decide) hr
  rw [ha, effect?_scmBranch]
  split
  · rename_i h
    rcases h with rfl | ⟨ho, p, hp, rfl⟩
    · rfl
    · -- the template names no branch, and the project's is the one requested
      simp [branchOf, ho, hp]
  · rfl

theorem credentials_of_launchable (hx : r.excludedErrors = ∅)
    (hl : (t.resolution m r).launchable) {x : List Credential}
    (hr : r.overrides.credentials = some x) :
    (t.jobSpec (t.resolution m r) r).credentials = effectiveCredentials t.credentials x := by
  have ha : (t.resolution m r).accepted.credentials = t.effect? .credentials x :=
    accepted_of_launchable (f := .credentials) hx hl (by decide) hr
  show effectiveCredentials _ ((t.resolution m r).accepted.credentials.getD []) = _
  rw [ha, effect?_credentials, effectiveCredentials, effectiveCredentials]
  split
  · rename_i h
    rw [h]
    rfl
  · rw [Option.getD_some, credentialDelta_credentialDelta]

theorem labels_of_launchable (hx : r.excludedErrors = ∅) (hl : (t.resolution m r).launchable)
    {x : List Id} (hr : r.overrides.labels = some x) :
    (t.jobSpec (t.resolution m r) r).labels = t.labels ++ idDelta t.labels x := by
  have ha : (t.resolution m r).accepted.labels = t.effect? .labels x :=
    accepted_of_launchable (f := .labels) hx hl (by decide) hr
  show t.labels ++ idDelta _ ((t.resolution m r).accepted.labels.getD []) = _
  rw [ha, effect?_labels]
  split
  · rename_i h
    rw [h]
    rfl
  · rw [Option.getD_some, idDelta_idDelta]

theorem instanceGroups_of_launchable (hx : r.excludedErrors = ∅)
    (hl : (t.resolution m r).launchable) {x : List Id} (hr : r.overrides.instanceGroups = some x) :
    (t.resolution m r).accepted.instanceGroups = some x ∨
      (t.resolution m r).accepted.instanceGroups = none ∧ x = t.instanceGroups := by
  have ha : (t.resolution m r).accepted.instanceGroups = t.effect? .instanceGroups x :=
    accepted_of_launchable (f := .instanceGroups) hx hl (by decide) hr
  rw [ha, effect?_instanceGroups]
  split
  · rename_i h
    exact Or.inr ⟨rfl, h.2.symm⟩
  · exact Or.inl rfl

/-- A proposed variable is the job's, by acceptance or because the template has it anyway. -/
theorem variable_of_launchable (hx : r.excludedErrors = ∅) (hl : (t.resolution m r).launchable)
    {k : String} {v : Value} (hk : r.proposed[k]? = some v) (hh : ¬ t.Hides k v) :
    ∃ w, (t.jobSpec (t.resolution m r) r).options.extraVars[k]? = some w ∧ w.same v := by
  have he := (launchable_resolution.mp hl).1
  rw [merged, hx] at he
  rcases settled_of_errors he hk hh with hs | ⟨hs, -, own, ho, hsame⟩
  · exact ⟨v, getElem?_jobSpec_of_accepted ((getElem?_acceptedVars k).trans hs), v.same_self⟩
  · exact ⟨own, getElem?_jobSpec_of_own ((getElem?_acceptedVars k).trans hs) ho, hsame⟩

/-- The job of a launchable request, on all hosts, honours the request. -/
theorem honours_of_launchable (hx : r.excludedErrors = ∅) (hl : (t.resolution m r).launchable) :
    (t.jobSpec (t.resolution m r) r).Honours t r where
  limit v hv := getD_of_launchable (f := .limit) hx hl rfl rfl hv
  jobTags v hv := getD_of_launchable (f := .jobTags) hx hl rfl rfl hv
  skipTags v hv := getD_of_launchable (f := .skipTags) hx hl rfl rfl hv
  jobType v hv := getD_of_launchable (f := .jobType) hx hl rfl rfl hv
  verbosity v hv := getD_of_launchable (f := .verbosity) hx hl rfl rfl hv
  diffMode v hv := getD_of_launchable (f := .diffMode) hx hl rfl rfl hv
  forks v hv := getD_of_launchable (f := .forks) hx hl rfl rfl hv
  timeout v hv := getD_of_launchable (f := .timeout) hx hl rfl rfl hv
  executionEnvironment v hv := or_of_launchable (f := .executionEnvironment) hx hl rfl hv
  inventory v hv := by
    obtain ⟨i, hi, hs⟩ := same_of_launchable (f := .inventory) hx hl (by decide) rfl (by decide) hv
    exact ⟨i, hi, of_decide_eq_true hs⟩
  scmBranch v hv := branch_of_launchable hx hl hv
  credentials v hv c hc := by
    rw [credentials_of_launchable hx hl hv]
    exact exists_mem_effectiveCredentials hc
  labels v hv i hi := by
    rw [labels_of_launchable hx hl hv]
    exact mem_append_idDelta hi
  instanceGroups v hv := instanceGroups_of_launchable hx hl hv
  proposed k v hk hh := variable_of_launchable hx hl hk hh

end JobTemplate

/-- A slice honours what the whole does. -/
theorem JobSpec.Honours.slice {spec : JobSpec} {t : JobTemplate} {r : LaunchRequest}
    (h : spec.Honours t r) (slice : Slice) : { spec with slice }.Honours t r :=
  ⟨h.limit, h.jobTags, h.skipTags, h.jobType, h.verbosity, h.diffMode, h.forks, h.timeout,
    h.executionEnvironment, h.inventory, h.scmBranch, h.credentials, h.labels, h.instanceGroups,
    h.proposed⟩

/-- A request without exclusions that can be launched has nothing rejected. Its plan has a job, and
everything that it provides is in force in each of its jobs, slices included. -/
theorem launchable_honours_request (t : JobTemplate) (m : UInt32) (r : LaunchRequest)
    (hx : r.excludedErrors = ∅) (hl : (t.resolution m r).launchable) :
    (t.resolution m r).rejected = ∅ ∧
      ((Template.job t).plan (t.resolution m r) r).jobSpecs ≠ [] ∧
      ∀ spec ∈ ((Template.job t).plan (t.resolution m r) r).jobSpecs, spec.Honours t r := by
  refine ⟨JobTemplate.rejected_eq_empty_of_launchable hx hl, t.jobSpecs_plan_ne_nil _ r,
    fun spec hs => ?_⟩
  rw [(JobTemplate.of_mem_jobSpecs_plan hs).2]
  exact (JobTemplate.honours_of_launchable hx hl).slice _

def LaunchRequest.limited : LaunchRequest where
  overrides := ((∅ : Overrides).set .limit (some "web")).set .scmBranch (some "main")
  surveyAnswers := Table.ofEntries [("color", .text "red")]

/-- The planned job has the limit and the answer, and runs the branch of its project. -/
theorem limited_honoured :
    ((JobTemplate.sample [.limit]).resolution 0 .limited).launchable ∧
    ((JobTemplate.sample [.limit]).resolution 0 .limited).rejected = ∅ ∧
    ∃ spec ∈ ((Template.job (.sample [.limit])).plan
        ((JobTemplate.sample [.limit]).resolution 0 .limited) .limited).jobSpecs,
      spec.Honours (.sample [.limit]) .limited ∧ spec.options.limit = "web" ∧
      (∃ w, spec.options.extraVars["color"]? = some w ∧ w.same (.text "red")) ∧
      branchOf spec.project spec.options.scmBranch = some "main" := by
  have hl : ((JobTemplate.sample [.limit]).resolution 0 .limited).launchable := by decide
  obtain ⟨hrejected, hsome, hall⟩ := launchable_honours_request _ 0 .limited rfl hl
  obtain ⟨spec, hs⟩ := List.exists_mem_of_ne_nil _ hsome
  have honours := hall spec hs
  have hshown : ¬ (JobTemplate.sample [.limit]).Hides "color" (.text "red") := by
    rintro ⟨q, -, -, hmarker⟩
    exact absurd hmarker (by decide)
  exact ⟨hl, hrejected, spec, hs, honours, honours.limit _ rfl,
    honours.proposed _ _ (by decide) hshown, honours.scmBranch "main" rfl⟩

end JobLaunch
