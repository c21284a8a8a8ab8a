import JobLaunch.LaunchConfig
import JobLaunch.Proofs.FaithfulRecords
import JobLaunch.Proofs.WrittenTimestamps
/-!
Stored records. A record is read back from its JSON form, unless a question has null for its default
or an instant lies outside the calendar; what is read has neither and so is read back too.
-/
namespace JobLaunch

open Record (holds_cons holds_append)

section

variable {α : Type} [Coded α] {r : Record} {place : Nat} {name : String}

theorem Record.readable_of_orElse {a d : α} (h : r.orElse place name d = some a) :
    a = d ∨ Readable a := by
  obtain ⟨oj, -, hread⟩ := Option.bind_eq_some_iff.mp h
  cases oj with
  | none => exact .inl (Option.some.inj hread).symm
  | some j => exact .inr ⟨j, hread⟩

theorem Record.readable_of_required {a : α} (h : r.required place name = some a) : Readable a := by
  obtain ⟨oj, -, hread⟩ := Option.bind_eq_some_iff.mp h
  cases oj with
  | none => cases hread
  | some j => exact ⟨j, hread⟩

theorem Record.readable_of_nullable {oa : Option α} (h : r.nullable place name = some oa) :
    oa = none ∨ Readable oa := by
  cases r with
  | named fields => exact readable_of_orElse h
  | listed items => exact .inr (readable_of_required h)

end

theorem Value.json_ne_null {v : Value} (h : v ≠ .null) : v.json ≠ .null := by
  intro hjson
  obtain ⟨j, hj⟩ := v
  cases hjson
  exact h rfl

theorem Json.canonical_ne_null {j : Json} (h : j ≠ .null) : j.canonical ≠ .null := by
  cases j with
  | null => exact absurd rfl h
  | _ => simp [canonical]

namespace Question

/-- Whether the default is not null: a question with null for its default is read as one without. -/
def DefaultNotNull (q : Question) : Prop := q.default ≠ some Value.null

theorem decode?_encode {q : Question} (h : q.DefaultNotNull) : decode? (encode q) = some q := by
  have hdefault : decode? (encode q.default) = some q.default := by
    cases hd : q.default with
    | none => rfl
    | some v =>
      have hv : v ≠ .null := fun heq => h (heq ▸ hd)
      exact decode?_encode_some (Faithful.decode?_encode v) (Value.json_ne_null hv)
  have hchoices : (decode? (encode q.choices) : Option Choices) = some ⟨q.choices⟩ := by
    have hread : (decode? (encode q.choices) : Option (List String)) = some q.choices :=
      Faithful.decode?_encode q.choices
    exact congrArg (Option.map Choices.mk) hread
  refine Record.bind_object (by simp) fun r h => ?_
  simp only [holds_cons] at h
  simp only [Record.required_eq, Record.optional, Record.orElse_eq, h, hdefault, hchoices,
    Faithful.decode?_encode]
  rfl

theorem defaultNotNull_of_readable {q : Question} (h : Readable q) : q.DefaultNotNull := by
  obtain ⟨j, hj⟩ := h
  iterate 5 obtain ⟨_, -, hj⟩ := Option.bind_eq_some_iff.mp hj
  obtain ⟨d, hd, hj⟩ := Option.bind_eq_some_iff.mp hj
  iterate 3 obtain ⟨_, -, hj⟩ := Option.bind_eq_some_iff.mp hj
  cases hj
  show d ≠ some Value.null
  rcases Record.readable_of_orElse hd with rfl | hread
  · exact nofun
  · rintro rfl
    obtain ⟨j, hnull, hj⟩ := hread.of_some
    exact Json.canonical_ne_null hnull (congrArg Value.json (Option.some.inj hj))

end Question

namespace Survey

def DefaultsNotNull (s : Survey) : Prop := ∀ q ∈ s.questions, q.DefaultNotNull

theorem decode?_encode {s : Survey} (h : s.DefaultsNotNull) : decode? (encode s) = some s := by
  have hquestions : decode? (encode s.questions) = some s.questions :=
    decode?_encode_list fun q hq => Question.decode?_encode (h q hq)
  refine Record.bind_object (by simp) fun r h => ?_
  simp only [holds_cons] at h
  simp only [Record.orElse_eq, h, hquestions, Faithful.decode?_encode]
  rfl

theorem defaultsNotNull_of_readable {s : Survey} (h : Readable s) : s.DefaultsNotNull := by
  obtain ⟨j, hj⟩ := h
  iterate 3 obtain ⟨_, -, hj⟩ := Option.bind_eq_some_iff.mp hj
  obtain ⟨questions, hquestions, hj⟩ := Option.bind_eq_some_iff.mp hj
  cases hj
  intro q hq
  rcases Record.readable_of_orElse hquestions with rfl | hread
  · cases hq
  · exact Question.defaultNotNull_of_readable (hread.of_mem hq)

end Survey

def Json.fields : Json → List (String × Json)
  | .object fs => fs
  | _ => []

namespace JobTemplate

def names : List String :=
  ["id", "name", "description", "organization_id"] ++
    (({} : JobOptions).fields.map Prod.fst ++ (PromptField.all.map PromptField.askName ++
    ["inventory", "project", "execution_environment", "credentials", "labels", "instance_groups",
      "prevent_instance_group_fallback", "survey_enabled", "survey_spec", "job_slice_count",
      "host_config_key", "notifications"]))

theorem map_fst_fields (t : JobTemplate) : (encode t).fields.map Prod.fst = names := rfl

theorem nodup_names : names.Nodup := by
  decide

theorem decode?_encode {t : JobTemplate} (h : t.survey.DefaultsNotNull) :
    decode? (encode t) = some t := by
  have hsurvey := Survey.decode?_encode h
  have hfields := Record.holds_named (t.map_fst_fields ▸ nodup_names)
  show (Record.ofObject? (.object (encode t).fields)).bind _ = _
  rw [Record.ofObject?, Option.bind_some]
  -- from here on the record is known by its fields only
  generalize Record.named (encode t).fields = r at hfields ⊢
  unfold instCoded at hfields
  simp only [Json.fields, holds_append, holds_cons] at hfields
  obtain ⟨⟨⟨hfirst, hoptions⟩, hask⟩, hlast⟩ := hfields
  simp only [JobOptions.ofRecord?_of_holds hoptions, AskFlags.ofRecord?_of_holds hask, hfirst, hlast,
    hsurvey, Record.required_eq, Record.optional, Record.orElse_eq, Faithful.decode?_encode]
  rfl

theorem defaultsNotNull_of_readable {t : JobTemplate} (h : Readable t) :
    t.survey.DefaultsNotNull := by
  obtain ⟨j, hj⟩ := h
  -- the fields before the survey
  iterate 15 obtain ⟨_, -, hj⟩ := Option.bind_eq_some_iff.mp hj
  obtain ⟨survey, hsurvey, hj⟩ := Option.bind_eq_some_iff.mp hj
  iterate 3 obtain ⟨_, -, hj⟩ := Option.bind_eq_some_iff.mp hj
  cases hj
  show survey.DefaultsNotNull
  rcases Record.readable_of_orElse hsurvey with rfl | hread
  · exact nofun
  · exact Survey.defaultsNotNull_of_readable hread

end JobTemplate

instance : Faithful SystemJobTemplate where
  decode?_encode t := by
    refine Record.bind_object (by simp) fun r h => ?_
    simp only [holds_cons] at h
    simp only [Record.required_eq, Record.optional, Record.orElse_eq, h, Faithful.decode?_encode]
    rfl

namespace Template

def DefaultsNotNull : Template → Prop
  | job t => t.survey.DefaultsNotNull
  | system _ => True

theorem decode?_encode {t : Template} (h : t.DefaultsNotNull) : decode? (encode t) = some t := by
  unfold instCoded
  cases t with
  | job t =>
    have hnames : "kind" ∉ (encode t).fields.map Prod.fst := by
      rw [t.map_fst_fields]
      decide
    have htag : untag? "kind" (withTag "kind" "job" (encode t)) = some ("job", encode t) :=
      untag?_withTag rfl hnames
    have hread : decode? (encode t) = some t := JobTemplate.decode?_encode h
    have hword : ofWord? "job" = some TemplateKind.job := rfl
    simp [htag, hread, hword]
  | system t =>
    have htag : untag? "kind" (withTag "kind" "system" (encode t)) = some ("system", encode t) :=
      untag?_withTag rfl (by simp)
    have hword : ofWord? "system" = some TemplateKind.system := rfl
    simp [htag, hword]

theorem defaultsNotNull_of_readable {t : Template} (h : Readable t) : t.DefaultsNotNull := by
  obtain ⟨j, hj⟩ := h
  obtain ⟨_, -, hj⟩ := Option.bind_eq_some_iff.mp hj
  obtain ⟨kind, -, hj⟩ := Option.bind_eq_some_iff.mp hj
  cases kind with
  | job =>
    obtain ⟨t, ht, hjob⟩ := Option.bind_eq_some_iff.mp hj
    cases hjob
    exact JobTemplate.defaultsNotNull_of_readable ⟨_, ht⟩
  | system =>
    obtain ⟨t, ht, hsystem⟩ := Option.bind_eq_some_iff.mp hj
    cases hsystem
    trivial

end Template

namespace Timestamp

def FourDigitYear (t : Timestamp) : Prop := 0 ≤ t.year ∧ t.year ≤ 9999

theorem FourDigitYear.inCalendar {t : Timestamp} (h : t.FourDigitYear) : t.InCalendar := by
  have hfirst : firstYear ≤ 0 := by decide
  have hlast : 9999 ≤ lastYear := by decide
  exact (inCalendar_iff t).mpr ⟨Int.le_trans hfirst h.1, Int.le_trans h.2 hlast⟩

theorem decode?_encode {t : Timestamp} (h : t.InCalendar) : decode? (encode t) = some t :=
  ofText?_toText h

theorem inCalendar_of_readable {t : Timestamp} (h : Readable t) : t.InCalendar := by
  obtain ⟨j, hj⟩ := h
  cases j with
  | string s => exact inCalendar_of_ofText? hj
  | _ => cases hj

end Timestamp

namespace Job

def InCalendar (j : Job) : Prop :=
  j.requestedAt.InCalendar ∧ ∀ t ∈ j.finishedAt, t.InCalendar

theorem decode?_encode {j : Job} (h : j.InCalendar) : decode? (encode j) = some j := by
  have hrequested := Timestamp.decode?_encode h.1
  have hfinished : decode? (encode j.finishedAt) = some j.finishedAt := by
    cases hf : j.finishedAt with
    | none => rfl
    | some t =>
      exact decode?_encode_some (Timestamp.decode?_encode (h.2 t hf)) (NeverNull.encode_ne_null t)
  refine Record.bind_object (by simp) fun r h => ?_
  simp only [holds_cons] at h
  simp only [Record.required_eq, Record.nullable_eq, h, hrequested, hfinished,
    Faithful.decode?_encode]
  rfl

theorem inCalendar_of_readable {j : Job} (h : Readable j) : j.InCalendar := by
  obtain ⟨json, hj⟩ := h
  iterate 6 obtain ⟨_, -, hj⟩ := Option.bind_eq_some_iff.mp hj
  obtain ⟨requested, hrequested, hj⟩ := Option.bind_eq_some_iff.mp hj
  obtain ⟨finished, hfinished, hj⟩ := Option.bind_eq_some_iff.mp hj
  obtain ⟨_, -, hj⟩ := Option.bind_eq_some_iff.mp hj
  cases hj
  refine ⟨Timestamp.inCalendar_of_readable (Record.readable_of_required hrequested), ?_⟩
  intro t (ht : finished = some t)
  rcases Record.readable_of_nullable hfinished with hnone | hread
  · rw [hnone] at ht
    cases ht
  · rw [ht] at hread
    obtain ⟨json, -, hread⟩ := hread.of_some
    exact Timestamp.inCalendar_of_readable ⟨json, hread⟩

end Job

namespace WorkflowJob

theorem decode?_encode {w : WorkflowJob} (h : w.requestedAt.InCalendar) :
    decode? (encode w) = some w := by
  have hrequested := Timestamp.decode?_encode h
  refine Record.bind_object (by simp) fun r h => ?_
  simp only [holds_cons] at h
  simp only [Record.required_eq, h, hrequested, Faithful.decode?_encode]
  rfl

theorem inCalendar_of_readable {w : WorkflowJob} (h : Readable w) : w.requestedAt.InCalendar := by
  obtain ⟨j, hj⟩ := h
  iterate 4 obtain ⟨_, -, hj⟩ := Option.bind_eq_some_iff.mp hj
  obtain ⟨requested, hrequested, hj⟩ := Option.bind_eq_some_iff.mp hj
  obtain ⟨_, -, hj⟩ := Option.bind_eq_some_iff.mp hj
  cases hj
  exact Timestamp.inCalendar_of_readable (Record.readable_of_required hrequested)

end WorkflowJob

namespace LaunchConfig

theorem decode?_encode {c : LaunchConfig} (h : c.createdAt.InCalendar) :
    decode? (encode c) = some c := by
  have hcreated := Timestamp.decode?_encode h
  refine Record.bind_object (by simp) fun r h => ?_
  simp only [holds_cons] at h
  simp only [Record.required_eq, h, hcreated, Faithful.decode?_encode]
  rfl

theorem inCalendar_of_readable {c : LaunchConfig} (h : Readable c) : c.createdAt.InCalendar := by
  obtain ⟨j, hj⟩ := h
  iterate 5 obtain ⟨_, -, hj⟩ := Option.bind_eq_some_iff.mp hj
  obtain ⟨created, hcreated, hj⟩ := Option.bind_eq_some_iff.mp hj
  cases hj
  exact Timestamp.inCalendar_of_readable (Record.readable_of_required hcreated)

end LaunchConfig

instance : Faithful HostCounters where
  decode?_encode c := by
    refine Record.bind_object (by simp) fun r h => ?_
    simp only [holds_cons] at h
    simp only [Record.orElse_eq, h, Faithful.decode?_encode]
    rfl

namespace HostSummary

theorem decode?_encode {s : HostSummary} (h : s.modifiedAt.InCalendar) :
    decode? (encode s) = some s := by
  have hmodified := Timestamp.decode?_encode h
  refine Record.bind_object (by simp) fun r h => ?_
  simp only [holds_cons] at h
  simp only [Record.required_eq, h, hmodified, Faithful.decode?_encode]
  rfl

theorem inCalendar_of_readable {s : HostSummary} (h : Readable s) : s.modifiedAt.InCalendar := by
  obtain ⟨j, hj⟩ := h
  iterate 5 obtain ⟨_, -, hj⟩ := Option.bind_eq_some_iff.mp hj
  obtain ⟨modified, hmodified, hj⟩ := Option.bind_eq_some_iff.mp hj
  cases hj
  exact Timestamp.inCalendar_of_readable (Record.readable_of_required hmodified)

end HostSummary

/-- Whether values of a type are read back: those that meet a condition whenever they are written, and
all others once they have been read. -/
structure RoundTrips (α : Type) [Coded α] (proper : α → Prop) : Prop where
  written : ∀ a, proper a → decode? (encode a) = some a
  read : ∀ j (a : α), decode? j = some a → decode? (encode a) = some a

theorem RoundTrips.of_faithful (α : Type) [Coded α] [Faithful α] : RoundTrips α fun _ => True where
  written a _ := Faithful.decode?_encode a
  read _ a _ := Faithful.decode?_encode a

/-- What is read back when it meets a condition, and meets it whenever it was read, round trips. -/
theorem RoundTrips.of_readable {α : Type} [Coded α] {good proper : α → Prop}
    (hback : ∀ a, good a → decode? (encode a) = some a) (hproper : ∀ a, proper a → good a)
    (hread : ∀ a, Readable a → good a) : RoundTrips α proper where
  written a h := hback a (hproper a h)
  read j a h := hback a (hread a ⟨j, h⟩)

def Job.FourDigitYears (j : Job) : Prop :=
  j.requestedAt.FourDigitYear ∧ ∀ t ∈ j.finishedAt, t.FourDigitYear

/-- Every stored record is read back from its JSON form, and once read stays as it is: without null
for a default and with years of at most four digits. A value provided for a field is written
otherwise than none, be it an empty list. -/
theorem stored_records_round_trip :
    RoundTrips Template Template.DefaultsNotNull ∧
    RoundTrips LaunchRequest (fun _ => True) ∧
    RoundTrips RelaunchRequest (fun _ => True) ∧
    RoundTrips Overrides (fun _ => True) ∧
    RoundTrips Resolution (fun _ => True) ∧
    RoundTrips LaunchPlan (fun _ => True) ∧
    RoundTrips Job Job.FourDigitYears ∧
    RoundTrips WorkflowJob (fun w => w.requestedAt.FourDigitYear) ∧
    RoundTrips LaunchConfig (fun c => c.createdAt.FourDigitYear) ∧
    RoundTrips HostSummary (fun s => s.modifiedAt.FourDigitYear) ∧
    ∀ (o : Overrides) (f : PromptField) (v : f.Carrier),
      encode (o.set f (some v)) ≠ encode (o.set f none) := by
  refine ⟨.of_readable @Template.decode?_encode (fun _ => id) @Template.defaultsNotNull_of_readable,
    .of_faithful LaunchRequest, .of_faithful RelaunchRequest, .of_faithful Overrides,
    .of_faithful Resolution, .of_faithful LaunchPlan,
    .of_readable @Job.decode?_encode ?_ @Job.inCalendar_of_readable,
    .of_readable @WorkflowJob.decode?_encode ?_ @WorkflowJob.inCalendar_of_readable,
    .of_readable @LaunchConfig.decode?_encode ?_ @LaunchConfig.inCalendar_of_readable,
    .of_readable @HostSummary.decode?_encode ?_ @HostSummary.inCalendar_of_readable, ?_⟩
  · exact fun j h => ⟨h.1.inCalendar, fun t ht => (h.2 t ht).inCalendar⟩
  · exact fun w h => h.inCalendar
  · exact fun c h => h.inCalendar
  · exact fun s h => h.inCalendar
  · intro o f v hwritten
    have hsame : some (o.set f (some v)) = some (o.set f none) := by
      rw [← Faithful.decode?_encode (o.set f (some v)), hwritten, Faithful.decode?_encode]
    have hget := congrArg (PerField.get · f) (Option.some.inj hsame)
    simp at hget

def JobTemplate.sampleVersioned : JobTemplate where
  id := ⟨1⟩
  name := "Deploy"
  surveyEnabled := true
  survey := ⟨"Release", "", [⟨"Version", "version", .text, true, some (.text ""), none, none, []⟩]⟩

def Job.sampleEnded : Job :=
  { (default : Job) with finishedAt := some ⟨1483228799, 1500000000, by decide⟩ }

/-- An empty default and a leap second are kept, and empty instance groups are written. -/
theorem sample_records_round_trip :
    (Template.job JobTemplate.sampleVersioned).DefaultsNotNull ∧ Job.sampleEnded.FourDigitYears ∧
    decode? (encode (Template.job JobTemplate.sampleVersioned)) =
      some (Template.job JobTemplate.sampleVersioned) ∧
    decode? (encode Job.sampleEnded) = some Job.sampleEnded ∧
    encode ((∅ : Overrides).set .instanceGroups (some [])) ≠
      encode ((∅ : Overrides).set .instanceGroups none) := by
  have hdefaults : (Template.job JobTemplate.sampleVersioned).DefaultsNotNull := by
    intro q hq
    cases List.mem_singleton.mp hq
    exact nofun
  have hyears : Job.sampleEnded.FourDigitYears := by
    refine ⟨⟨by decide, by decide⟩, fun t ht => ?_⟩
    cases Option.some.inj ht
    exact ⟨by decide, by decide⟩
  obtain ⟨htemplate, -, -, -, -, -, hjob, -, -, -, hdistinct⟩ := stored_records_round_trip
  exact ⟨hdefaults, hyears, htemplate.written _ hdefaults, hjob.written _ hyears,
    hdistinct ∅ .instanceGroups []⟩

end JobLaunch
