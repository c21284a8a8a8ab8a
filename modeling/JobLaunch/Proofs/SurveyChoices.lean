import JobLaunch.Proofs.JoinedTexts
import JobLaunch.Proofs.ReadBack
import JobLaunch.Proofs.TrimmedTexts
import JobLaunch.Survey
/-!
Choices of a question, stored as a list or as a text with a line for each. However the lines are
padded, ended and set apart by blank ones, the text is read as the same choices as the list, and
with them the whole question is.
-/
namespace JobLaunch

/-- Whether a text can be a line of its own among choices: it is not empty, does not break, and has
no blanks at its ends. -/
structure IsChoice (c : String) : Prop where
  ne_empty : c ≠ ""
  unbroken : '\n' ∉ c.toList
  ends : Text.BlankFreeEnds c.toList

structure Padding where
  chars : List Char
  blank : ∀ c ∈ chars, Text.isBlank c
  unbroken : '\n' ∉ chars

def Padding.single (c : Char) (h : Text.isBlank c) (hline : '\n' ≠ c) : Padding :=
  ⟨[c], List.forall_mem_singleton.mpr h, List.not_mem_cons_of_ne_of_not_mem hline nofun⟩

/-- A line of a text of choices: one without a choice, or a choice with blanks around it. -/
inductive ChoiceLine where
  | blank (padding : Padding)
  | choice (before : Padding) (text : String) (after : Padding)

namespace ChoiceLine

def choice? : ChoiceLine → Option String
  | blank _ => none
  | choice _ text _ => some text

def chars : ChoiceLine → List Char
  | blank padding => padding.chars
  | choice before text after => before.chars ++ text.toList ++ after.chars

end ChoiceLine

inductive LineEnd where
  | lineFeed | carriageReturnLineFeed

def LineEnd.chars : LineEnd → List Char
  | lineFeed => ['\n']
  | carriageReturnLineFeed => ['\r', '\n']

/-- A text of choices: lines with their ends, and a last line that may be blank. -/
structure ChoiceText where
  ended : List (ChoiceLine × LineEnd)
  last : ChoiceLine

namespace ChoiceText

def choices (t : ChoiceText) : List String :=
  t.ended.filterMap (·.1.choice?) ++ t.last.choice?.toList

def chars (t : ChoiceText) : List Char :=
  t.ended.flatMap (fun line => line.1.chars ++ line.2.chars) ++ t.last.chars

end ChoiceText

namespace Question

/-- Lines are read one by one. -/
theorem choicesOfText_append (cs cs' : List Char) :
    choicesOfText (String.ofList (cs ++ '\n' :: cs')) =
      choicesOfText (String.ofList cs) ++ choicesOfText (String.ofList cs') := by
  simp only [choicesOfText, Text.lines, String.toList_ofList, Text.splitOn_append, List.map_append,
    List.filter_append]

/-- A line is read as the body that it is a padding of. -/
theorem choicesOfText_line {cs : List Char} {body : String} (hline : '\n' ∉ cs)
    (hpads : Text.Pads cs body.toList) (hbody : Text.BlankFreeEnds body.toList) :
    choicesOfText (String.ofList cs) = [body].filter (· ≠ "") := by
  have htrimmed : Text.trimmed (String.ofList cs) = body := by
    refine Text.trimmed_of_pads ?_ hbody
    rwa [String.toList_ofList]
  rw [choicesOfText, Text.lines, String.toList_ofList, Text.splitOn_of_not_mem hline,
    List.map_singleton, List.map_singleton, htrimmed]

theorem choicesOfText_of_isChoice {c : String} (h : IsChoice c) : choicesOfText c = [c] := by
  have hread := choicesOfText_line h.unbroken (Text.pads_self c.toList) h.ends
  rw [String.ofList_toList] at hread
  simpa [h.ne_empty] using hread

/-- Joined choices are read as they are. -/
theorem choicesOfText_intercalate {cs : List String} (h : ∀ c ∈ cs, IsChoice c) :
    choicesOfText ("\n".intercalate cs) = cs := by
  induction cs with
  | nil => rfl
  | cons c cs ih =>
    have hc := choicesOfText_of_isChoice (h c List.mem_cons_self)
    cases cs with
    | nil => simpa using hc
    | cons next cs =>
      have hjoined : c ++ "\n" ++ "\n".intercalate (next :: cs) =
          String.ofList (c.toList ++ '\n' :: ("\n".intercalate (next :: cs)).toList) := by
        simp [String.ext_iff]
      rw [String.intercalate_cons_cons, hjoined, choicesOfText_append, String.ofList_toList,
        String.ofList_toList, hc, ih fun d hd => h d (List.mem_cons_of_mem c hd)]
      rfl

end Question

/-- A line end is blanks within the line, and the line feed. -/
theorem LineEnd.exists_padding (e : LineEnd) : ∃ p : Padding, e.chars = p.chars ++ ['\n'] := by
  cases e with
  | lineFeed => exact ⟨⟨[], nofun, nofun⟩, rfl⟩
  | carriageReturnLineFeed => exact ⟨.single '\r' rfl (by decide), rfl⟩

/-- A line is read as its choice, whatever blanks are behind it. -/
theorem ChoiceLine.choicesOfText_chars {l : ChoiceLine} (h : ∀ c ∈ l.choice?, IsChoice c)
    (p : Padding) :
    Question.choicesOfText (String.ofList (l.chars ++ p.chars)) = l.choice?.toList := by
  cases l with
  | blank padding =>
    have hline : '\n' ∉ padding.chars ++ p.chars :=
      List.not_mem_append padding.unbroken p.unbroken
    have hpads : Text.Pads (padding.chars ++ p.chars) "".toList :=
      ⟨padding.chars, p.chars, padding.blank, p.blank, by simp⟩
    exact Question.choicesOfText_line hline hpads Text.blankFreeEnds_nil
  | choice before text after =>
    have htext : IsChoice text := h text rfl
    have hline : '\n' ∉ before.chars ++ text.toList ++ after.chars ++ p.chars :=
      List.not_mem_append (List.not_mem_append (List.not_mem_append before.unbroken htext.unbroken)
        after.unbroken) p.unbroken
    have hafter : ∀ c ∈ after.chars ++ p.chars, Text.isBlank c :=
      List.forall_mem_append.mpr ⟨after.blank, p.blank⟩
    have hpads : Text.Pads (before.chars ++ text.toList ++ after.chars ++ p.chars) text.toList :=
      ⟨before.chars, after.chars ++ p.chars, before.blank, hafter, List.append_assoc ..⟩
    have hread := Question.choicesOfText_line hline hpads htext.ends
    simpa [ChoiceLine.chars, ChoiceLine.choice?, htext.ne_empty] using hread

/-- A text is read as the choices on its lines. -/
theorem ChoiceText.choicesOfText_chars {t : ChoiceText} (h : ∀ c ∈ t.choices, IsChoice c) :
    Question.choicesOfText (String.ofList t.chars) = t.choices := by
  obtain ⟨ended, last⟩ := t
  induction ended with
  | nil =>
    have hlast := last.choicesOfText_chars (by simpa [choices] using h) ⟨[], nofun, nofun⟩
    simpa [chars, choices] using hlast
  | cons line ended ih =>
    obtain ⟨l, e⟩ := line
    obtain ⟨p, hp⟩ := e.exists_padding
    have hsplit : (ChoiceText.mk ((l, e) :: ended) last).choices =
        l.choice?.toList ++ (ChoiceText.mk ended last).choices := by
      cases hl : l.choice? <;> simp [choices, hl]
    have hchars : (ChoiceText.mk ((l, e) :: ended) last).chars =
        (l.chars ++ p.chars) ++ '\n' :: (ChoiceText.mk ended last).chars := by
      simp [chars, hp]
    rw [hsplit, List.forall_mem_append] at h
    rw [hsplit, hchars, Question.choicesOfText_append, ih h.2,
      l.choicesOfText_chars (by simpa using h.1) p]

section
variable {before after : List (String × Json)} {i j : Json}

/-- Fields are read without regard to what another field holds. -/
theorem Record.field?_of_ne {name key : String} (h : name ≠ key) (place : Nat) :
    (Record.named (before ++ (key, i) :: after)).field? place name =
      (Record.named (before ++ (key, j) :: after)).field? place name := by
  simp [Record.field?, List.filter_append, Ne.symm h]

/-- What is read from a field depends on what its value is read as. -/
theorem Record.orElse_congr {α : Type} [Coded α] {key : String}
    (h : (decode? i : Option α) = decode? j) (place : Nat) (d : α) :
    (Record.named (before ++ (key, i) :: after)).orElse place key d =
      (Record.named (before ++ (key, j) :: after)).orElse place key d := by
  simp only [Record.orElse, Record.field?, List.filter_append, List.filter_cons, beq_self_eq_true,
    if_true]
  cases before.filter fun f => f.1 == key with
  | nil => cases after.filter fun f => f.1 == key <;> simp [h]
  | cons f fs => cases fs <;> rfl

/-- A question is read alike from choices that are. -/
theorem Question.decode?_congr (h : decodeChoices? i = decodeChoices? j) :
    (decode? (.object (before ++ ("choices", i) :: after)) : Option Question) =
      decode? (.object (before ++ ("choices", j) :: after)) := by
  have hother {name : String} (hname : name ≠ "choices") (place : Nat) :
      (Record.named (before ++ ("choices", i) :: after)).field? place name =
        (Record.named (before ++ ("choices", j) :: after)).field? place name :=
    Record.field?_of_ne hname place
  have hchoices : (decode? i : Option Choices) = decode? j := congrArg (Option.map Choices.mk) h
  unfold instCoded
  simp only [Record.ofJson?, Option.bind_eq_bind, Option.bind_some, Record.required,
    Record.optional, Record.orElse_congr hchoices]
  simp only [Record.orElse, hother (show "question_name" ≠ "choices" by decide),
    hother (show "variable" ≠ "choices" by decide), hother (show "type" ≠ "choices" by decide),
    hother (show "required" ≠ "choices" by decide), hother (show "default" ≠ "choices" by decide),
    hother (show "min" ≠ "choices" by decide), hother (show "max" ≠ "choices" by decide)]

end

/-- Choices are read alike from a list and from a text, whether they are joined by line feeds or
written on lines in any other way, and so is a question with either. What choices are read as is
written as a list that is read as the same. -/
theorem choices_read_alike (cs : List String) (h : ∀ c ∈ cs, IsChoice c) :
    Question.decodeChoices? (.list (cs.map .string)) = some cs ∧
    Question.decodeChoices? (.string ("\n".intercalate cs)) = some cs ∧
    (∀ t : ChoiceText, t.choices = cs →
      Question.decodeChoices? (.string (String.ofList t.chars)) = some cs ∧
      ∀ before after : List (String × Json),
        (decode? (.object (before ++ ("choices", .string (String.ofList t.chars)) :: after)) :
          Option Question) =
          decode? (.object (before ++ ("choices", .list (cs.map .string)) :: after))) ∧
    (∀ j ds, Question.decodeChoices? j = some ds →
      Question.decodeChoices? (encode ds) = some ds) := by
  have hlist (ds : List String) : Question.decodeChoices? (.list (ds.map .string)) = some ds :=
    Faithful.decode?_encode ds
  have htext {t : ChoiceText} (ht : t.choices = cs) :
      Question.decodeChoices? (.string (String.ofList t.chars)) = some cs := by
    rw [Question.decodeChoices?, ChoiceText.choicesOfText_chars (ht ▸ h), ht]
  refine ⟨hlist cs, ?_, fun t ht => ⟨htext ht, fun before after => ?_⟩, fun _ ds _ => hlist ds⟩
  · rw [Question.decodeChoices?, Question.choicesOfText_intercalate h]
  · exact Question.decode?_congr ((htext ht).trans (hlist cs).symm)

/-- Two choices with blanks around one of them and blank lines behind both, on lines that end in
different ways. -/
def ChoiceText.sample : ChoiceText :=
  let bare : Padding := ⟨[], nofun, nofun⟩
  ⟨[(.choice (.single ' ' rfl (by decide)) "dev" (.single '\t' rfl (by decide)),
      .carriageReturnLineFeed),
    (.blank (.single '\u00a0' rfl (by decide)), .lineFeed),
    (.choice bare "prod" bare, .lineFeed)],
    .blank bare⟩

theorem sample_choices_read_alike :
    (∀ c ∈ ["dev", "prod"], IsChoice c) ∧
    String.ofList ChoiceText.sample.chars = " dev\t\r\n\u00a0\nprod\n" ∧
    Question.decodeChoices? (.string " dev\t\r\n\u00a0\nprod\n") = some ["dev", "prod"] := by
  have hdev : IsChoice "dev" :=
    ⟨by decide, by decide, ⟨by simp [Text.isBlank], by simp [Text.isBlank]⟩⟩
  have hprod : IsChoice "prod" :=
    ⟨by decide, by decide, ⟨by simp [Text.isBlank], by simp [Text.isBlank]⟩⟩
  have hchoice : ∀ c ∈ ["dev", "prod"], IsChoice c :=
    List.forall_mem_cons.mpr ⟨hdev, List.forall_mem_singleton.mpr hprod⟩
  have hchars : String.ofList ChoiceText.sample.chars = " dev\t\r\n\u00a0\nprod\n" := by
    decide
  have hread := ((choices_read_alike ["dev", "prod"] hchoice).2.2.1 .sample rfl).1
  rw [hchars] at hread
  exact ⟨hchoice, hchars, hread⟩

end JobLaunch
