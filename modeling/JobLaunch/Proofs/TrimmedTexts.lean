import JobLaunch.Text.Blank
/-!
Trimmed texts. Trimming takes the blanks at both ends of a text and nothing else: a text is a padding
of its trimmed form, and a padding of a body without blanks at its ends is trimmed to that body.
-/
namespace JobLaunch.Text

/-- Whether characters are a body with blanks around it. -/
def Pads (cs body : List Char) : Prop :=
  ∃ before after : List Char, (∀ c ∈ before, isBlank c) ∧ (∀ c ∈ after, isBlank c) ∧
    cs = before ++ body ++ after

theorem pads_self (cs : List Char) : Pads cs cs := ⟨[], [], nofun, nofun, by simp⟩

structure BlankFreeEnds (cs : List Char) : Prop where
  head : ∀ c ∈ cs.head?, isBlank c = false
  last : ∀ c ∈ cs.getLast?, isBlank c = false

theorem blankFreeEnds_nil : BlankFreeEnds [] := ⟨nofun, nofun⟩

theorem trimFront_append {before : List Char} (h : ∀ c ∈ before, isBlank c) (cs : List Char) :
    trimFront (before ++ cs) = trimFront cs :=
  List.dropWhile_append_of_pos h

theorem trimFront_of_head {cs : List Char} (h : ∀ c ∈ cs.head?, isBlank c = false) :
    trimFront cs = cs := by
  cases cs with
  | nil => rfl
  | cons c cs => rw [trimFront, List.dropWhile_cons, h c rfl, if_neg Bool.false_ne_true]

/-- What trimming takes off the front is blank. -/
theorem exists_append_trimFront (cs : List Char) :
    ∃ before : List Char, (∀ c ∈ before, isBlank c) ∧ cs = before ++ trimFront cs :=
  ⟨cs.takeWhile isBlank, List.all_eq_true.mp List.all_takeWhile,
    List.takeWhile_append_dropWhile.symm⟩

/-- What it takes off the back afterwards is blank too. -/
theorem exists_trim_append (cs : List Char) :
    ∃ after : List Char, (∀ c ∈ after, isBlank c) ∧ trimFront cs = trim cs ++ after := by
  obtain ⟨back, hback, heq⟩ := exists_append_trimFront (trimFront cs).reverse
  refine ⟨back.reverse, fun c hc => hback c (List.mem_reverse.mp hc), ?_⟩
  rw [← List.reverse_reverse (trimFront cs), heq, List.reverse_append]
  rfl

/-- A text is a padding of its trimmed form. -/
theorem pads_trim (cs : List Char) : Pads cs (trim cs) := by
  obtain ⟨before, hbefore, hfront⟩ := exists_append_trimFront cs
  obtain ⟨after, hafter, hback⟩ := exists_trim_append cs
  refine ⟨before, after, hbefore, hafter, ?_⟩
  rw [List.append_assoc, ← hback]
  exact hfront

/-- A padded body is trimmed to itself. -/
theorem trim_of_pads {cs body : List Char} (h : Pads cs body) (hbody : BlankFreeEnds body) :
    trim cs = body := by
  obtain ⟨before, after, hbefore, hafter, rfl⟩ := h
  cases body with
  | nil =>
    have hnil : trimFront after = [] := by
      simpa [trimFront] using trimFront_append hafter []
    rw [List.append_nil, trim, trimFront_append hbefore, hnil]
    rfl
  | cons c cs =>
    have hfront : trimFront (before ++ (c :: cs) ++ after) = c :: cs ++ after := by
      rw [List.append_assoc, trimFront_append hbefore]
      exact trimFront_of_head hbody.head
    have hback : trimFront (c :: cs ++ after).reverse = (c :: cs).reverse := by
      rw [List.reverse_append, trimFront_append fun d hd => hafter d (List.mem_reverse.mp hd)]
      refine trimFront_of_head ?_
      rw [List.head?_reverse]
      exact hbody.last
    rw [trim, hfront, hback, List.reverse_reverse]

theorem trimmed_of_pads {s body : String} (h : Pads s.toList body.toList)
    (hbody : BlankFreeEnds body.toList) : trimmed s = body := by
  rw [trimmed, trim_of_pads h hbody, String.ofList_toList]

end JobLaunch.Text
