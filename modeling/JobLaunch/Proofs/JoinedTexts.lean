import JobLaunch.Text.Blank
/-!
Texts that are joined with a separator and cut at it again. Joined texts fall into the pieces that
each of them has, so they come back as they were only when none of them has the separator in it.
-/
namespace JobLaunch.Text
variable {separator : Char}

theorem splitOn_ne_nil (separator : Char) (cs : List Char) : splitOn separator cs ≠ [] := by
  cases cs with
  | nil => exact List.cons_ne_nil _ _
  | cons c cs =>
    rw [splitOn]
    split
    · split <;> exact List.cons_ne_nil _ _
    · exact List.cons_ne_nil _ _

theorem splitOn_separator_cons (separator : Char) (cs : List Char) :
    splitOn separator (separator :: cs) = [] :: splitOn separator cs := by
  obtain ⟨piece, pieces, h⟩ := List.exists_cons_of_ne_nil (splitOn_ne_nil separator cs)
  simp [splitOn, h]

theorem splitOn_cons_of_ne {c : Char} (hc : c ≠ separator) (cs : List Char) :
    splitOn separator (c :: cs) = (splitOn separator cs).modifyHead (c :: ·) := by
  obtain ⟨piece, pieces, h⟩ := List.exists_cons_of_ne_nil (splitOn_ne_nil separator cs)
  simp [splitOn, h, hc]

/-- What is cut at one separator is cut on both of its sides alone. -/
theorem splitOn_append (cs cs' : List Char) :
    splitOn separator (cs ++ separator :: cs') =
      splitOn separator cs ++ splitOn separator cs' := by
  induction cs with
  | nil => exact splitOn_separator_cons separator cs'
  | cons c cs ih =>
    by_cases hc : c = separator
    · rw [hc, List.cons_append, splitOn_separator_cons, splitOn_separator_cons, ih,
        List.cons_append]
    · obtain ⟨piece, pieces, h⟩ := List.exists_cons_of_ne_nil (splitOn_ne_nil separator cs)
      rw [List.cons_append, splitOn_cons_of_ne hc, splitOn_cons_of_ne hc, ih, h]
      rfl

theorem splitOn_of_not_mem {cs : List Char} (h : separator ∉ cs) : splitOn separator cs = [cs] := by
  induction cs with
  | nil => rfl
  | cons c cs ih =>
    obtain ⟨hc, hcs⟩ := not_or.mp (mt List.mem_cons.mpr h)
    rw [splitOn_cons_of_ne (Ne.symm hc), ih hcs]
    rfl

/-- No piece has the separator in it. -/
theorem not_mem_of_mem_splitOn {cs piece : List Char} (h : piece ∈ splitOn separator cs) :
    separator ∉ piece := by
  induction cs generalizing piece with
  | nil =>
    rw [List.mem_singleton.mp h]
    exact List.not_mem_nil
  | cons c cs ih =>
    by_cases hc : c = separator
    · rw [hc, splitOn_separator_cons] at h
      rcases List.mem_cons.mp h with rfl | h
      · exact List.not_mem_nil
      · exact ih h
    · obtain ⟨first, rest, hs⟩ := List.exists_cons_of_ne_nil (splitOn_ne_nil separator cs)
      rw [splitOn_cons_of_ne hc, hs] at h
      rw [hs] at ih
      rcases List.mem_cons.mp h with rfl | h
      · intro hmem
        rcases List.mem_cons.mp hmem with he | hfirst
        · exact hc he.symm
        · exact ih List.mem_cons_self hfirst
      · exact ih (List.mem_cons_of_mem _ h)

theorem commaSeparated_append (s s' : String) :
    commaSeparated (s ++ "," ++ s') = commaSeparated s ++ commaSeparated s' := by
  have hjoined : (s ++ "," ++ s').toList = s.toList ++ ',' :: s'.toList := by simp
  rw [commaSeparated, hjoined, splitOn_append, List.map_append]
  rfl

/-- Joined names are cut into the pieces of each of them. -/
theorem commaSeparated_intercalate {names : List String} (h : names ≠ []) :
    commaSeparated (",".intercalate names) = names.flatMap commaSeparated := by
  induction names with
  | nil => exact absurd rfl h
  | cons name names ih =>
    cases names with
    | nil => simp
    | cons next names =>
      rw [String.intercalate_cons_cons, commaSeparated_append, ih (List.cons_ne_nil _ _)]
      rfl

theorem commaSeparated_of_not_mem {s : String} (h : ',' ∉ s.toList) : commaSeparated s = [s] := by
  rw [commaSeparated, splitOn_of_not_mem h, List.map_singleton, String.ofList_toList]

/-- Names are the pieces of themselves exactly when they have no commas in them. -/
theorem flatMap_commaSeparated_eq_self {names : List String} :
    names.flatMap commaSeparated = names ↔ ∀ name ∈ names, ',' ∉ name.toList := by
  constructor
  · intro h name hname
    rw [← h] at hname
    obtain ⟨whole, -, hpiece⟩ := List.mem_flatMap.mp hname
    obtain ⟨piece, hmem, rfl⟩ := List.mem_map.mp hpiece
    rw [String.toList_ofList]
    exact not_mem_of_mem_splitOn hmem
  · intro h
    have hpieces : names.map commaSeparated = names.map fun name => [name] :=
      List.map_congr_left fun name hname => commaSeparated_of_not_mem (h name hname)
    rw [List.flatMap_def, hpieces, ← List.flatMap_def, List.flatMap_singleton']

end JobLaunch.Text
