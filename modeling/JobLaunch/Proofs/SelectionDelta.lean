import JobLaunch.Novel
/-!
What a selection adds to the one that is assigned: nothing that is requested is lost, no key is added
twice, and adding again adds nothing more.
-/
namespace JobLaunch
section
variable {α κ : Type} [Ord κ] [Std.TransOrd κ] (key : α → κ)

theorem novel_novel (seen : Std.ExtTreeSet κ) (xs : List α) :
    novel key seen (novel key seen xs) = novel key seen xs := by
  induction xs generalizing seen with
  | nil => rfl
  | cons x xs ih =>
    by_cases hx : key x ∈ seen
    · simp only [novel, hx, if_true, ih]
    · simp only [novel, hx, if_false, ih]

theorem of_mem_novel {seen : Std.ExtTreeSet κ} {xs : List α} {x : α}
    (h : x ∈ novel key seen xs) : x ∈ xs ∧ key x ∉ seen := by
  induction xs generalizing seen with
  | nil => cases h
  | cons y ys ih =>
    rw [novel] at h
    split at h
    · obtain ⟨hm, hs⟩ := ih h
      exact ⟨List.mem_cons_of_mem _ hm, hs⟩
    · rcases List.mem_cons.mp h with rfl | h
      · exact ⟨List.mem_cons_self, ‹_›⟩
      · obtain ⟨hm, hs⟩ := ih h
        rw [Std.ExtTreeSet.mem_insert] at hs
        exact ⟨List.mem_cons_of_mem _ hm, fun hx => hs (Or.inr hx)⟩

/-- No key is taken twice. -/
theorem nodup_map_novel (seen : Std.ExtTreeSet κ) (xs : List α) :
    ((novel key seen xs).map key).Nodup := by
  induction xs generalizing seen with
  | nil => exact List.nodup_nil
  | cons x xs ih =>
    rw [novel]
    split
    · exact ih seen
    · rw [List.map_cons, List.nodup_cons]
      refine ⟨fun h => ?_, ih _⟩
      obtain ⟨y, hy, he⟩ := List.mem_map.mp h
      refine (of_mem_novel key hy).2 ?_
      rw [he]
      exact Std.ExtTreeSet.mem_insert_self

variable [Std.LawfulEqOrd κ]

/-- The items with unseen keys, each after the first of its key left out. -/
theorem novel_eq_eraseDupsBy [DecidableEq κ] (seen : Std.ExtTreeSet κ) (xs : List α) :
    novel key seen xs =
      (xs.filter fun x => key x ∉ seen).eraseDupsBy fun x y => key x == key y := by
  induction xs generalizing seen with
  | nil => rfl
  | cons x xs ih =>
    rw [novel]
    by_cases hx : key x ∈ seen
    · rw [if_pos hx, ih, List.filter_cons_of_neg (by simpa using hx)]
    · rw [if_neg hx, ih, List.filter_cons_of_pos (by simpa using hx), List.eraseDupsBy_cons,
        List.filter_filter]
      congr 2
      refine List.filter_congr fun y _ => ?_
      rw [Bool.eq_iff_iff]
      simp only [Std.ExtTreeSet.mem_insert, Std.compare_eq_iff_eq, not_or, decide_eq_true_eq,
        beq_eq_false_iff_ne, Bool.and_eq_true]
      exact and_congr_left' (not_congr eq_comm)

theorem seen_or_novel (seen : Std.ExtTreeSet κ) {xs : List α} {x : α} (h : x ∈ xs) :
    key x ∈ seen ∨ ∃ y ∈ novel key seen xs, key y = key x := by
  induction xs generalizing seen with
  | nil => cases h
  | cons z zs ih =>
    rw [novel]
    rcases List.mem_cons.mp h with rfl | h
    · split
      · exact Or.inl ‹_›
      · exact Or.inr ⟨x, List.mem_cons_self, rfl⟩
    · split
      · exact ih seen h
      · rcases ih (seen.insert (key z)) h with hs | ⟨y, hy, he⟩
        · -- either `x` was seen before or it repeats the item just taken
          rcases Std.ExtTreeSet.mem_insert.mp hs with hz | hs
          · exact Or.inr ⟨z, List.mem_cons_self, Std.compare_eq_iff_eq.mp hz⟩
          · exact Or.inl hs
        · exact Or.inr ⟨y, List.mem_cons_of_mem _ hy, he⟩

end

theorem idDelta_idDelta (assigned requested : List Id) :
    idDelta assigned (idDelta assigned requested) = idDelta assigned requested :=
  novel_novel _ _ _

theorem credentialDelta_credentialDelta (assigned requested : List Credential) :
    credentialDelta assigned (credentialDelta assigned requested) =
      credentialDelta assigned requested :=
  novel_novel _ _ _

theorem mem_append_idDelta {assigned requested : List Id} {i : Id} (h : i ∈ requested) :
    i ∈ assigned ++ idDelta assigned requested := by
  rw [List.mem_append]
  rcases seen_or_novel id (Std.ExtTreeSet.ofList assigned) h with hs | ⟨x, hx, rfl⟩
  · exact Or.inl (by simpa using hs)
  · exact Or.inr hx

theorem exists_mem_effectiveCredentials {assigned requested : List Credential} {c : Credential}
    (h : c ∈ requested) : ∃ d ∈ effectiveCredentials assigned requested, d.id = c.id := by
  rcases seen_or_novel (·.id) (Std.ExtTreeSet.ofList (assigned.map (·.id))) h with hs | ⟨d, hd, he⟩
  · obtain ⟨d, hd, he⟩ : ∃ d ∈ assigned, d.id = c.id := by simpa using hs
    exact ⟨d, List.mem_append_left _ hd, he⟩
  · exact ⟨d, List.mem_append_right _ hd, he⟩

end JobLaunch
