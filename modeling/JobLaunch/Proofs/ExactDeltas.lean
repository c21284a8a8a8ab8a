import JobLaunch.Proofs.FieldDecisions
/-!
Differences of selections. What a launch adds to the credentials and labels of a template is exactly
what is requested and not assigned, however often and in which order it is requested. The difference
is taken by the resolution and again by the plan, and the second time changes nothing.
-/
namespace JobLaunch

section
variable {α κ : Type} [DecidableEq κ] (key : α → κ)

def firstPlace (items : List α) (k : κ) : Nat := items.findIdx fun x => key x == k

/-- Whether a list is what is requested beyond what is assigned: it has the keys that are requested
and not assigned, each once, by the first item that requests it, in the order of these items. -/
structure IsDifference (assigned requested added : List α) : Prop where
  nodup : (added.map key).Nodup
  mem_keys : ∀ k, k ∈ added.map key ↔ k ∈ requested.map key ∧ k ∉ assigned.map key
  first : ∀ x ∈ added, requested.find? (fun y => key y == key x) = some x
  order : added.Pairwise fun x y =>
    firstPlace key requested (key x) < firstPlace key requested (key y)

/-- Whether selections are compared and joined exactly by their keys. -/
structure ExactDelta (delta effective : List α → List α → List α) : Prop where
  difference : ∀ assigned requested,
    IsDifference key assigned requested (delta assigned requested)
  again : ∀ assigned requested,
    delta assigned (delta assigned requested) = delta assigned requested
  effective_eq : ∀ assigned requested,
    effective assigned requested = assigned ++ delta assigned requested
  effective_again : ∀ assigned requested,
    effective assigned (delta assigned requested) = effective assigned requested
  /-- Each missing key is added once, and the others keep their number. -/
  count : ∀ assigned requested k, ((effective assigned requested).map key).count k =
    (assigned.map key).count k + if k ∈ requested.map key ∧ k ∉ assigned.map key then 1 else 0
  /-- Requests for the same keys add the same keys. -/
  congr : ∀ assigned requested requested',
    (∀ k, k ∈ requested.map key ↔ k ∈ requested'.map key) →
      (∀ k, k ∈ (delta assigned requested).map key ↔ k ∈ (delta assigned requested').map key) ∧
        (delta assigned requested = [] ↔ delta assigned requested' = [])

variable {key}

theorem firstPlace_cons_self (x : α) (xs : List α) : firstPlace key (x :: xs) (key x) = 0 := by
  simp [firstPlace, List.findIdx_cons]

theorem firstPlace_cons_of_ne {x : α} {k : κ} (h : key x ≠ k) (xs : List α) :
    firstPlace key (x :: xs) k = firstPlace key xs k + 1 := by
  rw [firstPlace, List.findIdx_cons, beq_false_of_ne h]
  rfl

theorem IsDifference.count_append {assigned requested added : List α}
    (h : IsDifference key assigned requested added) (k : κ) :
    ((assigned ++ added).map key).count k =
      (assigned.map key).count k +
        if k ∈ requested.map key ∧ k ∉ assigned.map key then 1 else 0 := by
  rw [List.map_append, List.count_append, h.nodup.count]
  simp only [h.mem_keys]

/-- Differences that have the same keys are empty together. -/
theorem IsDifference.congr {assigned requested requested' added added' : List α}
    (h : IsDifference key assigned requested added)
    (h' : IsDifference key assigned requested' added')
    (hsame : ∀ k, k ∈ requested.map key ↔ k ∈ requested'.map key) :
    (∀ k, k ∈ added.map key ↔ k ∈ added'.map key) ∧ (added = [] ↔ added' = []) := by
  have hkeys (k : κ) : k ∈ added.map key ↔ k ∈ added'.map key := by
    rw [h.mem_keys, h'.mem_keys, hsame]
  refine ⟨hkeys, ?_⟩
  rw [← List.map_eq_nil_iff (f := key), ← List.map_eq_nil_iff (f := key) (l := added'),
    List.eq_nil_iff_forall_not_mem, List.eq_nil_iff_forall_not_mem]
  exact forall_congr' fun k => not_congr (hkeys k)

end

section
variable {α κ : Type} [Ord κ] [Std.TransOrd κ] {key : α → κ} {seen : Std.ExtTreeSet κ}

theorem ne_of_mem_novel {x y : α} {xs : List α} (hy : key y ∈ seen)
    (hx : x ∈ novel key seen xs) : key y ≠ key x := by
  intro he
  rw [he] at hy
  exact (of_mem_novel key hx).2 hy

theorem mem_map_novel_iff [Std.LawfulEqOrd κ] {xs : List α} {k : κ} :
    k ∈ (novel key seen xs).map key ↔ k ∈ xs.map key ∧ k ∉ seen := by
  constructor
  · intro h
    obtain ⟨x, hx, rfl⟩ := List.mem_map.mp h
    obtain ⟨hm, hs⟩ := of_mem_novel key hx
    exact ⟨List.mem_map_of_mem hm, hs⟩
  · rintro ⟨h, hs⟩
    obtain ⟨x, hx, rfl⟩ := List.mem_map.mp h
    obtain ⟨y, hy, he⟩ := (seen_or_novel key seen hx).resolve_left hs
    rw [← he]
    exact List.mem_map_of_mem hy

variable [DecidableEq κ]

/-- An item is taken where its key comes first. -/
theorem find?_of_mem_novel {x : α} {xs : List α} (h : x ∈ novel key seen xs) :
    xs.find? (fun y => key y == key x) = some x := by
  induction xs generalizing seen with
  | nil => cases h
  | cons y ys ih =>
    rw [novel] at h
    split at h
    · rename_i hseen
      rw [List.find?_cons_of_neg (by simpa using ne_of_mem_novel hseen h)]
      exact ih h
    rcases List.mem_cons.mp h with rfl | h
    · exact List.find?_cons_of_pos (beq_self_eq_true (key x))
    · have hne := ne_of_mem_novel Std.ExtTreeSet.mem_insert_self h
      rw [List.find?_cons_of_neg (by simpa using hne)]
      exact ih h

/-- Items are taken in the order in which their keys come first. -/
theorem pairwise_firstPlace_novel (seen : Std.ExtTreeSet κ) (xs : List α) :
    (novel key seen xs).Pairwise fun x y =>
      firstPlace key xs (key x) < firstPlace key xs (key y) := by
  induction xs generalizing seen with
  | nil => exact List.Pairwise.nil
  | cons z zs ih =>
    -- behind an item whose key has been seen all places are one further
    have hshift {seen : Std.ExtTreeSet κ} (hz : key z ∈ seen) :
        (novel key seen zs).Pairwise fun x y =>
          firstPlace key (z :: zs) (key x) < firstPlace key (z :: zs) (key y) := by
      refine (ih seen).imp_of_mem fun hx hy hlt => ?_
      rw [firstPlace_cons_of_ne (ne_of_mem_novel hz hx),
        firstPlace_cons_of_ne (ne_of_mem_novel hz hy)]
      exact Nat.succ_lt_succ hlt
    rw [novel]
    split
    · exact hshift ‹_›
    · refine List.pairwise_cons.mpr ⟨fun y hy => ?_, hshift Std.ExtTreeSet.mem_insert_self⟩
      rw [firstPlace_cons_self,
        firstPlace_cons_of_ne (ne_of_mem_novel Std.ExtTreeSet.mem_insert_self hy)]
      exact Nat.succ_pos _

variable [Std.LawfulEqOrd κ]

theorem isDifference_novel (assigned requested : List α) :
    IsDifference key assigned requested
      (novel key (.ofList (assigned.map key)) requested) where
  nodup := nodup_map_novel key _ _
  mem_keys k := by simp [mem_map_novel_iff]
  first _ hx := find?_of_mem_novel hx
  order := pairwise_firstPlace_novel _ _

/-- Unseen items are an exact difference. -/
theorem exactDelta_novel {delta effective : List α → List α → List α}
    (hdelta : ∀ assigned requested,
      delta assigned requested = novel key (.ofList (assigned.map key)) requested)
    (heffective : ∀ assigned requested,
      effective assigned requested = assigned ++ delta assigned requested) :
    ExactDelta key delta effective where
  difference assigned requested := by
    rw [hdelta]
    exact isDifference_novel assigned requested
  again assigned requested := by
    rw [hdelta, hdelta, novel_novel]
  effective_eq := heffective
  effective_again assigned requested := by
    rw [heffective, heffective, hdelta, hdelta, novel_novel]
  count assigned requested k := by
    rw [heffective, hdelta]
    exact (isDifference_novel assigned requested).count_append k
  congr assigned requested requested' hsame := by
    rw [hdelta, hdelta]
    exact (isDifference_novel assigned requested).congr (isDifference_novel assigned requested')
      hsame

end

def effectiveLabels (assigned requested : List Id) : List Id :=
  assigned ++ idDelta assigned requested

theorem exactDelta_credentials :
    ExactDelta (·.id) credentialDelta effectiveCredentials :=
  exactDelta_novel (fun _ _ => rfl) fun _ _ => rfl

theorem exactDelta_labels : ExactDelta (fun i => i) idDelta effectiveLabels := by
  refine exactDelta_novel (fun assigned requested => ?_) fun _ _ => rfl
  rw [List.map_id']
  rfl

namespace JobTemplate
variable (t : JobTemplate)

/-- What a request for credentials changes is what it adds, if it adds anything. -/
theorem getD_effect?_credentials (requested : List Credential) :
    (t.effect? .credentials requested).getD [] = credentialDelta t.credentials requested := by
  rw [effect?_credentials]
  split
  · exact Eq.symm ‹_›
  · rfl

@[inherit_doc getD_effect?_credentials]
theorem getD_effect?_labels (requested : List Id) :
    (t.effect? .labels requested).getD [] = idDelta t.labels requested := by
  rw [effect?_labels]
  split
  · exact Eq.symm ‹_›
  · rfl

end JobTemplate

/-- Credentials and labels that a launch adds are exact differences. A job has the template's and the
accepted ones beyond them, which are the same whether all that is requested is accepted or only what
it changes. -/
theorem deltas_are_exact_differences :
    ExactDelta (·.id) credentialDelta effectiveCredentials ∧
    ExactDelta (fun i => i) idDelta effectiveLabels ∧
    ∀ (t : JobTemplate) (res : Resolution) (r : LaunchRequest),
      (t.jobSpec res r).credentials =
          effectiveCredentials t.credentials (res.accepted.credentials.getD []) ∧
        (t.jobSpec res r).labels = effectiveLabels t.labels (res.accepted.labels.getD []) ∧
        (∀ requested, effectiveCredentials t.credentials
          ((t.effect? .credentials requested).getD []) =
            effectiveCredentials t.credentials requested) ∧
        ∀ requested, effectiveLabels t.labels ((t.effect? .labels requested).getD []) =
          effectiveLabels t.labels requested := by
  refine ⟨exactDelta_credentials, exactDelta_labels, fun t res r => ⟨rfl, rfl, ?_, ?_⟩⟩
  · intro requested
    rw [t.getD_effect?_credentials, exactDelta_credentials.effective_again]
  · intro requested
    rw [t.getD_effect?_labels, exactDelta_labels.effective_again]

end JobLaunch
