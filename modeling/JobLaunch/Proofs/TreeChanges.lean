import JobLaunch.Proofs.FileWalks
/-!
Changes of a tree: directories are made, and files are written below a directory. What a walk reaches
in the changed tree it reached before, or it ended where the new node is.
-/
namespace JobLaunch.FileTree
variable {t t' t'' : FileTree} {links : Nat} {root path q : FilePath} {step : String}
  {steps : List String}

/-- Whether a node is what it was, or a directory that has been made or modified. -/
def KeepsAt (t t' : FileTree) (path : FilePath) : Prop :=
  t'.nodes[path]? = t.nodes[path]? ∨
    (∃ modified, t'.nodes[path]? = some (.directory modified)) ∧
      (t.nodes[path]? = none ∨ ∃ modified, t.nodes[path]? = some (.directory modified))

theorem KeepsAt.refl (t : FileTree) (path : FilePath) : t.KeepsAt t path := Or.inl rfl

theorem KeepsAt.trans (h : t.KeepsAt t' path) (h' : t'.KeepsAt t'' path) : t.KeepsAt t'' path := by
  rcases h with he | ⟨⟨modified, hn⟩, hold⟩
  · rw [KeepsAt, ← he]
    exact h'
  · right
    rcases h' with he | ⟨hnew, -⟩
    · exact ⟨⟨modified, he.trans hn⟩, hold⟩
    · exact ⟨hnew, hold⟩

theorem keepsAt_put (hne : path ≠ q) (node : FileNode) (now : Timestamp) :
    t.KeepsAt (t.put path node now) q := by
  rw [KeepsAt, getElem?_put, if_neg hne]
  split
  · cases hn : t.nodes[q]? with
    | none => exact Or.inl rfl
    | some old =>
      cases old with
      | directory modified => exact Or.inr ⟨⟨now, rfl⟩, Or.inr ⟨modified, rfl⟩⟩
      | file text modified => exact Or.inl rfl
      | link target => exact Or.inl rfl
  · exact Or.inl rfl

theorem grows_makeDirectories? {now : Timestamp}
    (h : makeDirectories? now t path steps = some t') : t.Grows t' := by
  fun_induction makeDirectories? now t path steps with
  | case1 t path =>
    cases h
    exact .refl _
  | case2 t path step steps m hw hm ih => exact ih h
  | case3 => cases h
  | case4 t path step steps hw ih =>
    obtain ⟨parent, name, he, -, -, hn⟩ := of_walk_eq_free hw
    exact (grows_put (he ▸ hn) _ now).trans (ih h)
  | case5 => cases h
  | case6 => cases h

/-- A way of two parts comes by the end of the first. -/
theorem Leads.split {first second : List String} (h : t.Leads links path (first ++ second) q) :
    ∃ m links', t.Leads links path first m ∧ t.Leads links' m second q := by
  generalize hsteps : first ++ second = steps at h
  induction h generalizing first with
  | @done links path =>
    obtain ⟨rfl, rfl⟩ := List.append_eq_nil_iff.mp hsteps
    exact ⟨path, links, .done, .done⟩
  | @stay links path step steps q hd hs h ih =>
    cases first with
    | nil =>
      rw [List.nil_append] at hsteps
      subst hsteps
      exact ⟨path, links, .done, .stay hd hs h⟩
    | cons step first =>
      obtain ⟨rfl, hrest⟩ := List.cons.inj hsteps
      obtain ⟨m, links', h1, h2⟩ := ih hrest
      exact ⟨m, links', .stay hd hs h1, h2⟩
  | @up links path steps q above hd ha h ih =>
    cases first with
    | nil =>
      rw [List.nil_append] at hsteps
      subst hsteps
      exact ⟨path, links, .done, .up hd ha h⟩
    | cons step first =>
      obtain ⟨rfl, hrest⟩ := List.cons.inj hsteps
      obtain ⟨m, links', h1, h2⟩ := ih hrest
      exact ⟨m, links', .up hd ha h1, h2⟩
  | @follow links path step steps q target start hd hs hl ha h ih =>
    cases first with
    | nil =>
      rw [List.nil_append] at hsteps
      subst hsteps
      exact ⟨path, links + 1, .done, .follow hd hs hl ha h⟩
    | cons step first =>
      obtain ⟨rfl, hrest⟩ := List.cons.inj hsteps
      have htail : (components target ++ first) ++ second = components target ++ steps := by
        rw [List.append_assoc]
        exact congrArg _ hrest
      obtain ⟨m, links', h1, h2⟩ := ih htail
      exact ⟨m, links', .follow hd hs hl ha h1, h2⟩
  | @enter links path step steps q node hd hs hn hk h ih =>
    cases first with
    | nil =>
      rw [List.nil_append] at hsteps
      subst hsteps
      exact ⟨path, links, .done, .enter hd hs hn hk h⟩
    | cons step first =>
      obtain ⟨rfl, hrest⟩ := List.cons.inj hsteps
      obtain ⟨m, links', h1, h2⟩ := ih hrest
      exact ⟨m, links', .enter hd hs hn hk h1, h2⟩

/-- A way through a name comes by a node. -/
theorem Leads.isSome_of_name (h : t.Leads links path (step :: steps) q)
    (hs : step ∉ ["", ".", ".."]) : (t.nodes[path ++ [step]]?).isSome := by
  cases h with
  | stay hd hdot h =>
    rcases hdot with rfl | rfl
    · simp at hs
    · simp at hs
  | up hd ha h => simp at hs
  | follow hd hname hl ha h =>
    rw [hl]
    rfl
  | enter hd hname hn hk h =>
    rw [hn]
    rfl

theorem Leads.eq_of_walk (h : t.Leads links path steps q) {budget : Nat} {q' : FilePath}
    (hw : t.walk budget path steps = .node q') : q = q' := by
  rcases h.walk_eq_or budget with he | ⟨-, he⟩
  · rw [hw] at he
    cases he
    rfl
  · rw [hw] at he
    cases he

/-- Where there is a way, no directory is missing on it. -/
theorem eq_of_makeDirectories? {now : Timestamp} (hl : t.Leads links path steps q)
    (h : makeDirectories? now t path steps = some t') : t' = t := by
  fun_induction makeDirectories? now t path steps generalizing links with
  | case1 t path =>
    cases h
    rfl
  | case2 t path step steps m hw hm ih =>
    have hl' : t.Leads links path ([step] ++ steps) q := hl
    obtain ⟨m', links', h1, h2⟩ := hl'.split
    obtain rfl := h1.eq_of_walk hw
    exact ih h2 h
  | case3 => cases h
  | case4 t path step steps hw ih =>
    have hl' : t.Leads links path ([step] ++ steps) q := hl
    obtain ⟨m', links', h1, -⟩ := hl'.split
    rcases h1.walk_eq_or linkLimit with hw' | ⟨-, hw'⟩
    · rw [hw] at hw'
      cases hw'
    · rw [hw] at hw'
      cases hw'
  | case5 => cases h
  | case6 => cases h

/-- What is made is a directory. -/
theorem isDirectory_of_makeDirectories? {now : Timestamp} (hd : t.isDirectory path)
    (h : makeDirectories? now t path steps = some t') (hl : t'.Leads links path steps q) :
    t'.isDirectory q := by
  fun_induction makeDirectories? now t path steps generalizing links with
  | case1 t path =>
    cases h
    cases hl
    exact hd
  | case2 t path step steps m hw hm ih =>
    have hl' : t'.Leads links path ([step] ++ steps) q := hl
    obtain ⟨m', links', h1, h2⟩ := hl'.split
    obtain rfl := h1.eq_of_walk ((grows_makeDirectories? h).walk hw)
    exact ih hm h h2
  | case3 => cases h
  | case4 t path step steps hw ih =>
    obtain ⟨parent, name, he, hp, hs, hn⟩ := of_walk_eq_free hw
    obtain ⟨rfl, hname⟩ := List.append_inj' he rfl
    cases hname
    have hmade : (t.put (path ++ [step]) (.directory now) now).nodes[path ++ [step]]? =
        some (.directory now) := by
      rw [getElem?_put, if_pos rfl]
    have hway : (t.put (path ++ [step]) (.directory now) now).Leads linkLimit path [step]
        (path ++ [step]) :=
      .enter ((grows_put hn _ now).isDirectory hp) hs hmade (by intro target he; cases he) .done
    have hl' : t'.Leads links path ([step] ++ steps) q := hl
    obtain ⟨m', links', h1, h2⟩ := hl'.split
    obtain rfl := h1.eq_of_walk (hway.grows (grows_makeDirectories? h)).walk_eq
    exact ih (isDirectory_iff.mpr (Or.inr ⟨now, hmade⟩)) h h2
  | case5 => cases h
  | case6 => cases h

/-- Whether a tree differs from another only in files below a directory, and in when directories were
modified. -/
structure FilledBelow (root : FilePath) (t t' : FileTree) : Prop where
  grows : t.Grows t'
  added : ∀ {q : FilePath} {node : FileNode}, t'.nodes[q]? = some node → t.nodes[q]? = none →
    ∃ text modified, node = .file text modified
  outside : ∀ q, ¬root <+: q → t.KeepsAt t' q

theorem FilledBelow.refl (root : FilePath) (t : FileTree) : FilledBelow root t t where
  grows := .refl t
  added h hn := by
    rw [hn] at h
    cases h
  outside q _ := .refl t q

theorem FilledBelow.trans (h : FilledBelow root t t') (h' : FilledBelow root t' t'') :
    FilledBelow root t t'' where
  grows := h.grows.trans h'.grows
  added {q node} hq hn := by
    cases hm : t'.nodes[q]? with
    | none => exact h'.added hq hm
    | some old =>
      obtain ⟨text, modified, rfl⟩ := h.added hm hn
      obtain ⟨node', hn', hb⟩ := h'.grows.node hm
      rw [hq, Option.some.injEq] at hn'
      subst hn'
      cases hb
      exact ⟨_, _, rfl⟩
  outside q hq := (h.outside q hq).trans (h'.outside q hq)

theorem filledBelow_put (hr : root <+: path) (hn : t.nodes[path]? = none) (text : String)
    (modified now : Timestamp) : FilledBelow root t (t.put path (.file text modified) now) where
  grows := grows_put hn _ now
  added {q node} hq hnone := by
    rw [getElem?_put] at hq
    split at hq
    · cases hq
      exact ⟨text, modified, rfl⟩
    · rw [hnone] at hq
      split at hq <;> cases hq
  outside q hq := by
    apply keepsAt_put
    rintro rfl
    exact hq hr

theorem filledBelow_overwrite (hr : root <+: path) {old text : String} {before modified : Timestamp}
    (hn : t.nodes[path]? = some (.file old before)) :
    FilledBelow root t { t with nodes := t.nodes.insert path (.file text modified) } where
  grows := grows_overwrite hn
  added {q node} hq hnone := by
    have hne : path ≠ q := by
      rintro rfl
      rw [hn] at hnone
      cases hnone
    rw [Std.ExtTreeMap.getElem?_insert, if_neg (by simpa using hne), hnone] at hq
    cases hq
  outside q hq := by
    left
    rw [Std.ExtTreeMap.getElem?_insert, if_neg]
    rw [Std.compare_eq_iff_eq]
    rintro rfl
    exact hq hr

/-- No directory is new. -/
theorem FilledBelow.isDirectory (h : FilledBelow root t t') (hd : t'.isDirectory path) :
    t.isDirectory path := by
  rcases isDirectory_iff.mp hd with hp | ⟨modified, hn⟩
  · exact isDirectory_iff.mpr (Or.inl hp)
  · cases ht : t.nodes[path]? with
    | none =>
      obtain ⟨text, modified', he⟩ := h.added hn ht
      cases he
    | some node =>
      obtain ⟨node', hn', hb⟩ := h.grows.node ht
      rw [hn, Option.some.injEq] at hn'
      subst hn'
      cases hb
      exact isDirectory_iff.mpr (Or.inr ⟨_, ht⟩)

/-- From a file there is no way. -/
theorem Leads.eq_of_file {text : String} {modified : Timestamp} (h : t.Leads links path steps q)
    (hp : path ≠ []) (hn : t.nodes[path]? = some (.file text modified)) : steps = [] ∧ q = path := by
  have hnot : ¬t.isDirectory path := by simp [isDirectory_iff, hp, hn]
  cases h with
  | done => exact ⟨rfl, rfl⟩
  | stay hd hs h => exact absurd hd hnot
  | up hd ha h => exact absurd hd hnot
  | follow hd hs hl ha h => exact absurd hd hnot
  | enter hd hs hn' hk h => exact absurd hd hnot

/-- A walk goes the way it went before the files were written, but for a file that is new: there it
ended. -/
theorem FilledBelow.walk_or (hf : FilledBelow root t t') (h : t'.Leads links path steps q) :
    t.walk links path steps = .node q ∨ t.walk links path steps = .free q := by
  induction h with
  | done => exact Or.inl (by rw [walk])
  | stay hd hs h ih => simpa [walk, hf.isDirectory hd, hs] using ih
  | up hd ha h ih =>
    rw [hf.grows.above?_eq] at ha
    simpa [walk, hf.isDirectory hd, ha] using ih
  | @follow links path step steps q target start hd hs hl ha h ih =>
    obtain ⟨h0, h1, h2⟩ := ne_of_isName hs
    rw [hf.grows.start?_eq] at ha
    cases hn : t.nodes[path ++ [step]]? with
    | none =>
      obtain ⟨text, modified, he⟩ := hf.added hl hn
      cases he
    | some node =>
      obtain ⟨node', hn', hb⟩ := hf.grows.node hn
      rw [hl, Option.some.injEq] at hn'
      subst hn'
      cases hb
      simpa [walk, hf.isDirectory hd, hs, hn, ha, h0, h1, h2] using ih
  | @enter links path step steps q node hd hs hn' hk h ih =>
    obtain ⟨h0, h1, h2⟩ := ne_of_isName hs
    cases hn : t.nodes[path ++ [step]]? with
    | none =>
      obtain ⟨text, modified, rfl⟩ := hf.added hn' hn
      obtain ⟨rfl, rfl⟩ := h.eq_of_file (by simp) hn'
      exact Or.inr (by simp [walk, hf.isDirectory hd, hs, hn, h0, h1, h2])
    | some old =>
      obtain ⟨node', hnode, hb⟩ := hf.grows.node hn
      rw [hn', Option.some.injEq] at hnode
      subst hnode
      cases hb with
      | link target => exact absurd rfl (hk target)
      | file => simpa [walk, hf.isDirectory hd, hs, hn, h0, h1, h2] using ih
      | directory => simpa [walk, hf.isDirectory hd, hs, hn, h0, h1, h2] using ih

/-- A node that was there is reached the way it was reached. -/
theorem FilledBelow.walk_of_some (hf : FilledBelow root t t')
    (h : t'.walk links path steps = .node q) {node : FileNode} (hn : t.nodes[q]? = some node) :
    t.walk links path steps = .node q := by
  rcases hf.walk_or (leads_of_walk h) with hq | hq
  · exact hq
  · obtain ⟨parent, last, rfl, -, -, hnone⟩ := of_walk_eq_free hq
    rw [hn] at hnone
    cases hnone

/-- Whether trees differ only in the texts of files, and in when files and directories were
modified. -/
def SameShape (t t' : FileTree) : Prop := t.Grows t' ∧ t'.Grows t

theorem SameShape.isDirectory_eq (h : t.SameShape t') (path : FilePath) :
    t'.isDirectory path = t.isDirectory path :=
  Bool.eq_iff_iff.mpr ⟨h.2.isDirectory, h.1.isDirectory⟩

theorem SameShape.getElem?_eq_none_iff (h : t.SameShape t') :
    t'.nodes[path]? = none ↔ t.nodes[path]? = none := by
  constructor
  · intro hn
    cases ht : t.nodes[path]? with
    | none => rfl
    | some node =>
      obtain ⟨node', hn', -⟩ := h.1.node ht
      rw [hn] at hn'
      cases hn'
  · intro hn
    cases ht : t'.nodes[path]? with
    | none => rfl
    | some node =>
      obtain ⟨node', hn', -⟩ := h.2.node ht
      rw [hn] at hn'
      cases hn'

theorem SameShape.getElem?_link (h : t.SameShape t') {target : String}
    (hn : t.nodes[path]? = some (.link target)) : t'.nodes[path]? = some (.link target) := by
  obtain ⟨node, hn', hb⟩ := h.1.node hn
  cases hb
  exact hn'

/-- Walks do not look into files. -/
theorem SameShape.walk_eq (h : t.SameShape t') (links : Nat) (path : FilePath)
    (steps : List String) : t'.walk links path steps = t.walk links path steps := by
  fun_induction walk t links path steps with
  | case1 links path => rw [walk]
  | case2 links path step steps hd => rw [walk, h.isDirectory_eq, if_pos hd]
  | case3 links path step steps hd hs ih => rw [walk, h.isDirectory_eq, if_neg hd, if_pos hs, ih]
  | case4 links path steps hd ha hs =>
    simp [walk, h.isDirectory_eq, hd, h.1.above?_eq, ha]
  | case5 links path steps hd above ha hs ih =>
    simp [walk, h.isDirectory_eq, hd, h.1.above?_eq, ha, ih]
  | case6 links path step steps hd hs hu hn =>
    rw [walk, h.isDirectory_eq, if_neg hd, if_neg hs, if_neg hu, if_pos hn]
  | case7 links path step steps hd hs hu hn hnode hlast =>
    rw [walk, h.isDirectory_eq, if_neg hd, if_neg hs, if_neg hu, if_neg hn,
      h.getElem?_eq_none_iff.mpr hnode, if_pos hlast]
  | case8 links path step steps hd hs hu hn hnode hlast =>
    rw [walk, h.isDirectory_eq, if_neg hd, if_neg hs, if_neg hu, if_neg hn,
      h.getElem?_eq_none_iff.mpr hnode, if_neg hlast]
  | case9 path step steps hd hs hu hn target hl =>
    rw [walk, h.isDirectory_eq, if_neg hd, if_neg hs, if_neg hu, if_neg hn, h.getElem?_link hl]
  | case10 path step steps hd hs hu hn target hl links ha =>
    rw [walk, h.isDirectory_eq, if_neg hd, if_neg hs, if_neg hu, if_neg hn, h.getElem?_link hl]
    simp only [h.1.start?_eq, ha]
  | case11 path step steps hd hs hu hn target hl links start ha ih =>
    rw [walk, h.isDirectory_eq, if_neg hd, if_neg hs, if_neg hu, if_neg hn, h.getElem?_link hl]
    simp only [h.1.start?_eq, ha, ih]
  | case12 links path step steps hd hs hu hn node hk hnode ih =>
    obtain ⟨node', hn', hb⟩ := h.1.node hnode
    rw [walk, h.isDirectory_eq, if_neg hd, if_neg hs, if_neg hu, if_neg hn, hn', ← ih]
    cases hb with
    | link target => exact absurd rfl (hk target)
    | file => rfl
    | directory => rfl

end JobLaunch.FileTree
