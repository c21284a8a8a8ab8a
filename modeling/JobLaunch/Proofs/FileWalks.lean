import JobLaunch.Files
/-!
Where walks lead. A walk that has found its way finds it again in every tree that grows from the
first one, by new nodes or by new texts of files.
-/
namespace JobLaunch

/-- What a node can become without walks past it changing: a link stays, a directory stays one. -/
inductive FileNode.Becomes : FileNode → FileNode → Prop
  | file (text text' : String) (modified modified' : Timestamp) :
    Becomes (.file text modified) (.file text' modified')
  | directory (modified modified' : Timestamp) :
    Becomes (.directory modified) (.directory modified')
  | link (target : String) : Becomes (.link target) (.link target)

theorem FileNode.Becomes.refl (node : FileNode) : node.Becomes node := by
  cases node with
  | file text modified => exact .file text text modified modified
  | directory modified => exact .directory modified modified
  | link target => exact .link target

theorem FileNode.Becomes.trans {a b c : FileNode} (h : a.Becomes b) (h' : b.Becomes c) :
    a.Becomes c := by
  cases h <;> cases h' <;> constructor

namespace FileTree
variable {t t' t'' : FileTree} {links : Nat} {path q : FilePath} {step : String}
  {steps : List String}

structure Grows (t t' : FileTree) : Prop where
  isWhole : t'.isWhole = t.isWhole
  node : ∀ {path : FilePath} {node : FileNode}, t.nodes[path]? = some node →
    ∃ node', t'.nodes[path]? = some node' ∧ node.Becomes node'

theorem Grows.refl (t : FileTree) : t.Grows t where
  isWhole := rfl
  node {_ node} h := ⟨node, h, .refl node⟩

theorem Grows.trans (h : t.Grows t') (h' : t'.Grows t'') : t.Grows t'' where
  isWhole := h'.isWhole.trans h.isWhole
  node hn := by
    obtain ⟨node', hn', hb⟩ := h.node hn
    obtain ⟨node'', hn'', hb'⟩ := h'.node hn'
    exact ⟨node'', hn'', hb.trans hb'⟩

theorem Grows.above?_eq (h : t.Grows t') (path : FilePath) : t'.above? path = t.above? path := by
  rw [above?, above?, h.isWhole]

theorem Grows.start?_eq (h : t.Grows t') (path : FilePath) (target : String) :
    t'.start? path target = t.start? path target := by
  rw [start?, start?, h.isWhole]

theorem isDirectory_iff :
    t.isDirectory path ↔ path = [] ∨ ∃ modified, t.nodes[path]? = some (.directory modified) := by
  cases hn : t.nodes[path]? with
  | none => simp [isDirectory, hn]
  | some node => cases node <;> simp [isDirectory, hn, FileNode.isDirectory]

theorem Grows.isDirectory (h : t.Grows t') (hd : t.isDirectory path) : t'.isDirectory path := by
  rcases isDirectory_iff.mp hd with hp | ⟨modified, hn⟩
  · exact isDirectory_iff.mpr (Or.inl hp)
  · obtain ⟨node, hn', hb⟩ := h.node hn
    cases hb
    exact isDirectory_iff.mpr (Or.inr ⟨_, hn'⟩)

theorem ne_of_isName (h : isName step) : step ≠ "" ∧ step ≠ "." ∧ step ≠ ".." := by
  simp only [isName, Bool.and_eq_true, decide_eq_true_eq] at h
  exact ⟨h.1.1.1.1, h.1.1.1.2, h.1.1.2⟩

/-- The way of a walk that can follow so many links. -/
inductive Leads (t : FileTree) : Nat → FilePath → List String → FilePath → Prop
  | done {links : Nat} {path : FilePath} : Leads t links path [] path
  | stay {links : Nat} {path : FilePath} {step : String} {steps : List String} {q : FilePath}
    (hd : t.isDirectory path) (hs : step = "" ∨ step = ".") (h : Leads t links path steps q) :
    Leads t links path (step :: steps) q
  | up {links : Nat} {path : FilePath} {steps : List String} {q above : FilePath}
    (hd : t.isDirectory path) (ha : t.above? path = some above) (h : Leads t links above steps q) :
    Leads t links path (".." :: steps) q
  | follow {links : Nat} {path : FilePath} {step : String} {steps : List String} {q : FilePath}
    {target : String} {start : FilePath} (hd : t.isDirectory path) (hs : isName step)
    (hl : t.nodes[path ++ [step]]? = some (.link target)) (ha : t.start? path target = some start)
    (h : Leads t links start (components target ++ steps) q) :
    Leads t (links + 1) path (step :: steps) q
  | enter {links : Nat} {path : FilePath} {step : String} {steps : List String} {q : FilePath}
    {node : FileNode} (hd : t.isDirectory path) (hs : isName step)
    (hn : t.nodes[path ++ [step]]? = some node) (hk : ∀ target, node ≠ .link target)
    (h : Leads t links (path ++ [step]) steps q) : Leads t links path (step :: steps) q

theorem leads_of_walk (h : t.walk links path steps = .node q) : t.Leads links path steps q := by
  fun_induction walk t links path steps with
  | case1 links path =>
    cases h
    exact .done
  | case2 => cases h
  | case3 links path step steps hd hs ih => exact .stay (by simpa using hd) hs (ih h)
  | case4 => cases h
  | case5 links path steps hd above ha hs ih => exact .up (by simpa using hd) ha (ih h)
  | case6 => cases h
  | case7 => cases h
  | case8 => cases h
  | case9 => cases h
  | case10 => cases h
  | case11 path step steps hd hs hu hn target hl links start ha ih =>
    exact .follow (by simpa using hd) (by simpa using hn) hl ha (ih h)
  | case12 links path step steps hd hs hu hn node hk hnode ih =>
    exact .enter (by simpa using hd) (by simpa using hn) hnode hk (ih h)

namespace Leads

/-- A walk of any number of links goes the same way as far as it gets. -/
theorem walk_eq_or (h : t.Leads links path steps q) (budget : Nat) :
    t.walk budget path steps = .node q ∨
      (budget < links ∧ t.walk budget path steps = .barred) := by
  induction h generalizing budget with
  | done => exact Or.inl (by rw [walk])
  | stay hd hs h ih => simpa [walk, hd, hs] using ih budget
  | up hd ha h ih => simpa [walk, hd, ha] using ih budget
  | follow hd hs hl ha h ih =>
    obtain ⟨h0, h1, h2⟩ := ne_of_isName hs
    cases budget with
    | zero => exact Or.inr ⟨by omega, by simp [walk, hd, hs, hl, h0, h1, h2]⟩
    | succ budget => simpa [walk, hd, hs, hl, ha, h0, h1, h2] using ih budget
  | @enter _ _ _ _ _ node hd hs hn hk h ih =>
    obtain ⟨h0, h1, h2⟩ := ne_of_isName hs
    cases node with
    | link target => exact absurd rfl (hk target)
    | file text modified => simpa [walk, hd, hs, hn, h0, h1, h2] using ih budget
    | directory modified => simpa [walk, hd, hs, hn, h0, h1, h2] using ih budget

theorem walk_eq (h : t.Leads links path steps q) : t.walk links path steps = .node q := by
  rcases h.walk_eq_or links with hw | ⟨hlt, -⟩
  · exact hw
  · exact absurd hlt (Nat.lt_irrefl links)

theorem mono (h : t.Leads links path steps q) (more : Nat) :
    t.Leads (links + more) path steps q := by
  induction h with
  | done => exact .done
  | stay hd hs h ih => exact .stay hd hs ih
  | up hd ha h ih => exact .up hd ha ih
  | @follow links _ _ _ _ _ _ hd hs hl ha h ih =>
    rw [Nat.add_right_comm]
    exact .follow hd hs hl ha ih
  | enter hd hs hn hk h ih => exact .enter hd hs hn hk ih

theorem append {links' : Nat} {steps' : List String} {q' : FilePath}
    (h : t.Leads links path steps q) (h' : t.Leads links' q steps' q') :
    t.Leads (links + links') path (steps ++ steps') q' := by
  induction h with
  | @done links _ =>
    rw [Nat.add_comm]
    exact h'.mono links
  | stay hd hs h ih => exact .stay hd hs (ih h')
  | up hd ha h ih => exact .up hd ha (ih h')
  | @follow links _ _ _ _ _ _ hd hs hl ha h ih =>
    rw [Nat.add_right_comm]
    have hrest := ih h'
    rw [List.append_assoc] at hrest
    exact .follow hd hs hl ha hrest
  | enter hd hs hn hk h ih => exact .enter hd hs hn hk (ih h')

theorem grows (hg : t.Grows t') (h : t.Leads links path steps q) : t'.Leads links path steps q := by
  induction h with
  | done => exact .done
  | stay hd hs h ih => exact .stay (hg.isDirectory hd) hs ih
  | up hd ha h ih => exact .up (hg.isDirectory hd) ((hg.above?_eq _).trans ha) ih
  | follow hd hs hl ha h ih =>
    obtain ⟨node, hn, hb⟩ := hg.node hl
    cases hb
    exact .follow (hg.isDirectory hd) hs hn ((hg.start?_eq ..).trans ha) ih
  | enter hd hs hn hk h ih =>
    obtain ⟨node, hn', hb⟩ := hg.node hn
    refine .enter (hg.isDirectory hd) hs hn' ?_ ih
    rintro target rfl
    cases hb
    exact hk target rfl

end Leads

theorem Grows.walk (hg : t.Grows t') (h : t.walk links path steps = .node q) :
    t'.walk links path steps = .node q :=
  ((leads_of_walk h).grows hg).walk_eq

/-- A node changes nothing else, but for the time at which its directory was modified. -/
theorem getElem?_put (t : FileTree) (path : FilePath) (node : FileNode) (now : Timestamp)
    (q : FilePath) : (t.put path node now).nodes[q]? =
      if path = q then some node
      else if path.dropLast = q then (t.nodes[q]?).map fun
        | .directory _ => .directory now
        | node => node
      else t.nodes[q]? := by
  unfold put
  simp only [Std.ExtTreeMap.getElem?_insert, Std.compare_eq_iff_eq]
  split
  · rfl
  split
  · rename_i modified hd
    simp only [Std.ExtTreeMap.getElem?_insert, Std.compare_eq_iff_eq]
    split
    · rename_i he
      rw [← he, hd]
      rfl
    · rfl
  · rename_i hd
    split
    · rename_i he
      rw [← he]
      cases hn : t.nodes[path.dropLast]? with
      | none => rfl
      | some node =>
        cases node with
        | directory modified => exact absurd hn (hd modified)
        | file text modified => rfl
        | link target => rfl
    · rfl

theorem grows_put (hn : t.nodes[path]? = none) (node : FileNode) (now : Timestamp) :
    t.Grows (t.put path node now) where
  isWhole := rfl
  node {q old} hq := by
    rw [getElem?_put]
    split
    · rename_i he
      rw [← he, hn] at hq
      cases hq
    split
    · rw [hq]
      cases old with
      | directory modified => exact ⟨_, rfl, .directory modified now⟩
      | file text modified => exact ⟨_, rfl, .refl _⟩
      | link target => exact ⟨_, rfl, .refl _⟩
    · exact ⟨old, hq, .refl old⟩

theorem grows_overwrite {old text : String} {before modified : Timestamp}
    (hn : t.nodes[path]? = some (.file old before)) :
    t.Grows { t with nodes := t.nodes.insert path (.file text modified) } where
  isWhole := rfl
  node {q node} hq := by
    by_cases he : path = q
    · subst he
      rw [hn, Option.some.injEq] at hq
      subst hq
      exact ⟨_, Std.ExtTreeMap.getElem?_insert_self, .file old text before modified⟩
    · exact ⟨node, by simpa [Std.ExtTreeMap.getElem?_insert, he] using hq, .refl node⟩

def Rooted (t : FileTree) : Prop :=
  ∀ (path : FilePath) (name : String) (node : FileNode), t.nodes[path ++ [name]]? = some node →
    t.isDirectory path

theorem rooted_empty : (∅ : FileTree).Rooted := by
  intro path name node h
  have hn : (∅ : FileTree).nodes[path ++ [name]]? = none := Std.ExtTreeMap.getElem?_empty
  rw [hn] at h
  cases h

theorem Rooted.put (ht : t.Rooted) (hd : t.isDirectory path) {name : String}
    (hn : t.nodes[path ++ [name]]? = none) (node : FileNode) (now : Timestamp) :
    (t.put (path ++ [name]) node now).Rooted := by
  intro q last old h
  apply (grows_put hn node now).isDirectory
  rw [getElem?_put] at h
  split at h
  · rename_i he
    obtain ⟨rfl, -⟩ := List.append_inj' he rfl
    exact hd
  split at h
  · obtain ⟨old', ho, -⟩ := Option.map_eq_some_iff.mp h
    exact ht q last old' ho
  · exact ht q last old h

def IsEmpty (t : FileTree) (path : FilePath) : Prop := ∀ name, t.nodes[path ++ [name]]? = none

/-- From an empty directory there is only the way up. -/
theorem Leads.eq_of_isEmpty (h : t.Leads links path steps q) (he : t.IsEmpty path)
    (hup : ".." ∉ steps) : q = path := by
  induction h with
  | done => rfl
  | stay hd hs h ih => exact ih he fun hmem => hup (List.mem_cons_of_mem _ hmem)
  | up hd ha h ih => exact absurd List.mem_cons_self hup
  | follow hd hs hl ha h ih =>
    rw [he] at hl
    cases hl
  | enter hd hs hn hk h ih =>
    rw [he] at hn
    cases hn

theorem isEmpty_put_directory (ht : t.Rooted) {name : String} (hn : t.nodes[path ++ [name]]? = none)
    (node : FileNode) (now : Timestamp) :
    (t.put (path ++ [name]) node now).IsEmpty (path ++ [name]) := by
  intro last
  rw [getElem?_put, if_neg (by simp), if_neg (by simp)]
  cases hl : t.nodes[path ++ [name] ++ [last]]? with
  | none => rfl
  | some old =>
    -- what is there stands in a directory, and there is none
    rcases isDirectory_iff.mp (ht _ last old hl) with h | ⟨modified, h⟩
    · simp at h
    · rw [hn] at h
      cases h

/-- What a walk finds free is a name in a directory. -/
theorem of_walk_eq_free {free : FilePath} (h : t.walk links path steps = .free free) :
    ∃ parent name, free = parent ++ [name] ∧ t.isDirectory parent ∧ isName name ∧
      t.nodes[parent ++ [name]]? = none := by
  fun_induction walk t links path steps with
  | case1 => cases h
  | case2 => cases h
  | case3 links path step steps hd hs ih => exact ih h
  | case4 => cases h
  | case5 links path steps hd above ha hs ih => exact ih h
  | case6 => cases h
  | case7 links path step steps hd hs hu hn hnode hlast =>
    cases h
    exact ⟨path, step, rfl, by simpa using hd, by simpa using hn, hnode⟩
  | case8 => cases h
  | case9 => cases h
  | case10 => cases h
  | case11 path step steps hd hs hu hn target hl links start ha ih => exact ih h
  | case12 links path step steps hd hs hu hn node hk hnode ih => exact ih h

/-- Directories are made along a way that was there, or end in a new directory. -/
theorem of_makeDirectories? {now : Timestamp} (ht : t.Rooted) (hd : t.isDirectory path)
    (hup : ".." ∉ steps) (h : makeDirectories? now t path steps = some t') :
    ∃ links q, t'.Leads links path steps q ∧ t'.isDirectory q ∧ t.Grows t' ∧
      (t' = t ∨ t'.IsEmpty q) := by
  fun_induction makeDirectories? now t path steps with
  | case1 t path =>
    cases h
    exact ⟨0, path, .done, hd, .refl _, Or.inl rfl⟩
  | case2 t path step steps m hw hm ih =>
    have hup' : ".." ∉ steps := fun hmem => hup (List.mem_cons_of_mem _ hmem)
    obtain ⟨links, q, hq, hdq, hg, hnew⟩ := ih ht hm hup' h
    have hstep := (leads_of_walk hw).grows hg
    exact ⟨_, q, hstep.append hq, hdq, hg, hnew⟩
  | case3 => cases h
  | case4 t path step steps hw ih =>
    obtain ⟨parent, name, he, hp, hs, hn⟩ := of_walk_eq_free hw
    obtain ⟨rfl, hname⟩ := List.append_inj' he rfl
    cases hname
    have hmade : (t.put (path ++ [step]) (.directory now) now).nodes[path ++ [step]]? =
        some (.directory now) := by
      rw [getElem?_put, if_pos rfl]
    have hg := grows_put hn (.directory now) now
    have hup' : ".." ∉ steps := fun hmem => hup (List.mem_cons_of_mem _ hmem)
    obtain ⟨links, q, hq, hdq, hg', hnew⟩ := ih (ht.put hp hn _ now)
      (isDirectory_iff.mpr (Or.inr ⟨now, hmade⟩)) hup' h
    have hstep : t'.Leads links path (step :: steps) q := by
      obtain ⟨node, hnode, hb⟩ := hg'.node hmade
      refine .enter ((hg.trans hg').isDirectory hp) hs hnode ?_ hq
      rintro target rfl
      cases hb
    refine ⟨links, q, hstep, hdq, hg.trans hg', Or.inr ?_⟩
    rcases hnew with rfl | hnew
    · have he := isEmpty_put_directory ht hn (.directory now) now
      rw [hq.eq_of_isEmpty he hup']
      exact he
    · exact hnew
  | case5 => cases h
  | case6 => cases h

/-- A directory that could not be reached, and can be reached once it is made, is empty. -/
theorem walk_of_makeDirectories? {now : Timestamp} {directory : FilePath} (ht : t.Rooted)
    (hup : ".." ∉ directory) (hnew : ∀ root, t.walk links [] directory ≠ .node root)
    (h : makeDirectories? now t [] directory = some t') :
    t'.walk links [] directory = .barred ∨ ∃ root, t'.walk links [] directory = .node root ∧
      t'.isDirectory root ∧ t'.IsEmpty root := by
  have hroot : t.isDirectory [] := isDirectory_iff.mpr (Or.inl rfl)
  obtain ⟨budget, q, hq, hd, -, he⟩ := of_makeDirectories? ht hroot hup h
  rcases hq.walk_eq_or links with hw | ⟨-, hw⟩
  · right
    rcases he with rfl | he
    · exact absurd hw (hnew q)
    · exact ⟨q, hw, hd, he⟩
  · exact Or.inl hw

end FileTree
end JobLaunch
