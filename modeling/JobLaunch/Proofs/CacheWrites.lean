import JobLaunch.Proofs.CachePlaces
/-!
What the start of a fact cache writes. Outside of its directory it makes directories only. In it every
host that is not stale gets its file, unless something else stands there, and the last host to have a
file has its facts there.
-/
namespace JobLaunch.CacheStart
variable {clock : Nat → Timestamp} {directory : FilePath} {cutoff : Option Timestamp}
  {t t' made : FileTree} {hosts : List Host}

/-- Whether a tree is one that a start can have come to, from the one where the directory was made. -/
def Reaches (directory : FilePath) (made t : FileTree) : Prop :=
  t = made ∨ ∃ root, made.walk FileTree.linkLimit [] directory = .node root ∧
    FileTree.FilledBelow root made t

theorem Reaches.filledBelow (h : Reaches directory made t) {root : FilePath}
    (hw : made.walk FileTree.linkLimit [] directory = .node root) :
    FileTree.FilledBelow root made t := by
  rcases h with rfl | ⟨root', hw', hf⟩
  · exact .refl root t
  · rw [hw] at hw'
    cases hw'
    exact hf

theorem Reaches.step (h : Reaches directory made t) (start : CacheStart) (host : Host) :
    Reaches directory made (step directory cutoff clock (t, start) host).1 := by
  unfold CacheStart.step
  split
  · exact h
  simp only []
  split
  · rename_i t' hwrite
    obtain ⟨root, path, hw, hf, -⟩ := CacheEntry.of_write? hwrite
    right
    rcases h with rfl | ⟨root', hw', hf'⟩
    · exact ⟨root, hw, hf⟩
    · rw [hf'.grows.walk hw'] at hw
      cases hw
      exact ⟨root, hw', hf'.trans hf⟩
  · exact h

theorem Reaches.foldl (h : Reaches directory made t) (start : CacheStart) (hosts : List Host) :
    Reaches directory made (hosts.foldl (CacheStart.step directory cutoff clock) (t, start)).1 := by
  induction hosts generalizing t start with
  | nil => exact h
  | cons host hosts ih => exact ih (h.step start host) _

/-- Hosts that stray are passed over, whatever is written before. -/
theorem foldl_filter (hmade : FileTree.makeDirectories? (clock 0) t [] directory = some made)
    (h : Reaches directory made t') (start : CacheStart) (hosts : List Host) :
    hosts.foldl (step directory cutoff clock) (t', start) =
      (hosts.filter fun h => !t.strays directory h.name).foldl (step directory cutoff clock)
        (t', start) := by
  induction hosts generalizing t' start with
  | nil => rfl
  | cons host hosts ih =>
    have hnext : Reaches directory made (step directory cutoff clock (t', start) host).1 :=
      h.step start host
    have hrest := ih hnext (step directory cutoff clock (t', start) host).2
    by_cases hs : t.strays directory host.name
    · have hf (root : FilePath) (hw : t.walk FileTree.linkLimit [] directory = .node root) :
          FileTree.FilledBelow root t t' := by
        -- the directory was there, so it was not made
        obtain rfl := FileTree.eq_of_makeDirectories? (FileTree.leads_of_walk hw) hmade
        exact h.filledBelow hw
      have hclosed := CacheEntry.isClosed_find_of_strays hs hf
      rw [step_of_isClosed hclosed] at hrest
      rw [List.filter_cons_of_neg (by simpa using hs), List.foldl_cons, step_of_isClosed hclosed]
      exact hrest
    · rw [List.filter_cons_of_pos (by simpa using hs), List.foldl_cons, List.foldl_cons]
      exact hrest

def HasFile (cutoff : Option Timestamp) (root : FilePath) (t : FileTree) (path : FilePath)
    (h : Host) : Prop :=
  ¬h.isStale cutoff ∧
    ∃ name, cacheFile? h.name = some name ∧ t.walk FileTree.linkLimit root [name] = .node path

/-- Whether a file holds what a start has written there: the facts of the last host that has it. -/
def HoldsFacts (clock : Nat → Timestamp) (cutoff : Option Timestamp) (root : FilePath)
    (hosts : List Host) (t : FileTree) (start : CacheStart) (path : FilePath) : Prop :=
  ∃ before h after, hosts = before ++ h :: after ∧ HasFile cutoff root t path h ∧
    (∀ other ∈ after, ¬HasFile cutoff root t path other) ∧
    ∃ i < start.written, t.nodes[path]? = some (.file h.facts.toJson.compact (clock i))

/-- Whether every host that is not stale has something in its place in a directory, and facts are
written there if it is a file of the directory. -/
def Served (clock : Nat → Timestamp) (cutoff : Option Timestamp) (root : FilePath)
    (hosts : List Host) (t : FileTree) (start : CacheStart) : Prop :=
  ∀ h ∈ hosts, ¬h.isStale cutoff → ∀ name, cacheFile? h.name = some name →
    t.nodes[root ++ [name]]? ≠ none ∧
      ∀ path text modified, t.walk FileTree.linkLimit root [name] = .node path → root <+: path →
        t.nodes[path]? = some (.file text modified) →
          HoldsFacts clock cutoff root hosts t start path

variable {root : FilePath}

theorem HoldsFacts.concat {start : CacheStart} {path : FilePath}
    (h : HoldsFacts clock cutoff root hosts t start path) {host : Host}
    (hnot : ¬HasFile cutoff root t path host) :
    HoldsFacts clock cutoff root (hosts ++ [host]) t start path := by
  obtain ⟨before, writer, after, rfl, hwriter, hlast, hi⟩ := h
  refine ⟨before, writer, after ++ [host], by simp, hwriter, fun other hmem => ?_, hi⟩
  rcases List.mem_append.mp hmem with hmem | hmem
  · exact hlast other hmem
  · rw [List.mem_singleton.mp hmem]
    exact hnot

/-- The facts stay, and whose they are, when files are written elsewhere. -/
theorem HoldsFacts.of_filledBelow {start start' : CacheStart} {path : FilePath}
    (h : HoldsFacts clock cutoff root hosts t start path) (hf : FileTree.FilledBelow root t t')
    (hsame : t'.nodes[path]? = t.nodes[path]?) (hle : start.written ≤ start'.written) :
    HoldsFacts clock cutoff root hosts t' start' path := by
  obtain ⟨before, writer, after, rfl, ⟨hfresh, name, hname, hp⟩, hlast, i, hi, hn⟩ := h
  refine ⟨before, writer, after, rfl, ⟨hfresh, name, hname, hf.grows.walk hp⟩, ?_, i,
    Nat.lt_of_lt_of_le hi hle, hsame.trans hn⟩
  rintro other hmem ⟨hfresh', name', hname', hp'⟩
  exact hlast other hmem ⟨hfresh', name', hname', hf.walk_of_some hp' hn⟩

/-- Where nothing can be written, something stands that is no file of the directory. -/
theorem place_of_unwritten {host name text : String} {now : Timestamp}
    (hw : t.walk FileTree.linkLimit [] directory = .node root) (hd : t.isDirectory root)
    (hname : cacheFile? host = some name)
    (h : (CacheEntry.find t directory host).write? t text now = none) :
    t.nodes[root ++ [name]]? ≠ none ∧
      ∀ path old modified, t.walk FileTree.linkLimit root [name] = .node path → root <+: path →
        t.nodes[path]? ≠ some (.file old modified) := by
  constructor
  · intro hn
    rw [CacheEntry.find_vacant hw hd hname hn] at h
    cases h
  · intro path old modified hp hr hfile
    rw [CacheEntry.find_of_walk hw hd hname hp hr] at h
    simp [CacheEntry.write?, FileTree.write?, hfile] at h

/-- What is written for a host is where the place of its file leads. -/
theorem place_of_written {host text : String} {path : FilePath} {now : Timestamp}
    (hw : t.walk FileTree.linkLimit [] directory = .node root) (hg : t.Grows t')
    (hfile : t'.nodes[path]? = some (.file text now))
    (h : CacheEntry.find t directory host = .vacant (some path) ∨
      CacheEntry.find t directory host = .occupied path) :
    ∃ name, cacheFile? host = some name ∧ t'.nodes[root ++ [name]]? ≠ none ∧
      t'.walk FileTree.linkLimit root [name] = .node path := by
  have hfound := CacheEntry.found_find t directory host
  rcases h with h | h
  · rw [h] at hfound
    cases hfound with
    | vacant hname hw' hd hn =>
      rw [hw] at hw'
      cases hw'
      have hs := (Option.filter_eq_some_iff.mp hname).2
      refine ⟨_, hname, by simp [hfile], ?_⟩
      apply FileTree.Leads.walk_eq
      exact .enter (hg.isDirectory hd) hs hfile (by intro target he; cases he) .done
  · rw [h] at hfound
    cases hfound with
    | occupied hname hw' hd hp hr =>
      rw [hw] at hw'
      cases hw'
      have hplain := (of_cacheName?_eq_some (CacheEntry.cacheName?_of_cacheFile? hname)).1
      have hleads := (FileTree.leads_of_walk hp).grows hg
      exact ⟨_, hname, Option.isSome_iff_ne_none.mp (hleads.isSome_of_name hplain), hleads.walk_eq⟩

/-- A host that is not written has no file. -/
theorem Served.pass {start : CacheStart} (h : Served clock cutoff root hosts t start) {host : Host}
    (hplace : ¬host.isStale cutoff → ∀ name, cacheFile? host.name = some name →
      t.nodes[root ++ [name]]? ≠ none ∧
        ∀ path old modified, t.walk FileTree.linkLimit root [name] = .node path → root <+: path →
          t.nodes[path]? ≠ some (.file old modified)) :
    Served clock cutoff root (hosts ++ [host]) t start := by
  intro other hmem hfresh name hname
  rcases List.mem_append.mp hmem with hmem | hmem
  · obtain ⟨hsome, hfiles⟩ := h other hmem hfresh name hname
    refine ⟨hsome, fun path text modified hp hr hn => (hfiles path text modified hp hr hn).concat ?_⟩
    rintro ⟨hfresh', name', hname', hp'⟩
    exact (hplace hfresh' name' hname').2 path text modified hp' hr hn
  · obtain rfl := List.mem_singleton.mp hmem
    obtain ⟨hsome, hnot⟩ := hplace hfresh name hname
    exact ⟨hsome, fun path text modified hp hr hn => absurd hn (hnot path text modified hp hr)⟩

/-- A host that is written has its file, and the others have theirs. -/
theorem Served.write {start : CacheStart} (h : Served clock cutoff root hosts t start) {host : Host}
    {path : FilePath} {name : String} (hfresh : ¬host.isStale cutoff)
    (hf : FileTree.FilledBelow root t t') (hname : cacheFile? host.name = some name)
    (hsome : t'.nodes[root ++ [name]]? ≠ none)
    (hleads : t'.walk FileTree.linkLimit root [name] = .node path)
    (hfile : t'.nodes[path]? = some (.file host.facts.toJson.compact (clock start.written)))
    (hkeeps : ∀ q, path ≠ q → t.KeepsAt t' q) :
    Served clock cutoff root (hosts ++ [host]) t'
      ⟨start.written + 1, some (clock start.written)⟩ := by
  have hself : HoldsFacts clock cutoff root (hosts ++ [host]) t'
      ⟨start.written + 1, some (clock start.written)⟩ path :=
    ⟨hosts, host, [], rfl, ⟨hfresh, name, hname, hleads⟩, by simp, start.written,
      Nat.lt_succ_self _, hfile⟩
  intro other hmem hfresh' name' hname'
  rcases List.mem_append.mp hmem with hmem | hmem
  · obtain ⟨hsome', hfiles⟩ := h other hmem hfresh' name' hname'
    constructor
    · obtain ⟨node, hnode⟩ := Option.ne_none_iff_exists'.mp hsome'
      obtain ⟨node', hnode', -⟩ := hf.grows.node hnode
      simp [hnode']
    intro q text modified hp hr hn
    by_cases he : path = q
    · exact he ▸ hself
    -- a file elsewhere was there before, and the same hosts had it
    have hbefore : t'.nodes[q]? = t.nodes[q]? := by
      rcases hkeeps q he with heq | ⟨⟨m, hm⟩, -⟩
      · exact heq
      · rw [hn] at hm
        cases hm
    have hn' := hbefore ▸ hn
    have hheld := hfiles q text modified (hf.walk_of_some hp hn') hr hn'
    apply (hheld.of_filledBelow hf hbefore (Nat.le_succ _)).concat
    rintro ⟨-, other', hother, hq⟩
    rw [hname] at hother
    cases hother
    rw [hleads] at hq
    cases hq
    exact he rfl
  · obtain rfl := List.mem_singleton.mp hmem
    rw [hname] at hname'
    cases hname'
    refine ⟨hsome, fun q text modified hp hr hn => ?_⟩
    rw [hleads] at hp
    cases hp
    exact hself

theorem Served.step {start : CacheStart} (h : Served clock cutoff root hosts t start)
    (hw : t.walk FileTree.linkLimit [] directory = .node root) (hd : t.isDirectory root)
    (host : Host) :
    Served clock cutoff root (hosts ++ [host]) (step directory cutoff clock (t, start) host).1
      (step directory cutoff clock (t, start) host).2 := by
  unfold CacheStart.step
  by_cases hstale : host.isStale cutoff
  · rw [if_pos hstale]
    exact h.pass fun hfresh => absurd hstale hfresh
  rw [if_neg hstale]
  simp only []
  cases hwrite : (CacheEntry.find t directory host.name).write? t host.facts.toJson.compact
      (clock start.written) with
  | none => exact h.pass fun _ name hname => place_of_unwritten hw hd hname hwrite
  | some t' =>
    obtain ⟨root', path, hw', hf, hfile, hkeeps, hplace⟩ := CacheEntry.of_write? hwrite
    rw [hw] at hw'
    cases hw'
    obtain ⟨name, hname, hsome, hleads⟩ := place_of_written hw hf.grows hfile hplace
    exact h.write hstale hf hname hsome hleads hfile hkeeps

theorem Served.foldl {start : CacheStart} (h : Served clock cutoff root hosts t start)
    (hw : t.walk FileTree.linkLimit [] directory = .node root) (hd : t.isDirectory root)
    (more : List Host) :
    Served clock cutoff root (hosts ++ more)
      (more.foldl (CacheStart.step directory cutoff clock) (t, start)).1
      (more.foldl (CacheStart.step directory cutoff clock) (t, start)).2 := by
  induction more generalizing hosts t start with
  | nil =>
    rw [List.append_nil]
    exact h
  | cons host more ih =>
    have hnext : Reaches directory t (CacheStart.step directory cutoff clock (t, start) host).1 :=
      .step (Or.inl rfl) start host
    have hg := (hnext.filledBelow hw).grows
    have hrest := ih (h.step hw hd host) (hg.walk hw) (hg.isDirectory hd)
    rw [List.append_assoc] at hrest
    exact hrest

end JobLaunch.CacheStart
