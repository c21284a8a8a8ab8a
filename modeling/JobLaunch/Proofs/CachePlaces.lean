import JobLaunch.Proofs.JoinedTexts
import JobLaunch.Proofs.TreeChanges
import JobLaunch.Proofs.UntouchedCaches
/-!
The places of hosts' files in a fact cache: which names and links stay in its directory, and what is
found there before and after files are written.
-/
namespace JobLaunch

/-- A name with a file has one part, with slashes and dots after it. -/
theorem of_cacheName?_eq_some {host name : String} (h : cacheName? host = some name) :
    name ∉ ["", ".", ".."] ∧ ∃ rest, FileTree.components host = name :: rest ∧
      ∀ part ∈ rest, part = "" ∨ part = "." := by
  unfold cacheName? at h
  split at h
  · cases h
  rename_i first rest hsteps
  split at h
  · cases h
  rename_i hplain
  cases h
  rw [not_or] at hplain
  refine ⟨hplain.1, rest, hsteps, fun part hpart => ?_⟩
  have hdot := List.any_eq_false.mp (Bool.eq_false_iff.mpr hplain.2) part hpart
  simpa [or_iff_not_imp_left] using hdot

namespace FileTree
variable {t : FileTree} {directory : FilePath} {host : String}

/-- Whether a path lies in a directory, when links to the directory are followed. -/
def Holds (t : FileTree) (directory path : FilePath) : Prop :=
  ∃ root, t.walk linkLimit [] directory = .node root ∧ root <+: path

/-- Whether what stands under a name in a directory leads out of it, or nowhere. A link to a place
in the directory that is free does neither. -/
def leadsOut (t : FileTree) (root : FilePath) (name : String) : Bool :=
  match t.walk linkLimit root [name] with
  | .node path | .free path => !root.isPrefixOf path
  | _ => true

/-- Whether a host is not to have a file in a directory: its name is not the name of a file, or what
stands there leads elsewhere. -/
def strays (t : FileTree) (directory : FilePath) (host : String) : Bool :=
  match cacheName? host, t.walk linkLimit [] directory with
  | none, _ => true
  | some name, .node root => (t.nodes[root ++ [name]]?).isSome && t.leadsOut root name
  | some _, _ => false

def parts (path : String) : List String :=
  (components path).filter fun part => part ≠ "" && part ≠ "."

/-- A host with a file name strays by what stands in the place of its file. -/
theorem of_strays {name : String} (hs : t.strays directory host)
    (hname : cacheName? host = some name) :
    ∃ root, t.walk linkLimit [] directory = .node root ∧
      (t.nodes[root ++ [name]]?).isSome ∧ t.leadsOut root name := by
  rw [strays, hname] at hs
  cases hw : t.walk linkLimit [] directory with
  | node root =>
    rw [hw] at hs
    exact ⟨root, rfl, by simpa using hs⟩
  | free path =>
    rw [hw] at hs
    cases hs
  | absent =>
    rw [hw] at hs
    cases hs
  | barred =>
    rw [hw] at hs
    cases hs

end FileTree

namespace CacheEntry
variable {t t' : FileTree} {directory : FilePath} {host : String}

/-- What can be found in the place of a host's file: what is looked into lies in the directory. -/
inductive Found (t : FileTree) (directory : FilePath) (host : String) : CacheEntry → Prop
  | refused : Found t directory host .refused
  | unusable : Found t directory host .unusable
  | unmade {name : String} (hname : cacheName? host = some name)
    (hsmall : (name.contains '\x00' || pathLimit ≤ name.utf8ByteSize) = false)
    (hw : t.walk FileTree.linkLimit [] directory = .absent ∨
      ∃ free, t.walk FileTree.linkLimit [] directory = .free free) :
    Found t directory host (.vacant none)
  | vacant {name : String} {root : FilePath} (hname : cacheFile? host = some name)
    (hw : t.walk FileTree.linkLimit [] directory = .node root) (hd : t.isDirectory root)
    (hn : t.nodes[root ++ [name]]? = none) :
    Found t directory host (.vacant (some (root ++ [name])))
  | occupied {name : String} {root path : FilePath} (hname : cacheFile? host = some name)
    (hw : t.walk FileTree.linkLimit [] directory = .node root) (hd : t.isDirectory root)
    (hp : t.walk FileTree.linkLimit root [name] = .node path) (hr : root <+: path) :
    Found t directory host (.occupied path)

theorem found_find (t : FileTree) (directory : FilePath) (host : String) :
    Found t directory host (find t directory host) := by
  unfold find
  split
  · exact .refused
  rename_i name hname
  split
  · exact .unusable
  rename_i hsmall
  split
  · rename_i hw
    exact .unmade hname (Bool.eq_false_iff.mpr hsmall) (Or.inr ⟨_, hw⟩)
  · rename_i hw
    exact .unmade hname (Bool.eq_false_iff.mpr hsmall) (Or.inl hw)
  · exact .unusable
  rename_i root hw
  split
  · exact .unusable
  rename_i husable
  simp only [Bool.or_eq_true, Bool.not_eq_true', not_or, Bool.not_eq_false] at husable
  have hfile : cacheFile? host = some name := Option.filter_eq_some_iff.mpr ⟨hname, husable.2⟩
  split
  · rename_i hn
    exact .vacant hfile hw husable.1 hn
  split
  · rename_i path hp
    split
    · rename_i hr
      exact .occupied hfile hw husable.1 hp (List.isPrefixOf_iff_prefix.mp hr)
    · exact .refused
  · exact .refused

theorem cacheName?_of_cacheFile? {name : String} (h : cacheFile? host = some name) :
    cacheName? host = some name :=
  (Option.filter_eq_some_iff.mp h).1

/-- What stands in the place of a host's file is found when it lies in the directory. -/
theorem find_of_walk {root path : FilePath} {name : String}
    (hw : t.walk FileTree.linkLimit [] directory = .node root) (hd : t.isDirectory root)
    (hname : cacheFile? host = some name) (hp : t.walk FileTree.linkLimit root [name] = .node path)
    (hr : root <+: path) : find t directory host = .occupied path := by
  have hplain := (of_cacheName?_eq_some (cacheName?_of_cacheFile? hname)).1
  obtain ⟨node, hn⟩ := Option.isSome_iff_exists.mp
    ((FileTree.leads_of_walk hp).isSome_of_name hplain)
  rw [find_of_file hw hd hname, hn, hp]
  exact if_pos (List.isPrefixOf_iff_prefix.mpr hr)

/-- A write changes one file, in the directory. -/
theorem of_write? {text : String} {now : Timestamp}
    (h : (find t directory host).write? t text now = some t') :
    ∃ root path, t.walk FileTree.linkLimit [] directory = .node root ∧
      FileTree.FilledBelow root t t' ∧ t'.nodes[path]? = some (.file text now) ∧
      (∀ q, path ≠ q → t.KeepsAt t' q) ∧
      (find t directory host = .vacant (some path) ∨ find t directory host = .occupied path) := by
  have hfound := found_find t directory host
  generalize find t directory host = place at h hfound
  cases hfound with
  | refused => cases h
  | unusable => cases h
  | unmade hname hsmall hw => cases h
  | vacant hname hw hd hn =>
    cases h
    refine ⟨_, _, hw, FileTree.filledBelow_put (List.prefix_append _ _) hn text now now, ?_, ?_,
      Or.inl rfl⟩
    · rw [FileTree.getElem?_put, if_pos rfl]
    · intro q hne
      exact FileTree.keepsAt_put hne _ now
  | occupied hname hw hd hp hr =>
    simp only [write?, FileTree.write?] at h
    split at h
    · rename_i old before hfile
      cases h
      refine ⟨_, _, hw, FileTree.filledBelow_overwrite hr hfile, ?_, ?_, Or.inr rfl⟩
      · exact Std.ExtTreeMap.getElem?_insert_self
      · intro q hne
        left
        rw [Std.ExtTreeMap.getElem?_insert, if_neg (by simpa using hne)]
    · cases h

/-- A host that strays has no place that is looked into, also after files were written in the
directory. -/
theorem isClosed_find_of_strays (hs : t.strays directory host)
    (hf : ∀ root, t.walk FileTree.linkLimit [] directory = .node root →
      FileTree.FilledBelow root t t') : (find t' directory host).IsClosed := by
  have hfound := found_find t' directory host
  generalize find t' directory host = place at hfound
  cases hfound with
  | refused => exact .refused
  | unusable => exact .unusable
  | unmade hname hsmall hw =>
    obtain ⟨root, hroot, -, -⟩ := FileTree.of_strays hs hname
    have hroot' := (hf root hroot).grows.walk hroot
    simp [hroot'] at hw
  | vacant hname hw hd hn =>
    obtain ⟨root, hroot, hsome, -⟩ := FileTree.of_strays hs (cacheName?_of_cacheFile? hname)
    have hgrows := (hf root hroot).grows
    obtain ⟨node, hnode⟩ := Option.isSome_iff_exists.mp hsome
    obtain ⟨node', hnode', -⟩ := hgrows.node hnode
    rw [hgrows.walk hroot] at hw
    cases hw
    rw [hn] at hnode'
    cases hnode'
  | occupied hname hw hd hp hr =>
    obtain ⟨root, hroot, -, hout⟩ := FileTree.of_strays hs (cacheName?_of_cacheFile? hname)
    have hfill := hf root hroot
    rw [hfill.grows.walk hroot] at hw
    cases hw
    have hin := List.isPrefixOf_iff_prefix.mpr hr
    rcases hfill.walk_or (FileTree.leads_of_walk hp) with he | he
    · simp [FileTree.leadsOut, he, hin] at hout
    · simp [FileTree.leadsOut, he, hin] at hout

end CacheEntry

end JobLaunch
