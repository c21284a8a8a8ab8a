import Std.Data.ExtTreeMap
import JobLaunch.Timestamp
import JobLaunch.Text.Blank
/-!
A directory tree with files, directories and symbolic links. Nodes are kept by their real path from
the root; `walk` follows links and tells which node a path reaches.
-/
namespace JobLaunch

/-- A real path: names from the root down. -/
abbrev FilePath := List String

inductive FileNode where
  | file (text : String) (modified : Timestamp)
  | directory (modified : Timestamp)
  | link (target : String)
deriving DecidableEq, Repr

namespace FileNode

/-- When the node was modified; links are not asked. -/
def modified? : FileNode → Option Timestamp
  | file _ modified | directory modified => some modified
  | link _ => none

def isDirectory : FileNode → Bool
  | directory _ => true
  | _ => false

end FileNode

/-- A tree below a root directory, which is always there. It is a whole file system, or a part of one
with what stands around it unknown. -/
structure FileTree where
  nodes : Std.ExtTreeMap FilePath FileNode := ∅
  isWhole : Bool := false
deriving DecidableEq

namespace FileTree

instance : EmptyCollection FileTree := ⟨{}⟩

instance : Inhabited FileTree := ⟨∅⟩

def nameLimit : Nat := 255

def isName (name : String) : Bool :=
  name ≠ "" && name ≠ "." && name ≠ ".." && name.utf8ByteSize ≤ nameLimit &&
    name.toList.all fun c => c ≠ '/' && c ≠ '\x00'

def linkLimit : Nat := 40

/-- Where a walk ends: at a node, before a node that could be created, at nothing, or it goes where
it cannot or leaves the tree. -/
inductive Reached where
  | node (path : FilePath)
  | free (path : FilePath)
  | absent
  | barred
deriving DecidableEq, Repr

def components (path : String) : List String := (Text.splitOn '/' path.toList).map String.ofList

def isDirectory (t : FileTree) (path : FilePath) : Bool :=
  path.isEmpty || (t.nodes[path]?).any FileNode.isDirectory

/-- The directory above another; the root of a file system is above itself. -/
def above? (t : FileTree) (path : FilePath) : Option FilePath :=
  if path.isEmpty && !t.isWhole then none else some path.dropLast

/-- Where the target of a link in a directory starts: there, or at the root of the file system. -/
def start? (t : FileTree) (path : FilePath) (target : String) : Option FilePath :=
  if target.startsWith "/" then if t.isWhole then some [] else none else some path

def walk (t : FileTree) (links : Nat) (path : FilePath) : List String → Reached
  | [] => .node path
  | step :: steps =>
    if !t.isDirectory path then .barred
    else if step = "" ∨ step = "." then walk t links path steps
    else if step = ".." then
      match t.above? path with
      | none => .barred
      | some above => walk t links above steps
    else if !isName step then .barred
    else match t.nodes[path ++ [step]]? with
      | none => if steps.isEmpty then .free (path ++ [step]) else .absent
      | some (.link target) =>
        match links with
        | 0 => .barred
        | links + 1 =>
          match t.start? path target with
          | none => .barred
          | some start => walk t links start (components target ++ steps)
      | some _ => walk t links (path ++ [step]) steps
termination_by steps => (links, steps.length)

def reach (t : FileTree) (path : String) : Reached := t.walk linkLimit [] (components path)

/-- The tree with a node, whose directory is thereby modified. -/
def put (t : FileTree) (path : FilePath) (node : FileNode) (now : Timestamp) : FileTree :=
  let nodes := match t.nodes[path.dropLast]? with
    | some (.directory _) => t.nodes.insert path.dropLast (.directory now)
    | _ => t.nodes
  { t with nodes := nodes.insert path node }

def write? (t : FileTree) (place : Reached) (text : String) (modified now : Timestamp) :
    Option FileTree :=
  match place with
  | .free path => some (t.put path (.file text modified) now)
  | .node path =>
    match t.nodes[path]? with
    | some (.file ..) => some { t with nodes := t.nodes.insert path (.file text modified) }
    | _ => none
  | _ => none

/-- Makes directories down from a node, unless something else stands in the place of one. -/
def makeDirectories? (now : Timestamp) (t : FileTree) (path : FilePath) :
    List String → Option FileTree
  | [] => some t
  | step :: steps =>
    match t.walk linkLimit path [step] with
    | .node path => if t.isDirectory path then makeDirectories? now t path steps else none
    | .free free =>
      if free = path ++ [step] then
        makeDirectories? now (t.put free (.directory now) now) free steps
      else none
    | _ => none

/-- The tree with a directory, and the directories above it. Here and below, a change that cannot be
made leaves the tree as it is. -/
def makeDirectory (t : FileTree) (name : String) (now : Timestamp) : FileTree :=
  (makeDirectories? now t [] (components name)).getD t

def makeParents (t : FileTree) (name : String) (now : Timestamp) : FileTree :=
  (makeDirectories? now t [] (components name).dropLast).getD t

def writeFile (t : FileTree) (name text : String) (modified now : Timestamp) : FileTree :=
  let t := t.makeParents name now
  (t.write? (t.reach name) text modified now).getD t

/-- The place of a name, whose last part is not followed. -/
def place? (t : FileTree) (name : String) : Option FilePath :=
  match t.walk linkLimit [] (components name).dropLast, (components name).getLast? with
  | .node path, some last =>
    if t.isDirectory path && isName last then some (path ++ [last]) else none
  | _, _ => none

def makeLink (t : FileTree) (target name : String) (now : Timestamp) : FileTree :=
  let t := t.makeParents name now
  match t.place? name with
  | some path =>
    if target = "" ∨ path ∈ t.nodes then t else t.put path (.link target) now
  | none => t

/-- The tree without a file or a link; directories stay. -/
def remove (t : FileTree) (name : String) (now : Timestamp) : FileTree :=
  match t.place? name with
  | none => t
  | some path =>
    match t.nodes[path]? with
    | none | some (.directory _) => t
    | some _ =>
      match t.nodes[path.dropLast]? with
      | some (.directory _) =>
        { t with nodes := (t.nodes.erase path).insert path.dropLast (.directory now) }
      | _ => { t with nodes := t.nodes.erase path }

def toList (t : FileTree) : List (String × FileNode) :=
  t.nodes.toList.map fun (entry : FilePath × FileNode) => ("/".intercalate entry.1, entry.2)

end FileTree
end JobLaunch
