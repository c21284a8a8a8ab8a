import JobLaunch.Config
import JobLaunch.Error
import JobLaunch.Files
import JobLaunch.Json.Read
import JobLaunch.Json.Write
import JobLaunch.Store
/-!
The fact cache. Before a job runs, the facts of its hosts are written to a directory, one file for a
host; afterwards changed files update the facts and missing files clear them.
-/
namespace JobLaunch

/-- The name of a host's file: a host name that is a path has none, and dots and slashes after a
name do not count. -/
def cacheName? (host : String) : Option String :=
  match FileTree.components host with
  | [] => none
  | name :: rest =>
    if name ∈ ["", ".", ".."] ∨ rest.any (fun part => part ≠ "" && part ≠ ".") then none
    else some name

/-- What stands in the place of a host's file. A place is refused when the name or a link would lead
out of the directory, and unusable when the system cannot look there. -/
inductive CacheEntry where
  | refused
  | unusable
  | vacant (path : Option FilePath)
  | occupied (path : FilePath)
deriving DecidableEq, Repr

namespace CacheEntry

def pathLimit : Nat := 4096

def find (t : FileTree) (directory : FilePath) (host : String) : CacheEntry :=
  match cacheName? host with
  | none => refused
  | some name =>
    if name.contains '\x00' || pathLimit ≤ name.utf8ByteSize then unusable
    else match t.walk FileTree.linkLimit [] directory with
      | .free _ | .absent => vacant none
      | .barred => unusable
      | .node root =>
        if !t.isDirectory root || !FileTree.isName name then unusable
        else match t.nodes[root ++ [name]]? with
          | none => vacant (some (root ++ [name]))
          | some _ =>
            match t.walk FileTree.linkLimit root [name] with
            | .node path => if root.isPrefixOf path then occupied path else refused
            | _ => refused

def write? (t : FileTree) (text : String) (now : Timestamp) : CacheEntry → Option FileTree
  | vacant (some path) => t.write? (.free path) text now now
  | occupied path => t.write? (.node path) text now now
  | _ => none

end CacheEntry

/-- How many files were written, and when the last one was. -/
structure CacheStart where
  written : Nat := 0
  lastWrite : Option Timestamp := none
deriving DecidableEq, Repr

/-- Whether a host's facts are older than a cutoff, or of unknown age. -/
def Host.isStale (h : Host) (cutoff : Option Timestamp) : Bool :=
  cutoff.any fun cutoff => h.factsModified.all fun modified => modified.before cutoff

/-- Writes the facts of one host; one that is stale or cannot be written is passed over. A clock
tells when which file is written. -/
def CacheStart.step (directory : FilePath) (cutoff : Option Timestamp) (clock : Nat → Timestamp)
    (state : FileTree × CacheStart) (h : Host) : FileTree × CacheStart :=
  if h.isStale cutoff then state
  else
    let (t, start) := state
    let now := clock start.written
    match (CacheEntry.find t directory h.name).write? t h.facts.toJson.compact now with
    | some t => (t, ⟨start.written + 1, some now⟩)
    | none => state

/-- Writes the facts of hosts to a directory, which is made when it is not there. -/
def CacheStart.runBy (clock : Nat → Timestamp) (directory : FilePath) (hosts : List Host)
    (cutoff : Option Timestamp) (t : FileTree) : Except LaunchError (FileTree × CacheStart) :=
  match FileTree.makeDirectories? (clock 0) t [] directory with
  | none => .error .storage
  | some t => .ok (hosts.foldl (step directory cutoff clock) (t, {}))

def CacheStart.run (directory : FilePath) (hosts : List Host) (cutoff : Option Timestamp)
    (now : Timestamp) (t : FileTree) : Except LaunchError (FileTree × CacheStart) :=
  runBy (fun _ => now) directory hosts cutoff t

inductive HostFacts where
  | updated (facts : Vars)
  | cleared
  | unmodified
  | skipped
deriving DecidableEq, Repr

namespace HostFacts

/-- The facts in a file: one object of JSON. -/
def ofText? (text : String) : Option Vars :=
  match Json.parse? text with
  | some (.object fields) => some (Vars.ofFields fields)
  | _ => none

/-- Reads the file of a host. One that is not newer than the last write has not been modified. -/
def read (t : FileTree) (directory : FilePath) (since : Option Timestamp) (host : String) :
    HostFacts :=
  match CacheEntry.find t directory host with
  | .refused | .unusable => skipped
  | .vacant _ => cleared
  | .occupied path =>
    let node := t.nodes[path]?
    let changed := match since, node.bind FileNode.modified? with
      | some since, some modified => since.before modified
      | _, _ => true
    if !changed then unmodified
    else match node with
      | some (.file text _) =>
        match ofText? text with
        | some facts => updated facts
        | none => skipped
      | _ => skipped

def update? : HostFacts → Option Vars
  | updated facts => some facts
  | cleared => some ∅
  | unmodified | skipped => none

end HostFacts

/-- How many hosts have new facts, none any more, or the same; and the updates, in batches. -/
structure CacheFinish where
  updated : Nat := 0
  cleared : Nat := 0
  unmodified : Nat := 0
  batches : List (List FactUpdate) := []
deriving DecidableEq, Repr

/-- A list cut into pieces of a size, of which only the last may be smaller; a size of zero counts
as one. -/
def batches {α : Type} (size : Nat) : List α → List (List α)
  | [] => []
  | x :: xs => (x :: xs.take (size - 1)) :: batches size (xs.drop (size - 1))
termination_by xs => xs.length
decreasing_by simp only [List.length_drop, List.length_cons]; omega

def CacheFinish.run (directory : FilePath) (batchSize : Nat) (hosts : List Host)
    (since : Option Timestamp) (now : Timestamp) (t : FileTree) : CacheFinish :=
  let read := hosts.map fun h => (h.name, HostFacts.read t directory since h.name)
  let count (p : HostFacts → Bool) : Nat := read.countP fun (_, facts) => p facts
  { updated := count fun | .updated _ => true | _ => false
    cleared := count fun | .cleared => true | _ => false
    unmodified := count fun | .unmodified => true | _ => false
    batches := JobLaunch.batches batchSize <| read.filterMap fun (name, facts) =>
      facts.update?.map fun facts => ⟨name, facts, now⟩ }

def Store.hostsFor (s : Store) (spec : JobSpec) : List Host :=
  match spec.inventory with
  | some i => spec.slice.select (s.hostsOf i.id)
  | none => []

/-- The greatest timeout that a duration in milliseconds holds, in seconds. -/
def longestTimeout : Nat := 0x7FFFFFFFFFFFFFFF / 1000

/-- The time before which facts are stale. A timeout of zero or beyond every duration sets none; a
long one may reach back to before the calendar. -/
def Config.staleBefore (c : Config) (now : Timestamp) : Except LaunchError (Option Timestamp) :=
  let timeout := c.factCacheTimeout.toNat
  if timeout = 0 ∨ longestTimeout < timeout then .ok none
  else match now.minusSeconds? timeout with
    | some cutoff => .ok (some cutoff)
    | none => .error .calendarExceeded

/-- Writes the fact cache of a job that is about to run. The files are written after `now`, as a
clock tells. -/
def prepareFactsBy (clock : Nat → Timestamp) (config : Config) (now : Timestamp) (s : Store)
    (spec : JobSpec) (directory : FilePath) (t : FileTree) :
    Except LaunchError (FileTree × CacheStart) := do
  let cutoff ← config.staleBefore now
  CacheStart.runBy clock directory (s.hostsFor spec) cutoff t

def prepareFacts (config : Config) (now : Timestamp) (s : Store) (spec : JobSpec)
    (directory : FilePath) (t : FileTree) : Except LaunchError (FileTree × CacheStart) :=
  prepareFactsBy (fun _ => now) config now s spec directory t

/-- Reads the fact cache of a job that has run, and stores the changes batch by batch. -/
def collectFacts (config : Config) (now : Timestamp) (s : Store) (spec : JobSpec)
    (directory : FilePath) (since : Option Timestamp) (t : FileTree) : Store × CacheFinish :=
  match spec.inventory with
  | none => (s, {})
  | some i =>
    let finish := CacheFinish.run directory config.factBatchSize.toNat (s.hostsFor spec) since now t
    (finish.batches.foldl (fun s batch => (s.updateFacts i.id batch).1) s, finish)

end JobLaunch
