import JobLaunch.Yaml.Token
/-!
YAML nodes: the tree of one document, in which aliases are still numbers of anchors. A parser is a
function on the tokens that are left; what a token opens, a token closes.
-/
namespace JobLaunch.Yaml

/-- What stands in front of a node: the number of its anchor and its tag. -/
structure Properties where
  anchor : Option Nat := none
  tag : Option String := none
deriving DecidableEq, Repr

inductive Node where
  | reference (anchor : Nat)
  | scalar (properties : Properties) (text : String) (plain : Bool)
  | sequence (properties : Properties) (items : List Node)
  | mapping (properties : Properties) (entries : List (Node × Node))

namespace Node

def empty (properties : Properties) : Node := scalar properties "" true

mutual
/-- How many events describe the node: one for a scalar or an alias, and two around a collection. -/
def events : Node → Nat
  | reference _ | scalar .. => 1
  | sequence _ items => 2 + eventsOfItems items
  | mapping _ entries => 2 + eventsOfEntries entries

def eventsOfItems : List Node → Nat
  | [] => 0
  | n :: ns => n.events + eventsOfItems ns

def eventsOfEntries : List (Node × Node) → Nat
  | [] => 0
  | (k, v) :: r => k.events + v.events + eventsOfEntries r
end

mutual
/-- Nodes by their anchors; of two with one number the later counts. -/
def anchored (found : List (Nat × Node)) : Node → List (Nat × Node)
  | reference _ => found
  | scalar p text plain => note p (scalar p text plain) found
  | sequence p items => anchoredItems (note p (sequence p items) found) items
  | mapping p entries => anchoredEntries (note p (mapping p entries) found) entries

def anchoredItems (found : List (Nat × Node)) : List Node → List (Nat × Node)
  | [] => found
  | n :: ns => anchoredItems (n.anchored found) ns

def anchoredEntries (found : List (Nat × Node)) : List (Node × Node) → List (Nat × Node)
  | [] => found
  | (k, v) :: r => anchoredEntries (v.anchored (k.anchored found)) r

def note (p : Properties) (n : Node) (found : List (Nat × Node)) : List (Nat × Node) :=
  match p.anchor with
  | some a => (a, n) :: found
  | none => found
end

end Node

/-- What a parser knows: the tokens that are left, the numbers of anchors by name, and the starts of
tags by handle. -/
structure ParseState where
  tokens : List Token
  anchors : List (String × Nat) := []
  handles : List (String × String) := []

abbrev Parser := StateT ParseState Option

namespace Parser

def peek : Parser (Option Token) := do return (← get).tokens.head?

def skip : Parser Unit := modify fun s => { s with tokens := s.tokens.drop 1 }

/-- Whether the next token is one of some; at the end of the text it is none. -/
def isNext (ts : List Token) : Parser Bool := do return (← peek).any ts.contains

def accept (t : Token) : Parser Bool := do
  if ← isNext [t] then skip; return true
  return false

/-- Gives a number to an anchor: how many names were known before, also when the name is known. -/
def number (name : String) : Parser Nat := do
  let anchors := (← get).anchors
  let n := anchors.length
  modify fun s => { s with anchors := (name, n) :: anchors.filter fun a => a.1 != name }
  return n

def wholeTag (handle suffix : String) : Parser String := do
  if handle = "" then return suffix
  let some start := (← get).handles.lookup handle | failure
  return start ++ suffix

def anchorProperty : Parser (Option Nat) := do
  let some (.anchor name) ← peek | return none
  skip
  return some (← number name)

def tagProperty : Parser (Option String) := do
  let some (.tag handle suffix) ← peek | return none
  skip
  return some (← wholeTag handle suffix)

def properties : Parser Properties := do
  match ← anchorProperty with
  | some anchor => return ⟨some anchor, ← tagProperty⟩
  | none =>
    let some tag ← tagProperty | return {}
    return ⟨← anchorProperty, some tag⟩

/-- A lone mark as the tag of a scalar says nothing. -/
def scalarProperties (p : Properties) : Properties :=
  if p.tag = some "!" then { p with tag := none } else p

mutual
/-- A node. In a block it may be a block itself, and in a mapping a sequence that is not
indented. -/
def node (fuel : Nat) (block unindented : Bool) : Parser Node := do
  match fuel with
  | 0 => failure
  | fuel + 1 =>
    if let some (.reference name) ← peek then
      skip
      let some n := (← get).anchors.lookup name | failure
      return .reference n
    let p ← properties
    match ← peek with
    | some (.scalar text plain) =>
      skip
      return .scalar (scalarProperties p) text plain
    | some .flowSequence => skip; return .sequence p (← flowItems fuel true)
    | some .flowMapping => skip; return .mapping p (← flowEntries fuel true)
    | some .blockEntry =>
      if unindented then return .sequence p (← unindentedItems fuel)
      empty p
    | some .blockSequence =>
      if block then skip; return .sequence p (← blockItems fuel)
      empty p
    | some .blockMapping =>
      if block then skip; return .mapping p (← blockEntries fuel)
      empty p
    | _ => empty p

def empty (p : Properties) : Parser Node := do
  if p.anchor.isNone && p.tag.isNone then failure
  return Node.empty p

def nodeUnless (fuel : Nat) (ts : List Token) (block unindented : Bool) : Parser Node := do
  match fuel with
  | 0 => failure
  | fuel + 1 => if ← isNext ts then return Node.empty {} else node fuel block unindented

def blockItems (fuel : Nat) : Parser (List Node) := do
  match fuel with
  | 0 => failure
  | fuel + 1 =>
    if ← accept .blockEnd then return []
    if !(← accept .blockEntry) then failure
    let item ← nodeUnless fuel [.blockEntry, .blockEnd] true false
    return item :: (← blockItems fuel)

/-- Items of a block sequence that is as deep as the mapping around it. -/
def unindentedItems (fuel : Nat) : Parser (List Node) := do
  match fuel with
  | 0 => failure
  | fuel + 1 =>
    if !(← accept .blockEntry) then return []
    let item ← nodeUnless fuel [.blockEntry, .key, .value, .blockEnd] true false
    return item :: (← unindentedItems fuel)

def blockEntries (fuel : Nat) : Parser (List (Node × Node)) := do
  match fuel with
  | 0 => failure
  | fuel + 1 =>
    if ← accept .blockEnd then return []
    if !(← accept .key) then failure
    let ends : List Token := [.key, .value, .blockEnd]
    let key ← nodeUnless fuel ends true true
    let value ← if ← accept .value then nodeUnless fuel ends true true else pure (Node.empty {})
    return (key, value) :: (← blockEntries fuel)

/-- Items of a sequence in brackets. An item with a key indicator is a mapping of one entry. -/
def flowItems (fuel : Nat) (first : Bool) : Parser (List Node) := do
  match fuel with
  | 0 => failure
  | fuel + 1 =>
    if ← accept .flowSequenceEnd then return []
    if !first then
      if !(← accept .flowEntry) then failure
    if ← accept .flowSequenceEnd then return []
    let item ← if ← accept .key then singleEntry fuel else node fuel false false
    return item :: (← flowItems fuel false)

/-- A mapping of one entry. A key that is left out takes the token in its place along. -/
def singleEntry (fuel : Nat) : Parser Node := do
  match fuel with
  | 0 => failure
  | fuel + 1 =>
    let key ←
      if ← isNext [.value, .flowEntry, .flowSequenceEnd] then do skip; pure (Node.empty {})
      else node fuel false false
    let value ←
      if ← accept .value then nodeUnless fuel [.flowEntry, .flowSequenceEnd] false false
      else pure (Node.empty {})
    return .mapping {} [(key, value)]

def flowEntries (fuel : Nat) (first : Bool) : Parser (List (Node × Node)) := do
  match fuel with
  | 0 => failure
  | fuel + 1 =>
    if ← accept .flowMappingEnd then return []
    if !first then
      if !(← accept .flowEntry) then failure
    if ← accept .flowMappingEnd then return []
    let entry ← if ← accept .key then do
        let key ← nodeUnless fuel [.value, .flowEntry, .flowMappingEnd] false false
        let value ←
          if ← accept .value then nodeUnless fuel [.flowEntry, .flowMappingEnd] false false
          else pure (Node.empty {})
        pure (key, value)
      else do
        let key ← node fuel false false
        pure (key, Node.empty {})
    return entry :: (← flowEntries fuel false)
end

/-- Directives before a document. A version is given once and must be known, and a handle is defined
once. -/
def directives (fuel : Nat) (versioned : Bool) (handles : List (String × String)) :
    Parser (Bool × List (String × String)) := do
  match fuel with
  | 0 => failure
  | fuel + 1 =>
    match ← peek with
    | some (.version major minor) =>
      if versioned || major ≠ 1 || (minor ≠ 1 && minor ≠ 2) then failure
      skip
      directives fuel true handles
    | some (.tagShorthand handle start) =>
      if (handles.lookup handle).isSome then failure
      skip
      directives fuel versioned (handles ++ [(handle, start)])
    | _ => return (versioned, handles)

def commonHandles : List (String × String) := [("!", "!"), ("!!", "tag:yaml.org,2002:")]

/-- The document of a text; none when the text holds no document, an error when it holds several. -/
def document (fuel : Nat) : Parser (Option Node) := do
  if (← peek).isNone then return none
  let (versioned, handles) ← directives fuel false []
  modify fun s => { s with handles := handles ++ commonHandles }
  let explicit ← accept .documentStart
  if (versioned || !handles.isEmpty) && !explicit then failure
  let bare := explicit && (← peek).all fun
    | .version .. | .tagShorthand .. | .documentStart | .documentEnd => true
    | _ => false
  let root ← if bare then pure (Node.empty {}) else node fuel true false
  modify fun s => { s with tokens := s.tokens.dropWhile (· == .documentEnd) }
  if (← peek).isSome then failure
  return some root

end Parser

/-- The document of a text, if it holds one. Every token takes two calls of a parser at most. -/
def Node.ofText? (text : String) : Option (Option Node) := do
  let tokens ← Token.ofText? text
  let (root, _) ← (Parser.document (4 * tokens.length + 8)).run { tokens }
  return root

end JobLaunch.Yaml
