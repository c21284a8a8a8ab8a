import JobLaunch.Yaml.Text
/-!
YAML tokens. The lexer keeps the columns of the open blocks, and remembers where a key without an
indicator may have started: when a colon follows it, the tokens of a key are put in front of it.
-/
namespace JobLaunch.Yaml

inductive Token where
  | version (major minor : Nat)
  | tagShorthand (handle start : String)
  | documentStart
  | documentEnd
  | blockSequence
  | blockMapping
  | blockEnd
  | flowSequence
  | flowSequenceEnd
  | flowMapping
  | flowMappingEnd
  | blockEntry
  | flowEntry
  | key
  | value
  | reference (name : String)
  | anchor (name : String)
  | tag (handle suffix : String)
  | scalar (text : String) (plain : Bool)
deriving DecidableEq, Repr

def anchorName? (c : Cursor) : Option (String × Cursor) :=
  let name := c.rest.takeWhile isNameChar
  let after := c.rest.drop name.length
  if name.isEmpty || !(atBlank after || after.head?.any ("?:,]\x7d%@\x60".toList.contains ·)) then
    none
  else some (String.ofList name, c.skip name.length)

/-- Reads a handle: an exclamation mark, or a name between two. A lone mark may be the start of a
suffix instead, and takes the name after it along. -/
def tagHandle? (c : Cursor) : Option (List Char × Cursor) :=
  match c.rest with
  | '!' :: cs =>
    let name := cs.takeWhile isNameChar
    if (cs.drop name.length).head? = some '!' then
      some ('!' :: name ++ ['!'], c.skip (name.length + 2))
    else some ('!' :: name, c.skip (name.length + 1))
  | _ => none

/-- Characters of tags. Brackets and commas are among them only where nothing else can be meant. -/
def isTagChar (verbatim : Bool) (c : Char) : Bool :=
  isNameChar c || ";/?:@&=+$.%!~*'()".toList.contains c || (verbatim && ",[]".toList.contains c)

def escapedBytes? : Nat → List Char → Option (List UInt8 × List Char)
  | 0, cs => some ([], cs)
  | n + 1, '%' :: a :: b :: cs => do
    let byte ← Text.natural? 16 [a, b]
    let (bytes, cs) ← escapedBytes? n cs
    return (UInt8.ofNat byte :: bytes, cs)
  | _ + 1, _ => none

/-- How many bytes a character has, by its first. -/
def encodedSize? (first : Nat) : Option Nat :=
  if first < 0x80 then some 1
  else if 0xc0 ≤ first ∧ first < 0xe0 then some 2
  else if 0xe0 ≤ first ∧ first < 0xf0 then some 3
  else if 0xf0 ≤ first ∧ first < 0xf8 then some 4
  else none

/-- Reads a character of a tag that is written as bytes. Bytes that are no character count as one
that stands for none. -/
def escapedChar? (cs : List Char) : Option (Char × List Char) := do
  let (first, _) ← escapedBytes? 1 cs
  let size ← encodedSize? (first.headD 0).toNat
  let (bytes, rest) ← escapedBytes? size cs
  if (bytes.drop 1).any fun b => b < 0x80 || 0xc0 ≤ b then none
  else
    let text := (String.fromUTF8? ⟨bytes.toArray⟩).bind fun s => s.toList.head?
    return (text.getD '\uFFFD', rest)

def tagChars? (verbatim : Bool) : Nat → Cursor → Option (List Char × Cursor)
  | 0, c => some ([], c)
  | fuel + 1, c =>
    match c.rest with
    | [] => some ([], c)
    | ch :: _ =>
      if !isTagChar verbatim ch then some ([], c)
      else do
        let (ch, length) ← if ch = '%' then
            (escapedChar? c.rest).map fun (ch, rest) => (ch, c.rest.length - rest.length)
          else some (ch, 1)
        let (text, c) ← tagChars? verbatim fuel (c.skip length)
        return (ch :: text, c)

def tagText? (verbatim : Bool) (c : Cursor) : Option (List Char × Cursor) :=
  (tagChars? verbatim c.rest.length c).filter fun (text, _) => !text.isEmpty

def isClosedHandle (handle : List Char) : Bool := 2 ≤ handle.length && handle.getLast? = some '!'

/-- Reads a tag's handle and suffix: a verbatim tag has no handle, a closed handle is defined
elsewhere, and a lone mark is a handle when a suffix follows it. -/
def tagParts? (c : Cursor) : Option (List Char × List Char × Cursor) := do
  if c.rest.take 2 = ['!', '<'] then
    let (text, c) ← tagText? true (c.skip 2)
    if c.rest.head? = some '>' then return ([], text, c.skip 1)
    none
  let (handle, c) ← tagHandle? c
  if isClosedHandle handle then
    let (text, c) ← tagText? false c
    return (handle, text, c)
  let (text, c) ← tagChars? false c.rest.length c
  let suffix := handle.drop 1 ++ text
  return if suffix.isEmpty then ([], ['!'], c) else (['!'], suffix, c)

def readTag? (inFlow : Bool) (c : Cursor) : Option (Token × Cursor) := do
  let (handle, suffix, c) ← tagParts? c
  if atBlank c.rest || (inFlow && c.rest.head? = some ',') then
    return (.tag (String.ofList handle) (String.ofList suffix), c)
  else none

def versionNumber? (c : Cursor) : Option (Nat × Cursor) :=
  let digits := c.rest.takeWhile Char.isDigit
  if digits.length ≤ 9 then
    (Text.natural? 10 digits).map fun n => (n, c.skip digits.length)
  else none

def readDirective? (c : Cursor) : Option (Token × Cursor) := do
  let name := c.rest.takeWhile isNameChar
  let c := c.skip name.length
  if !atBlank c.rest then none
  let c := c.skipWhile isBlank
  let (token, c) ← match String.ofList name with
    | "YAML" => do
      let (major, c) ← versionNumber? c
      if c.rest.head? ≠ some '.' then none
      let (minor, c) ← versionNumber? (c.skip 1)
      some (Token.version major minor, c)
    | "TAG" => do
      let (handle, c) ← tagHandle? c
      if handle ≠ ['!'] ∧ !isClosedHandle handle then none
      if !c.rest.head?.any isBlank then none
      let (start, c) ← tagText? true (c.skipWhile isBlank)
      if !atBlank c.rest then none
      some (.tagShorthand (String.ofList handle) (String.ofList start), c)
    | _ => none
  return (token, ← c.endLine?)

/-- Where a key may have started: before which token, and whether it must be one. -/
structure PossibleKey where
  token : Nat
  place : Cursor
  required : Bool
deriving DecidableEq, Repr

def keyLimit : Nat := 1024

/-- A lexer inside of a text. Columns of open blocks are kept innermost first, and possible keys for
the open brackets, again innermost first. -/
structure Lexer where
  cursor : Cursor
  tokens : Array Token := #[]
  columns : List Nat := []
  key : Option PossibleKey := none
  outerKeys : List (Option PossibleKey) := []
  keyAllowed : Bool := true

namespace Lexer

def inFlow (l : Lexer) : Bool := !l.outerKeys.isEmpty

def column? (l : Lexer) : Option Nat := l.columns.head?

def push (l : Lexer) (t : Token) : Lexer := { l with tokens := l.tokens.push t }

def putAt (l : Lexer) (n : Nat) (t : Token) : Lexer :=
  { l with tokens := (l.tokens.take n).push t ++ l.tokens.drop n }

def skip (l : Lexer) (n : Nat) : Lexer := { l with cursor := l.cursor.skip n }

/-- Past white space and comments. Tabs are white space where no indentation is expected. -/
def toToken : Nat → Lexer → Lexer
  | 0, l => l
  | fuel + 1, l =>
    let c := l.cursor
    let c := if c.index = 0 ∧ c.rest.head? = some '\uFEFF' then c.skip 1 else c
    let tabs := l.inFlow || !l.keyAllowed
    let c := c.skipWhile fun ch => ch = ' ' || (tabs && ch = '\t')
    let c := if c.rest.head? = some '#' then c.skipWhile fun ch => !isBreak ch else c
    if c.rest.head?.any isBreak then
      toToken fuel { l with cursor := c.skipBreak, keyAllowed := l.keyAllowed || !l.inFlow }
    else { l with cursor := c }

/-- Whether a possible key has ended without its colon: on an earlier line, or too long ago. -/
def isPast (l : Lexer) (k : PossibleKey) : Bool :=
  k.place.line < l.cursor.line || k.place.index + keyLimit < l.cursor.index

/-- Forgets a possible key, unless it must be one. -/
def forgetKey? (l : Lexer) : Option Lexer :=
  if l.key.any (·.required) then none else some { l with key := none }

def forgetPast? (l : Lexer) : Option Lexer :=
  let past (k : Option PossibleKey) : Bool := k.any l.isPast
  let failed (k : Option PossibleKey) : Bool := past k && k.any (·.required)
  let keep (k : Option PossibleKey) : Option PossibleKey := if past k then none else k
  if failed l.key || l.outerKeys.any failed then none
  else some { l with key := keep l.key, outerKeys := l.outerKeys.map keep }

def noteKey? (l : Lexer) : Option Lexer :=
  if l.keyAllowed then do
    let required := !l.inFlow && l.column? == some l.cursor.column
    let l ← l.forgetKey?
    return { l with key := some ⟨l.tokens.size, l.cursor, required⟩ }
  else some l

/-- Closes blocks that are indented deeper than a column; without a column, all blocks. -/
def closeBlocks (l : Lexer) (column : Option Nat) : Lexer :=
  if l.inFlow then l
  else
    let closed := l.columns.takeWhile fun n => column.all (· < n)
    { l with
      columns := l.columns.drop closed.length
      tokens := l.tokens ++ (closed.map fun _ => Token.blockEnd).toArray }

/-- Opens a block at a column that is deeper than the innermost block, before a given token. -/
def openBlock (l : Lexer) (column index : Nat) (t : Token) : Lexer :=
  if !l.inFlow && l.column?.all (· < column) then
    { l.putAt index t with columns := column :: l.columns }
  else l

def openHere? (l : Lexer) (t : Token) : Option Lexer :=
  if l.inFlow then some l
  else if l.keyAllowed then some (l.openBlock l.cursor.column l.tokens.size t)
  else none

/-- A token that ends everything before it: a mark between documents or a directive. -/
def outside? (l : Lexer) : Option Lexer := do
  return { ← (l.closeBlocks none).forgetKey? with keyAllowed := false }

def readMark? (l : Lexer) (t : Token) : Option Lexer := do
  return ((← l.outside?).push t).skip 3

def readDirective? (l : Lexer) : Option Lexer := do
  let l ← l.outside?
  let (token, cursor) ← Yaml.readDirective? (l.cursor.skip 1)
  return { l.push token with cursor }

def openBracket? (l : Lexer) (t : Token) : Option Lexer := do
  let l ← l.noteKey?
  let inner := { l with key := none, outerKeys := l.key :: l.outerKeys, keyAllowed := true }
  return (inner.push t).skip 1

def closeBracket? (l : Lexer) (t : Token) : Option Lexer := do
  let l ← l.forgetKey?
  let l := match l.outerKeys with
    | key :: outerKeys => { l with key, outerKeys }
    | [] => l
  return ({ l with keyAllowed := false }.push t).skip 1

def readFlowEntry? (l : Lexer) : Option Lexer := do
  return ({ ← l.forgetKey? with keyAllowed := true }.push .flowEntry).skip 1

def readBlockEntry? (l : Lexer) : Option Lexer := do
  let l ← (← l.openHere? .blockSequence).forgetKey?
  return ({ l with keyAllowed := true }.push .blockEntry).skip 1

def readKey? (l : Lexer) : Option Lexer := do
  let l ← (← l.openHere? .blockMapping).forgetKey?
  return ({ l with keyAllowed := !l.inFlow }.push .key).skip 1

/-- A colon: what may have been a key before it is one. -/
def readValue? (l : Lexer) : Option Lexer := do
  let l ← match l.key with
    | some k =>
      let l := (l.putAt k.token .key).openBlock k.place.column k.token .blockMapping
      some { l with key := none, keyAllowed := false }
    | none => do
      let l ← l.openHere? .blockMapping
      some { l with keyAllowed := !l.inFlow }
  return (l.push .value).skip 1

def readName? (l : Lexer) (token : String → Token) : Option Lexer := do
  let l ← l.noteKey?
  let (name, cursor) ← anchorName? (l.cursor.skip 1)
  return { l.push (token name) with cursor, keyAllowed := false }

def readTag? (l : Lexer) : Option Lexer := do
  let l ← l.noteKey?
  let (token, cursor) ← Yaml.readTag? l.inFlow l.cursor
  return { l.push token with cursor, keyAllowed := false }

def readBlockScalar? (l : Lexer) (literal : Bool) : Option Lexer := do
  let l ← l.forgetKey?
  let (text, cursor) ← readBlock? literal l.column? (l.cursor.skip 1)
  return { l.push (.scalar (String.ofList text) false) with cursor, keyAllowed := true }

def readQuotedScalar? (l : Lexer) (quote : Char) : Option Lexer := do
  let l ← l.noteKey?
  let start := l.cursor.skip 1
  let (text, cursor) ← readQuoted? quote (start.rest.length + 1) start []
  return { l.push (.scalar (String.ofList text) false) with cursor, keyAllowed := false }

def readPlainScalar? (l : Lexer) : Option Lexer := do
  let l ← l.noteKey?
  let indent := (l.column?.map (· + 1)).getD 0
  let (text, cursor, broken) ← readPlain? l.inFlow indent (l.cursor.rest.length + 1) l.cursor [] {}
  return { l.push (.scalar (String.ofList text) true) with cursor, keyAllowed := broken }

/-- Characters that a plain scalar does not start with, unless something follows them. -/
def isIndicator (c : Char) : Bool := "-?:,[]\x7b\x7d#&*!|>'\"%@\x60".toList.contains c

def startsPlain (inFlow : Bool) : List Char → Bool
  | [] => false
  | c :: cs =>
    !(isBlank c || isBreak c || isIndicator c) || (c = '-' && !cs.head?.any isBlank) ||
      (!inFlow && (c = '?' || c = ':') && !atBlank cs)

def readToken? (l : Lexer) : Option Lexer :=
  match l.cursor.rest with
  | [] => none
  | c :: cs =>
    if l.cursor.column = 0 ∧ c = '%' then l.readDirective?
    else if l.cursor.atDocumentMark then
      l.readMark? (if c = '-' then .documentStart else .documentEnd)
    else match c, atBlank cs, l.inFlow with
      | '[', _, _ => l.openBracket? .flowSequence
      | '{', _, _ => l.openBracket? .flowMapping
      | ']', _, _ => l.closeBracket? .flowSequenceEnd
      | '}', _, _ => l.closeBracket? .flowMappingEnd
      | ',', _, _ => l.readFlowEntry?
      | '-', true, _ => l.readBlockEntry?
      | '?', true, _ | '?', _, true => l.readKey?
      | ':', true, _ | ':', _, true => l.readValue?
      | '*', _, _ => l.readName? .reference
      | '&', _, _ => l.readName? .anchor
      | '!', _, _ => l.readTag?
      | '|', _, false => l.readBlockScalar? true
      | '>', _, false => l.readBlockScalar? false
      | '\'', _, _ => l.readQuotedScalar? '\''
      | '"', _, _ => l.readQuotedScalar? '"'
      | _, _, inFlow => if startsPlain inFlow (c :: cs) then l.readPlainScalar? else none

/-- Reads all tokens. Every step reads a character at least, so that the text's length is steps
enough. -/
def run? : Nat → Lexer → Option Lexer
  | 0, _ => none
  | fuel + 1, l => do
    let l ← (l.toToken (l.cursor.rest.length + 1)).forgetPast?
    let l := l.closeBlocks (some l.cursor.column)
    if l.cursor.rest.isEmpty then (l.closeBlocks none).forgetKey?
    else run? fuel (← l.readToken?)

end Lexer

def Token.ofText? (text : String) : Option (List Token) :=
  let cs := text.toList
  if cs.all isPrintable then
    (Lexer.run? (cs.length + 1) { cursor := { rest := cs } }).map fun l => l.tokens.toList
  else none

end JobLaunch.Yaml
