import JobLaunch.Text.Digit
import JobLaunch.Yaml.Cursor
/-!
The texts of YAML scalars in their five styles. A reader starts at the scalar and gives its text and
the place after it.
-/
namespace JobLaunch.Yaml

/-- The characters of a plain scalar up to white space or to where it ends. Inside of brackets a
colon may not stand before punctuation. -/
def plainWord? (inFlow : Bool) : List Char → Option (List Char)
  | [] => some []
  | c :: cs =>
    if isBlank c || isBreak c then some []
    else if inFlow && c = ':' && cs.head?.any (",?[]\x7b\x7d".toList.contains ·) then none
    else if (c = ':' && atBlank cs) || (inFlow && ",[]\x7b\x7d".toList.contains c) then some []
    else (plainWord? inFlow cs).map (c :: ·)

/-- Reads a plain scalar. Its lines are indented by `indent` at least; the answer tells whether line
breaks follow it. -/
def readPlain? (inFlow : Bool) (indent : Nat) :
    Nat → Cursor → List Char → Space → Option (List Char × Cursor × Bool)
  | 0, _, _, _ => none
  | fuel + 1, c, text, space =>
    if c.atDocumentMark || c.rest.head? = some '#' then some (text, c, space.broken)
    else do
      let word ← plainWord? inFlow c.rest
      let (text, space) := if word.isEmpty then (text, space) else (text ++ space.fold ++ word, {})
      let c := c.skip word.length
      if c.rest.isEmpty || !atBlank c.rest then return (text, c, space.broken)
      let (c, space) ← Space.read? indent c.rest.length c space
      if !inFlow && c.column < indent then return (text, c, space.broken)
      readPlain? inFlow indent fuel c text space

def namedEscape? : Char → Option Char
  | '0' => some '\x00'
  | 'a' => some '\x07'
  | 'b' => some '\x08'
  | 't' | '\t' => some '\t'
  | 'n' => some '\n'
  | 'v' => some '\x0b'
  | 'f' => some '\x0c'
  | 'r' => some '\r'
  | 'e' => some '\x1b'
  | ' ' => some ' '
  | '"' => some '"'
  | '/' => some '/'
  | '\\' => some '\\'
  | 'N' => some '\u0085'
  | '_' => some '\u00a0'
  | 'L' => some '\u2028'
  | 'P' => some '\u2029'
  | _ => none

/-- How many digits name a character after a letter. -/
def escapeDigits? : Char → Option Nat
  | 'x' => some 2
  | 'u' => some 4
  | 'U' => some 8
  | _ => none

/-- Reads what follows a backslash: a character and how long its name is. -/
def readEscape? : List Char → Option (Char × Nat)
  | [] => none
  | c :: cs =>
    match namedEscape? c, escapeDigits? c with
    | some ch, _ => some (ch, 1)
    | none, some digits => do
      let n ← Text.natural? 16 (cs.take digits)
      if (cs.take digits).length = digits ∧ n.isValidChar then some (Char.ofNat n, 1 + digits)
      else none
    | none, none => none

/-- Reads the characters of a quoted scalar up to white space or to its closing quote. The answer
tells whether an escaped line break ends them. -/
def readQuotedWord? (quote : Char) : Nat → Cursor → Option (List Char × Cursor × Bool)
  | 0, _ => none
  | fuel + 1, c =>
    let go (ch : Char) (length : Nat) :=
      (readQuotedWord? quote fuel (c.skip length)).map fun (word, rest) => (ch :: word, rest)
    match c.rest with
    | [] => some ([], c, false)
    | ch :: cs =>
      if isBlank ch || isBreak ch then some ([], c, false)
      else if ch = quote then
        if quote = '\'' ∧ cs.head? = some '\'' then go '\'' 2 else some ([], c, false)
      else if quote = '"' ∧ ch = '\\' then
        if cs.head?.any isBreak then some ([], (c.skip 1).skipBreak, true)
        else (readEscape? cs).bind fun (escaped, length) => go escaped (1 + length)
      else go ch 1

def readQuoted? (quote : Char) : Nat → Cursor → List Char → Option (List Char × Cursor)
  | 0, _, _ => none
  | fuel + 1, c, text =>
    if c.atDocumentMark || c.rest.isEmpty then none
    else do
      let (word, c, escaped) ← readQuotedWord? quote (c.rest.length + 1) c
      let text := text ++ word
      if c.rest.head? = some quote then return (text, c.skip 1)
      let (c, space) ← Space.read? 0 c.rest.length c { broken := escaped }
      readQuoted? quote fuel c (text ++ space.fold)

/-- What becomes of the line breaks at the end of a block scalar. -/
inductive Chomping where
  | strip | clip | keep
deriving DecidableEq, Repr

def chomping? (c : Cursor) : Option (Chomping × Cursor) :=
  match c.rest.head? with
  | some '+' => some (.keep, c.skip 1)
  | some '-' => some (.strip, c.skip 1)
  | _ => none

/-- Reads an indentation indicator, which is not zero: none when there is no digit. -/
def indentation? (c : Cursor) : Option (Option Nat × Cursor) :=
  match c.rest.head? with
  | some ch =>
    if ch.isDigit then if ch = '0' then none else some (some (ch.toNat - '0'.toNat), c.skip 1)
    else some (none, c)
  | none => some (none, c)

def blockHeader? (c : Cursor) : Option (Chomping × Option Nat × Cursor) :=
  match chomping? c with
  | some (chomping, c) => (indentation? c).map fun (indent, c) => (chomping, indent, c)
  | none => do
    let (indent, c) ← indentation? c
    match indent, chomping? c with
    | some _, some (chomping, c) => return (chomping, indent, c)
    | _, _ => return (.clip, indent, c)

/-- Reads empty lines before a line of a block scalar. Without a known indentation the answer gives
the widest one that was seen. -/
def readEmptyLines? (indent : Option Nat) :
    Nat → Cursor → (breaks : List Char) → (widest : Nat) → Option (List Char × Nat × Cursor)
  | 0, c, breaks, widest => some (breaks, widest, c)
  | fuel + 1, c, breaks, widest =>
    let wanted := match indent with
      | some n => n - c.column
      | none => c.rest.length
    let c := c.skip ((c.rest.take wanted).takeWhile (· = ' ')).length
    let widest := max widest c.column
    let short := indent.all fun n => c.column < n
    match c.rest with
    | [] => some (breaks, widest, c)
    | ch :: _ =>
      if short && ch = '\t' then none
      else if isBreak ch then readEmptyLines? indent fuel c.skipBreak (breaks ++ c.breakText) widest
      else some (breaks, widest, c)

/-- A block scalar while it is read: its text, the break after its last line and the breaks after
that one. -/
structure Block where
  text : List Char := []
  lastBreak : List Char := []
  breaks : List Char := []
  lastBlank : Bool := false

/-- Reads the lines of a block scalar. In a folded one a break between two lines that do not start
with a blank is a space. -/
def readLines? (literal : Bool) (indent : Nat) : Nat → Cursor → Block → Option (Cursor × Block)
  | 0, c, b => some (c, b)
  | fuel + 1, c, b =>
    if c.column = indent && !c.rest.isEmpty then do
      let blank := c.rest.head?.any isBlank
      let joint :=
        if !literal && b.lastBreak = ['\n'] && !b.lastBlank && !blank then
          if b.breaks.isEmpty then [' '] else []
        else b.lastBreak
      let line := c.rest.takeWhile fun ch => !isBreak ch
      let c := c.skip line.length
      let lastBreak := c.breakText
      let c := if c.rest.isEmpty then c else c.skipBreak
      let (breaks, _, c) ← readEmptyLines? (some indent) (c.rest.length + 1) c [] 0
      readLines? literal indent fuel c
        ⟨b.text ++ joint ++ b.breaks ++ line, lastBreak, breaks, blank⟩
    else some (c, b)

/-- Reads a block scalar from behind its indicator, in a block that is indented by `parent`. -/
def readBlock? (literal : Bool) (parent : Option Nat) (c : Cursor) :
    Option (List Char × Cursor) := do
  let (chomping, given, c) ← blockHeader? c
  let c ← c.endLine?
  let wanted := given.map fun n => (parent.getD 0) + n
  let (breaks, widest, c) ← readEmptyLines? wanted (c.rest.length + 1) c [] 0
  let least := (parent.map (· + 1)).getD 0
  let indent := wanted.getD (max (max widest least) 1)
  let (c, b) ← readLines? literal indent (c.rest.length + 1) c { breaks }
  let text := match chomping with
    | .strip => b.text
    | .clip => b.text ++ b.lastBreak
    | .keep => b.text ++ b.lastBreak ++ b.breaks
  return (text, c)

end JobLaunch.Yaml
