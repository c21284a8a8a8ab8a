/-!
A place in a YAML text, and the white space around the words of a scalar that runs over several
lines: a single line break is folded into a space.
-/
namespace JobLaunch.Yaml

def isPrintable (c : Char) : Bool :=
  c = '\t' || c = '\n' || c = '\r' || (' ' ≤ c && c ≤ '~') || c = '\u0085' ||
    ('\u00a0' ≤ c && c ≤ '\uFFFD') || '\uFFFF' < c

def isBlank (c : Char) : Bool := c = ' ' || c = '\t'

def isBreak (c : Char) : Bool :=
  c = '\r' || c = '\n' || c = '\u0085' || c = '\u2028' || c = '\u2029'

def isNameChar (c : Char) : Bool := c.isAlphanum || c = '_' || c = '-'

/-- Whether a text goes on with a blank or a line break, or ends. -/
def atBlank (cs : List Char) : Bool := cs.head?.all fun c => isBlank c || isBreak c

/-- What is left of a text, and where that starts. -/
structure Cursor where
  rest : List Char
  index : Nat := 0
  line : Nat := 0
  column : Nat := 0
deriving DecidableEq, Repr

namespace Cursor

def skip (c : Cursor) (n : Nat) : Cursor :=
  { c with rest := c.rest.drop n, index := c.index + n, column := c.column + n }

def skipWhile (p : Char → Bool) (c : Cursor) : Cursor := c.skip (c.rest.takeWhile p).length

/-- Past a line break, which may be two characters. -/
def skipBreak (c : Cursor) : Cursor :=
  let n := if c.rest.take 2 = ['\r', '\n'] then 2 else 1
  { rest := c.rest.drop n, index := c.index + n, line := c.line + 1 }

/-- What the line break that comes next reads as. -/
def breakText (c : Cursor) : List Char :=
  match c.rest with
  | [] => []
  | b :: _ => if b = '\u2028' ∨ b = '\u2029' then [b] else ['\n']

def skipComment (c : Cursor) : Cursor :=
  let c := c.skipWhile isBlank
  if c.rest.head? = some '#' then c.skipWhile fun ch => !isBreak ch else c

/-- The rest of a line that may hold a comment only. -/
def endLine? (c : Cursor) : Option Cursor :=
  let c := c.skipComment
  match c.rest with
  | [] => some c
  | b :: _ => if isBreak b then some c.skipBreak else none

/-- Whether a line starts with a mark between documents. -/
def atDocumentMark (c : Cursor) : Bool :=
  c.column = 0 && (c.rest.take 3 = "---".toList || c.rest.take 3 = "...".toList) &&
    atBlank (c.rest.drop 3)

end Cursor

/-- White space that has been read after a word: blanks of the same line, or line breaks. -/
structure Space where
  blanks : List Char := []
  broken : Bool := false
  firstBreak : List Char := []
  breaks : List Char := []
deriving DecidableEq, Repr

namespace Space

/-- What the white space means when another word follows. -/
def fold (s : Space) : List Char :=
  if s.broken then
    if s.firstBreak = ['\n'] then if s.breaks.isEmpty then [' '] else s.breaks
    else s.firstBreak ++ s.breaks
  else s.blanks

/-- Reads white space. In a plain scalar no tab may stand before its indentation. -/
def read? (indent : Nat) : Nat → Cursor → Space → Option (Cursor × Space)
  | 0, c, s => some (c, s)
  | fuel + 1, c, s =>
    match c.rest with
    | [] => some (c, s)
    | ch :: _ =>
      if isBlank ch then
        if s.broken then
          if ch = '\t' ∧ c.column < indent then none else read? indent fuel (c.skip 1) s
        else read? indent fuel (c.skip 1) { s with blanks := s.blanks ++ [ch] }
      else if isBreak ch then
        if s.broken then
          read? indent fuel c.skipBreak { s with breaks := s.breaks ++ c.breakText }
        else read? indent fuel c.skipBreak { broken := true, firstBreak := c.breakText }
      else some (c, s)

end Space
end JobLaunch.Yaml
