import JobLaunch.Json.Number
import JobLaunch.Text.Digit
/-!
Reading JSON text strictly. Lists and objects may nest at most 127 deep; equal field names are kept
as written.
-/
namespace JobLaunch.Json

def nestingLimit : Nat := 127

def isSpace (c : Char) : Bool := c = ' ' || c = '\n' || c = '\t' || c = '\r'

def skipSpace (cs : List Char) : List Char := cs.dropWhile isSpace

def hexFour? : List Char → Option (Nat × List Char)
  | a :: b :: c :: d :: rest => do
    let a ← Text.hexValue? a
    let b ← Text.hexValue? b
    let c ← Text.hexValue? c
    let d ← Text.hexValue? d
    return (((a * 16 + b) * 16 + c) * 16 + d, rest)
  | _ => none

/-- Reads what follows a backslash. Code points beyond the first plane are two escapes; half of
such a pair is refused. -/
def readEscape? : List Char → Option (Char × List Char)
  | 'u' :: cs => do
    let (n, cs) ← hexFour? cs
    if 0xDC00 ≤ n ∧ n ≤ 0xDFFF then none
    if 0xD800 ≤ n ∧ n ≤ 0xDBFF then
      let '\\' :: 'u' :: cs := cs | none
      let (low, cs) ← hexFour? cs
      if low < 0xDC00 ∨ 0xDFFF < low then none
      return (Char.ofNat (0x10000 + (n - 0xD800) * 0x400 + (low - 0xDC00)), cs)
    return (Char.ofNat n, cs)
  | c :: cs =>
    if c = '"' ∨ c = '\\' ∨ c = '/' then some (c, cs)
    else if c = 'b' then some (Char.ofNat 8, cs)
    else if c = 'f' then some (Char.ofNat 12, cs)
    else if c = 'n' then some ('\n', cs)
    else if c = 'r' then some ('\r', cs)
    else if c = 't' then some ('\t', cs)
    else none
  | [] => none

/-- Reads a string after its opening quote; `limit` bounds the characters to come. -/
def readString? (limit : Nat) (read : List Char) (cs : List Char) : Option (String × List Char) :=
  match limit, cs with
  | 0, _ | _, [] => none
  | limit + 1, c :: cs =>
    if c = '"' then some (String.ofList read.reverse, cs)
    else if c = '\\' then do
      let (c, cs) ← readEscape? cs
      readString? limit (c :: read) cs
    else if c.toNat < 32 then none
    else readString? limit (c :: read) cs

/-- Reads the rest of a list or object: entries between commas up to the closing bracket. -/
def readEntries? {α : Type} (closing : Char) (entry : List Char → Option (α × List Char))
    (limit : Nat) (read : List α) (cs : List Char) : Option (List α × List Char) :=
  match limit with
  | 0 => none
  | limit + 1 => do
    let (a, cs) ← entry cs
    match skipSpace cs with
    | c :: cs =>
      if c = ',' then readEntries? closing entry limit (a :: read) cs
      else if c = closing then some ((a :: read).reverse, cs)
      else none
    | [] => none

def readBlock? {α : Type} (closing : Char) (entry : List Char → Option (α × List Char))
    (cs : List Char) : Option (List α × List Char) :=
  match skipSpace cs with
  | c :: rest =>
    if c = closing then some ([], rest)
    else readEntries? closing entry (rest.length + 1) [] (c :: rest)
  | [] => none

def readField? (value : List Char → Option (Json × List Char)) (cs : List Char) :
    Option ((String × Json) × List Char) := do
  let '"' :: cs := skipSpace cs | none
  let (name, cs) ← readString? (cs.length + 1) [] cs
  let ':' :: cs := skipSpace cs | none
  let (v, cs) ← value cs
  return ((name, v), cs)

def readWord? (word : String) (value : Json) (cs : List Char) : Option (Json × List Char) :=
  if word.toList.isPrefixOf cs then some (value, cs.drop word.length) else none

/-- Reads one value, inside which lists and objects may still nest `depth` deep. -/
def readValue? (depth : Nat) (cs : List Char) : Option (Json × List Char) :=
  match skipSpace cs with
  | [] => none
  | c :: cs =>
    if c = '"' then (readString? (cs.length + 1) [] cs).map fun (s, cs) => (string s, cs)
    else if c = 'n' then readWord? "null" null (c :: cs)
    else if c = 't' then readWord? "true" (bool true) (c :: cs)
    else if c = 'f' then readWord? "false" (bool false) (c :: cs)
    else if c = '-' ∨ c.isDigit then do
      let (t, cs) ← NumberText.read? (c :: cs)
      return (← t.toJson?, cs)
    else match depth with
      | 0 => none
      | depth + 1 =>
        if c = '[' then
          (readBlock? ']' (readValue? depth) cs).map fun (items, cs) => (list items, cs)
        else if c = '{' then
          (readBlock? '}' (readField? (readValue? depth)) cs).map fun (fields, cs) =>
            (object fields, cs)
        else none

def parse? (text : String) : Option Json :=
  match readValue? nestingLimit text.toList with
  | some (j, rest) => if (skipSpace rest).isEmpty then some j else none
  | none => none

end JobLaunch.Json
