import JobLaunch.Json.Basic
import JobLaunch.Yaml.Tree
/-!
The core schema: what the scalars of a YAML tree mean as JSON.
-/
namespace JobLaunch.Yaml

open Decimal (Double)

def unsigned (cs : List Char) : List Char :=
  match cs with
  | '+' :: r | '-' :: r => r
  | _ => cs

/-- Whether a text is digits after a leading zero, which are no number. -/
def isZeroPadded (cs : List Char) : Bool :=
  match unsigned cs with
  | '0' :: c :: r => (c :: r).all Char.isDigit
  | _ => false

/-- Reads a number in hexadecimal, octal or binary digits, by its mark, or in decimal digits. -/
def magnitude? : List Char → Option Nat
  | '0' :: 'x' :: r => Text.natural? 16 r
  | '0' :: 'o' :: r => Text.natural? 8 r
  | '0' :: 'b' :: r => Text.natural? 2 r
  | cs => Text.natural? 10 cs

def integer? (cs : List Char) : Option Int :=
  if isZeroPadded cs then none
  else match cs with
    | '-' :: r =>
      ((magnitude? r).filter (· ≤ 0x80000000000000000000000000000000)).map fun n => -(n : Int)
    | _ =>
      ((magnitude? (unsigned cs)).filter (· ≤ 0xFFFFFFFFFFFFFFFFFFFFFFFFFFFFFFFF)).map Int.ofNat

def fitsWord (i : Int) : Bool := -0x8000000000000000 ≤ i && i ≤ 0xFFFFFFFFFFFFFFFF

/-- Reads a decimal exponent; without a mark there is none. -/
def exponent? : List Char → Option Int
  | [] => some 0
  | mark :: cs =>
    if mark = 'e' ∨ mark = 'E' then
      (Text.natural? 10 (unsigned cs)).map fun n => if cs.head? = some '-' then -(n : Int) else n
    else none

/-- Reads a decimal number: digits with a point among, before or after them, and an exponent. It is
none when no double is near it. -/
def decimal? (cs : List Char) : Option Double :=
  let number := unsigned cs
  let whole := number.takeWhile Char.isDigit
  let rest := number.drop whole.length
  let fraction := if rest.head? = some '.' then (rest.drop 1).takeWhile Char.isDigit else []
  let rest := if rest.head? = some '.' then rest.drop (1 + fraction.length) else rest
  (exponent? rest).bind fun exponent =>
    (Text.natural? 10 (whole ++ fraction)).bind fun digits =>
      Double.ofDecimal? (cs.head? = some '-') digits (exponent - fraction.length)

/-- What a plain scalar is as a floating point number: infinities and what is no number are null. -/
def floating? (text : String) : Option Json :=
  let cs := text.toList
  if text ∈ [".nan", ".NaN", ".NAN"] then some .null
  else if String.ofList (unsigned cs) ∈ [".inf", ".Inf", ".INF"] then some .null
  else if cs.head? = some '+' ∧ unsigned cs ≠ unsigned (unsigned cs) then none
  else (decimal? cs).map .float

def nulls : List String := ["null", "Null", "NULL", "~"]

def boolean? (text : String) : Option Bool :=
  if text ∈ ["true", "True", "TRUE"] then some true
  else if text ∈ ["false", "False", "FALSE"] then some false
  else none

/-- What an untagged plain scalar means. An integer that 64 bits cannot hold is an error. -/
def plainValue? (text : String) : Option Json :=
  let cs := text.toList
  if text = "" ∨ text ∈ nulls then some .null
  else match boolean? text, integer? cs with
    | some b, _ => some (.bool b)
    | none, some i => if fitsWord i then some (.int i) else none
    | none, none =>
      if isZeroPadded cs then some (.string text) else some ((floating? text).getD (.string text))

def knownTag (name : String) : Option String := some ("tag:yaml.org,2002:" ++ name)

def isForeign (tag : Option String) : Bool := tag.any fun t => t.startsWith "!"

/-- What a scalar means. A known tag must fit the text, and foreign tags are errors. -/
def scalarValue? (tag : Option String) (text : String) (plain : Bool) : Option Json :=
  if isForeign tag then none
  else if tag = knownTag "bool" then (boolean? text).map .bool
  else if tag = knownTag "int" then ((integer? text.toList).filter fitsWord).map .int
  else if tag = knownTag "float" then floating? text
  else if tag = knownTag "null" then if text ∈ nulls then some .null else none
  else if tag.isNone && plain then plainValue? text
  else some (.string text)

namespace Tree

/-- The name that a key stands for; collections stand for none. -/
def keyText? : Tree → Option String
  | scalar _ text _ => some text
  | _ => none

mutual
def toJson? : Tree → Option Json
  | scalar tag text plain => scalarValue? tag text plain
  | sequence tag items => if isForeign tag then none else (itemsToJson? items).map .list
  | mapping tag entries => if isForeign tag then none else (entriesToJson? entries).map .object

def itemsToJson? : List Tree → Option (List Json)
  | [] => some []
  | t :: ts => do return (← t.toJson?) :: (← itemsToJson? ts)

def entriesToJson? : List (Tree × Tree) → Option (List (String × Json))
  | [] => some []
  | (k, v) :: r => do return (← k.keyText?, ← v.toJson?) :: (← entriesToJson? r)
end

end Tree
end JobLaunch.Yaml
