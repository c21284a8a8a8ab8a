import JobLaunch.Json.Basic
import JobLaunch.Decimal.Shortest
import JobLaunch.Text.Digit
/-!
JSON text of a tree: compact on one line, or indented by two blanks a level. Fields keep their
order.
-/
namespace JobLaunch.Json

/-- Floats are positional for exponents from -5 to 15. -/
def floatFormat : Decimal.Format := ⟨-5, 15⟩

/-- Text of one character inside quotes. Only quotes, backslashes and control characters below the
blank are escaped. -/
def escapeChar (c : Char) : String :=
  if c = '"' then "\\\""
  else if c = '\\' then "\\\\"
  else if c = '\n' then "\\n"
  else if c = '\r' then "\\r"
  else if c = '\t' then "\\t"
  else if c.toNat = 8 then "\\b"
  else if c.toNat = 12 then "\\f"
  else if c.toNat < 32 then
    "\\u00" ++ String.ofList [Text.hexDigit (c.toNat / 16), Text.hexDigit (c.toNat % 16)]
  else String.singleton c

def quote (s : String) : String := "\"" ++ String.join (s.toList.map escapeChar) ++ "\""

/-- Text of a tree that is neither a list nor an object. -/
def writeLeaf : Json → String
  | bool b => if b then "true" else "false"
  | int i => toString i
  | float d => floatFormat.write d
  | string s => quote s
  | _ => "null"

mutual
def compact : Json → String
  | list items => "[" ++ ",".intercalate (compactItems items) ++ "]"
  | object fields => "\x7b" ++ ",".intercalate (compactFields fields) ++ "\x7d"
  | null => writeLeaf null
  | bool b => writeLeaf (bool b)
  | int i => writeLeaf (int i)
  | float d => writeLeaf (float d)
  | string s => writeLeaf (string s)

def compactItems : List Json → List String
  | [] => []
  | item :: items => compact item :: compactItems items

def compactFields : List (String × Json) → List String
  | [] => []
  | (name, value) :: fields => (quote name ++ ":" ++ compact value) :: compactFields fields
end

/-- Brackets around entries on lines of their own; nothing between the brackets of an empty one. -/
def block (opening closing indent : String) (entries : List String) : String :=
  if entries.isEmpty then opening ++ closing
  else opening ++ ",".intercalate (entries.map fun e => "\n  " ++ indent ++ e) ++ "\n" ++ indent
    ++ closing

mutual
/-- Indented text, for a value whose line starts at `indent`. -/
def indented (indent : String) : Json → String
  | list items => block "[" "]" indent (indentedItems (indent ++ "  ") items)
  | object fields => block "\x7b" "\x7d" indent (indentedFields (indent ++ "  ") fields)
  | null => writeLeaf null
  | bool b => writeLeaf (bool b)
  | int i => writeLeaf (int i)
  | float d => writeLeaf (float d)
  | string s => writeLeaf (string s)

def indentedItems (indent : String) : List Json → List String
  | [] => []
  | item :: items => indented indent item :: indentedItems indent items

def indentedFields (indent : String) : List (String × Json) → List String
  | [] => []
  | (name, value) :: fields =>
    (quote name ++ ": " ++ indented indent value) :: indentedFields indent fields
end

def pretty (j : Json) : String := indented "" j

end JobLaunch.Json
