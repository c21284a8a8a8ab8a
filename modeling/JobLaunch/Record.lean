import JobLaunch.Value
import JobLaunch.Id
import JobLaunch.Timestamp
/-!
Reading and writing records as JSON. A record is written as an object with its fields in declared
order. It is read from an object, whose unknown fields are ignored and whose known fields must not
repeat, or from a list of its fields in declared order.
-/
namespace JobLaunch

/-- A type with a JSON form. -/
class Coded (α : Type) where
  encode : α → Json
  decode? : Json → Option α

export Coded (encode decode?)

instance : Coded Bool where
  encode := .bool
  decode? | .bool b => some b | _ => none

instance : Coded String where
  encode := .string
  decode? | .string s => some s | _ => none

def integerWithin? (least greatest : Int) : Json → Option Int
  | .int i => if least ≤ i ∧ i ≤ greatest then some i else none
  | _ => none

instance : Coded UInt8 where
  encode n := .int n.toNat
  decode? j := (integerWithin? 0 0xFF j).map fun i => UInt8.ofNat i.toNat

instance : Coded UInt32 where
  encode n := .int n.toNat
  decode? j := (integerWithin? 0 0xFFFFFFFF j).map fun i => UInt32.ofNat i.toNat

instance : Coded UInt64 where
  encode n := .int n.toNat
  decode? j := (integerWithin? 0 0xFFFFFFFFFFFFFFFF j).map fun i => UInt64.ofNat i.toNat

instance : Coded Int64 where
  encode n := .int n.toInt
  decode? j := (integerWithin? (-0x8000000000000000) 0x7FFFFFFFFFFFFFFF j).map Int64.ofInt

instance : Coded Id where
  encode id := .string id.toText
  decode? | .string s => Id.ofText? s | _ => none

instance : Coded Timestamp where
  encode t := .string t.toText
  decode? | .string s => Timestamp.ofText? s | _ => none

instance : Coded Value where
  encode := Value.json
  decode? j := some (Value.ofJson j)

instance : Coded Vars where
  encode := Vars.toJson
  decode? | .object fields => some (Vars.ofFields fields) | _ => none

variable {α : Type} [Coded α]

instance : Coded (Option α) where
  encode | some a => encode a | none => .null
  decode? | .null => some none | j => (decode? j).map some

instance : Coded (List α) where
  encode items := .list (items.map encode)
  decode? | .list items => items.mapM decode? | _ => none

instance : Coded (Table String) where
  encode t := .object (t.toList.map fun (entry : String × String) => (entry.1, .string entry.2))
  decode?
    | .object fields =>
      (fields.mapM fun (field : String × Json) =>
        (decode? field.2).map fun s => (field.1, s)).map Table.ofEntries
    | _ => none

instance : Coded IdSet where
  encode ids := encode ids.toList
  decode? j := (decode? j : Option (List Id)).map fun ids => Std.ExtTreeSet.ofList ids

/-- A type whose values are words. -/
class Words (α : Type) where
  all : List α
  word : α → String

export Words (word)

def ofWord? {α : Type} [Words α] (s : String) : Option α := Words.all.find? fun a => word a == s

/-- A word is a string, or an object whose only field has the word as name and null as value. -/
def decodeWord? {α : Type} [Words α] : Json → Option α
  | .string s => ofWord? s
  | .object [(s, .null)] => ofWord? s
  | _ => none

instance {α : Type} [Words α] : Coded α where
  encode a := .string (word a)
  decode? := decodeWord?

inductive Record where
  | named (fields : List (String × Json))
  | listed (items : List Json)

namespace Record

/-- A record of `width` fields from an object or a list. -/
def ofJson? (width : Nat) : Json → Option Record
  | .object fields => some (named fields)
  | .list items => if items.length ≤ width then some (listed items) else none
  | _ => none

def ofObject? : Json → Option Record
  | .object fields => some (named fields)
  | _ => none

/-- The field with a name and a place in the list: absent, present, or repeated (none). -/
def field? (r : Record) (place : Nat) (name : String) : Option (Option Json) :=
  match r with
  | named fields =>
    match fields.filter fun f => f.1 == name with
    | [] => some none
    | [f] => some (some f.2)
    | _ => none
  | listed items => some items[place]?

def orElse (r : Record) (place : Nat) (name : String) (default : α) : Option α :=
  (r.field? place name).bind fun
    | some j => decode? j
    | none => some default

def required (r : Record) (place : Nat) (name : String) : Option α :=
  (r.field? place name).bind fun
    | some j => decode? j
    | none => none

/-- A field that is null or left out when it has no value; a list must hold it. -/
def nullable (r : Record) (place : Nat) (name : String) : Option (Option α) :=
  match r with
  | named _ => r.orElse place name none
  | listed _ => r.required place name

/-- A field that is null or left out when it has no value. -/
def optional (r : Record) (place : Nat) (name : String) : Option (Option α) :=
  r.orElse place name none

end Record

/-- Splits off the tag of a tagged record: its field of that name, or the head of its list. -/
def untag? (tag : String) : Json → Option (String × Json)
  | .object fields =>
    match fields.filter fun f => f.1 == tag with
    | [(_, .string s)] => some (s, .object (fields.filter fun f => f.1 != tag))
    | _ => none
  | .list (.string s :: items) => some (s, .list items)
  | _ => none

def withTag (tag s : String) : Json → Json
  | .object fields => .object ((tag, .string s) :: fields)
  | j => j

def whenPresent (name : String) : Option α → List (String × Json)
  | some a => [(name, encode a)]
  | none => []

end JobLaunch
