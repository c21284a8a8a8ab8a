import JobLaunch.Yaml.Schema
/-!
Forms: what the places of a document hold. Where the form of a place is known, a scalar is read by
it and not by the core schema: an id may be all digits, and a text may look like a flag.
-/
namespace JobLaunch.Yaml

/-- How the tree at some place is read as JSON. -/
abbrev Form := Tree → Option Json

namespace Form

def value : Form := Tree.toJson?

/-- The name that a key is by the core schema; others than texts are none. -/
def textKey? : Tree → Option String
  | .scalar tag text plain =>
    match scalarValue? tag text plain with
    | some (.string s) => some s
    | _ => none
  | _ => none

mutual
def textNamed : Tree → Option Json
  | .scalar tag text plain => scalarValue? tag text plain
  | .sequence tag items => if isForeign tag then none else (textNamedItems items).map .list
  | .mapping tag entries => if isForeign tag then none else (textNamedEntries entries).map .object

def textNamedItems : List Tree → Option (List Json)
  | [] => some []
  | t :: ts => do return (← textNamed t) :: (← textNamedItems ts)

def textNamedEntries : List (Tree × Tree) → Option (List (String × Json))
  | [] => some []
  | (k, v) :: r => do return (← textKey? k, ← textNamed v) :: (← textNamedEntries r)
end

/-- A text: whatever a scalar says. -/
def text : Form
  | .scalar _ text _ => some (.string text)
  | _ => none

/-- One of the words of some type. It can also stand as the tag of a null. -/
def choice : Form
  | .scalar tag text _ =>
    match tag.filter fun t => t.startsWith "!" with
    | none => some (.string text)
    | some tag => if text ∈ "" :: nulls then some (.string (tag.drop 1).toString) else none
  | _ => none

/-- A flag; it is not quoted. -/
def flag : Form
  | .scalar _ text true => (boolean? text).map .bool
  | _ => none

/-- A number; it is not quoted. -/
def number : Form
  | .scalar _ text true => ((integer? text.toList).filter fitsWord).map .int
  | _ => none

def count : Form
  | .scalar tag text plain =>
    if text.startsWith "-" then none else number (.scalar tag text plain)
  | _ => none

def optional (form : Form) : Form
  | .scalar tag text true =>
    if tag = knownTag "null" then if text ∈ nulls then some .null else none
    else if tag.isNone ∧ text ∈ "" :: nulls then some .null
    else form (.scalar tag text true)
  | t => form t

/-- Whether a scalar is blank, which stands for an empty collection. -/
def isBlank (text : String) (plain : Bool) : Bool := plain && text == ""

def listOf (form : Form) : Form
  | .sequence _ items => (items.mapM form).map .list
  | .scalar _ text plain => if isBlank text plain then some (.list []) else none
  | _ => none

def tableOf (form : Form) : Form
  | .mapping _ entries =>
    (entries.mapM fun ((k, v) : Tree × Tree) => do return (← k.keyText?, ← form v)).map .object
  | .scalar _ text plain => if isBlank text plain then some (.object []) else none
  | _ => none

/-- The fields of a record that have a form, and the others in a form of their own or not at all. -/
def record (fields : List (String × Form)) (others : Option Form) : Form
  | .mapping _ entries => do
    let read ← entries.mapM fun ((k, v) : Tree × Tree) => do
      let name ← k.keyText?
      match (fields.lookup name).or others with
      | some form => return [(name, ← form v)]
      | none => return []
    return .object read.flatten
  | .scalar _ text plain => if isBlank text plain then some (.object []) else none
  | _ => none

/-- A record that describes itself: its fields are told from others when it has been read. -/
def selfDescribing : Form
  | .mapping tag entries =>
    if isForeign tag then none else record [] (some textNamed) (.mapping tag entries)
  | t => textNamed t

end Form
end JobLaunch.Yaml
