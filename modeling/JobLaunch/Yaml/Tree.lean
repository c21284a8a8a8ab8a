import JobLaunch.Yaml.Node
/-!
YAML trees: documents in which every alias has been replaced by what it names. Replacing is limited,
so that a short text cannot stand for a huge tree, and so is nesting.
-/
namespace JobLaunch.Yaml

/-- Documents without aliases. -/
inductive Tree where
  | scalar (tag : Option String) (text : String) (plain : Bool)
  | sequence (tag : Option String) (items : List Tree)
  | mapping (tag : Option String) (entries : List (Tree × Tree))

namespace Tree

def nestingLimit : Nat := 127

/-- How many aliases may be replaced for each event of the document. -/
def aliasesPerEvent : Nat := 100

/-- What an alias stands for. The state is how many more may be replaced. -/
def follow (anchors : List (Nat × Node)) : Node → StateT Nat Option Node
  | .reference a => do
    let left + 1 ← get | failure
    set left
    match anchors.lookup a with
    | some n => return n
    | none => failure
  | n => return n

def ofNode (anchors : List (Nat × Node)) (depth : Nat) (n : Node) : StateT Nat Option Tree := do
  match depth, ← follow anchors n with
  | _, .reference _ => failure
  | _, .scalar p text plain => return scalar p.tag text plain
  | 0, _ => failure
  | depth + 1, .sequence p items => return sequence p.tag (← items.mapM (ofNode anchors depth))
  | depth + 1, .mapping p entries =>
    return mapping p.tag (← entries.mapM fun (k, v) => do
      return (← ofNode anchors depth k, ← ofNode anchors depth v))

/-- The document of a text; a text without one is a null. -/
def ofText? (text : String) : Option Tree := do
  match ← Node.ofText? text with
  | none => return scalar none "" true
  | some root =>
    let build := ofNode (root.anchored []) nestingLimit root
    return (← build.run (root.events * aliasesPerEvent)).1

end Tree
end JobLaunch.Yaml
