import JobLaunch.Template
/-!
The prompt policy: which fields each kind of template lets a launch override, and how a requested
value is compared with the template's own.
-/
namespace JobLaunch

/-- How a requested value is compared with the template's own: by equality, in order, or by what is
requested beyond it. -/
inductive MergeStrategy where
  | scalar | orderedSet | unorderedSet
deriving DecidableEq, Repr, Inhabited

def PromptField.strategy : PromptField → MergeStrategy
  | .credentials | .labels => .unorderedSet
  | .instanceGroups => .orderedSet
  | _ => .scalar

/-- Fields that a kind of template lets launches override, in the order in which they are
decided. -/
def TemplateKind.fields : TemplateKind → List PromptField
  | .job => PromptField.all
  | .system => [.extraVars]

def systemVariables : List String := ["days", "older_than", "granularity"]

end JobLaunch
