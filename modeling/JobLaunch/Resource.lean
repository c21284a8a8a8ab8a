import JobLaunch.Record
/-!
What templates and jobs refer to: organizations, inventories with their hosts, projects and
credentials, as they were when the launch read them.
-/
namespace JobLaunch

/-- Notification templates by the job event that sends them. -/
structure Notifications where
  error : IdSet := ∅
  started : IdSet := ∅
  success : IdSet := ∅
deriving DecidableEq, Repr

namespace Notifications

instance : Inhabited Notifications := ⟨{}⟩

def merge (a b : Notifications) : Notifications :=
  ⟨a.error ∪ b.error, a.started ∪ b.started, a.success ∪ b.success⟩

def isEmpty (n : Notifications) : Bool := n.error.isEmpty && n.started.isEmpty && n.success.isEmpty

instance : Coded Notifications where
  encode n := .object [
    ("error", encode n.error), ("started", encode n.started), ("success", encode n.success)]
  decode? j := do
    let r ← Record.ofJson? 3 j
    return {
      error := ← r.orElse 0 "error" ∅
      started := ← r.orElse 1 "started" ∅
      success := ← r.orElse 2 "success" ∅ }

end Notifications

structure Organization where
  id : Id
  name : String
  instanceGroups : List Id
  notifications : Notifications
deriving DecidableEq, Repr, Inhabited

instance : Coded Organization where
  encode o := .object [
    ("id", encode o.id), ("name", encode o.name), ("instance_groups", encode o.instanceGroups),
    ("notifications", encode o.notifications)]
  decode? j := do
    let r ← Record.ofJson? 4 j
    return {
      id := ← r.required 0 "id"
      name := ← r.required 1 "name"
      instanceGroups := ← r.orElse 2 "instance_groups" []
      notifications := ← r.orElse 3 "notifications" {} }

/-- An inventory. Its hosts are counted when it is read; instance groups are in order of
preference. -/
structure Inventory where
  id : Id
  name : String
  hostCount : UInt64
  organizationId : Option Id
  instanceGroups : List Id
  preventFallback : Bool
deriving DecidableEq, Repr, Inhabited

instance : Coded Inventory where
  encode i := .object [
    ("id", encode i.id), ("name", encode i.name), ("host_count", encode i.hostCount),
    ("organization_id", encode i.organizationId), ("instance_groups", encode i.instanceGroups),
    ("prevent_instance_group_fallback", encode i.preventFallback)]
  decode? j := do
    let r ← Record.ofJson? 6 j
    return {
      id := ← r.required 0 "id"
      name := ← r.required 1 "name"
      hostCount := ← r.required 2 "host_count"
      organizationId := ← r.optional 3 "organization_id"
      instanceGroups := ← r.orElse 4 "instance_groups" []
      preventFallback := ← r.orElse 5 "prevent_instance_group_fallback" false }

/-- A host of an inventory with the facts last collected from it. -/
structure Host where
  name : String
  inventoryId : Id
  facts : Vars
  factsModified : Option Timestamp
deriving DecidableEq, Repr, Inhabited

instance : Coded Host where
  encode h := .object [
    ("name", encode h.name), ("inventory_id", encode h.inventoryId), ("facts", encode h.facts),
    ("facts_modified", encode h.factsModified)]
  decode? j := do
    let r ← Record.ofJson? 4 j
    return {
      name := ← r.required 0 "name"
      inventoryId := ← r.required 1 "inventory_id"
      facts := ← r.orElse 2 "facts" ∅
      factsModified := ← r.optional 3 "facts_modified" }

/-- New facts of a host; empty facts clear the old ones. -/
structure FactUpdate where
  hostName : String
  facts : Vars
  modifiedAt : Timestamp
deriving DecidableEq, Repr, Inhabited

instance : Coded FactUpdate where
  encode u := .object [
    ("host_name", encode u.hostName), ("facts", encode u.facts),
    ("modified_at", encode u.modifiedAt)]
  decode? j := do
    let r ← Record.ofJson? 3 j
    return {
      hostName := ← r.required 0 "host_name"
      facts := ← r.required 1 "facts"
      modifiedAt := ← r.required 2 "modified_at" }

/-- A project: the branch it runs by default, and whether jobs may run another. -/
structure Project where
  id : Id
  name : String
  scmBranch : String
  scmRevision : String
  allowOverride : Bool
  organizationId : Option Id
  notifications : Notifications
deriving DecidableEq, Repr, Inhabited

instance : Coded Project where
  encode p := .object [
    ("id", encode p.id), ("name", encode p.name), ("scm_branch", encode p.scmBranch),
    ("scm_revision", encode p.scmRevision), ("allow_override", encode p.allowOverride),
    ("organization_id", encode p.organizationId), ("notifications", encode p.notifications)]
  decode? j := do
    let r ← Record.ofJson? 7 j
    return {
      id := ← r.required 0 "id"
      name := ← r.required 1 "name"
      scmBranch := ← r.orElse 2 "scm_branch" ""
      scmRevision := ← r.orElse 3 "scm_revision" ""
      allowOverride := ← r.orElse 4 "allow_override" false
      organizationId := ← r.optional 5 "organization_id"
      notifications := ← r.orElse 6 "notifications" {} }

inductive CredentialKind where
  | ssh | net | cloud | vault | scm | insights | kubernetes
deriving DecidableEq, Repr, Inhabited

instance : Words CredentialKind where
  all := [.ssh, .net, .cloud, .vault, .scm, .insights, .kubernetes]
  word
    | .ssh => "ssh"
    | .net => "net"
    | .cloud => "cloud"
    | .vault => "vault"
    | .scm => "scm"
    | .insights => "insights"
    | .kubernetes => "kubernetes"

/-- A credential, and the passwords that must be supplied when a job uses it. -/
structure Credential where
  id : Id
  name : String
  kind : CredentialKind
  passwordsNeeded : List String
deriving DecidableEq, Repr, Inhabited

instance : Coded Credential where
  encode c := .object [
    ("id", encode c.id), ("name", encode c.name), ("kind", encode c.kind),
    ("passwords_needed", encode c.passwordsNeeded)]
  decode? j := do
    let r ← Record.ofJson? 4 j
    return {
      id := ← r.required 0 "id"
      name := ← r.required 1 "name"
      kind := ← r.required 2 "kind"
      passwordsNeeded := ← r.orElse 3 "passwords_needed" [] }

end JobLaunch
