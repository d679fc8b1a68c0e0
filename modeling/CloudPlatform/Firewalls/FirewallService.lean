import CloudPlatform.Core.Python
import CloudPlatform.Core.Tables
import CloudPlatform.Transition.Program
import Mathlib.Logic.Function.Basic

/-!
# Firewall rulebooks

A user's rulebook is a row; `ensure_remote_firewall` materialises it as a firewall in the provider
project that all users share. The row is looked up by its owner, the remote firewall by its name, on
the first page of the project's listing. Each repository and provider call is one step.
-/

namespace CloudPlatform.Firewalls

open Rows
open Transition (Delivery Program deliver)

/-! ### The domain -/

inductive Direction
  | in
  | out
  deriving DecidableEq

inductive RuleProtocol
  | tcp
  | udp
  | icmp
  | gre
  | esp
  deriving DecidableEq

/-- One validated allow-rule; the direction says whether the CIDRs are sources or destinations. -/
structure FirewallRule where
  direction : Direction
  protocol : RuleProtocol
  port : Option String := none
  cidrs : List String := []

def maxRulesPerFirewall : ℕ := 50

def maxNameLength : ℕ := 64

/-- A rulebook before it has a row. -/
structure NewFirewall where
  userId : Uuid
  name : String
  rules : List FirewallRule
  providerFirewallId : Option String := none

/-- One user-owned reusable rulebook. -/
structure Firewall extends NewFirewall where
  id : Uuid

/-- `Firewall.__post_init__`: the rulebook with its name stripped. -/
def NewFirewall.checked (firewall : NewFirewall) : Result NewFirewall := do
  let name := strip firewall.name
  rejectIf (name = "") .valueError "firewall name must not be empty"
  rejectIf (maxNameLength < name.length) .valueError
    s!"firewall name longer than {maxNameLength} characters"
  rejectIf (maxRulesPerFirewall < firewall.rules.length) .firewallLimit
    s!"at most {maxRulesPerFirewall} rules per firewall"
  return { firewall with name := name }

/-! ### The repository -/

abbrev FirewallRows := Table fun firewall : Firewall ↦ firewall.id

/-- The unique constraint of a user's names meets a row other than the one with this id. -/
def nameTaken (rows : FirewallRows) (id : Uuid) (firewall : NewFirewall) : Bool :=
  rows.rows.any fun row ↦
    row.id ≠ id && row.userId = firewall.userId && row.name = firewall.name

/-- `add`. -/
def insertFirewall (rows : FirewallRows) (firewall : NewFirewall) (id : Uuid) :
    Result (FirewallRows × Firewall) :=
  if nameTaken rows id firewall then
    raise .duplicateFirewall "a firewall with this name already exists"
  else .ok (rows.put ⟨firewall, id⟩, ⟨firewall, id⟩)

/-- `save` merges: a row that is gone by now is inserted again. -/
def saveFirewall (rows : FirewallRows) (firewall : Firewall) : Result (FirewallRows × Firewall) :=
  if nameTaken rows firewall.id firewall.toNewFirewall then
    raise .integrityError "duplicate key value violates unique constraint"
  else .ok (rows.put firewall, firewall)

/-- `delete`. -/
def deleteFirewall (rows : FirewallRows) (id : Uuid) : FirewallRows where
  rows := rows.rows.filter (·.id ≠ id)
  unique := (List.filter_sublist.map _).nodup rows.unique

/-! ### The provider project -/

/-- A rule in the provider's shape. -/
structure HetznerRule where
  direction : Direction
  protocol : RuleProtocol
  port : Option String
  sourceIps : Option (List String)
  destinationIps : Option (List String)
  deriving DecidableEq

/-- `_rule_to_hetzner`. -/
def ruleToHetzner (rule : FirewallRule) : HetznerRule where
  direction := rule.direction
  protocol := rule.protocol
  port := if truthy rule.port then rule.port else none
  sourceIps := if rule.direction = .in then some rule.cidrs else none
  destinationIps := if rule.direction = .in then none else some rule.cidrs

/-- The rules of a rulebook as they are sent. -/
def NewFirewall.remoteRules (firewall : NewFirewall) : List HetznerRule :=
  firewall.rules.map ruleToHetzner

/-- The rulebook that a remote firewall was last written for, and its owner. -/
structure Carried where
  rulebook : Uuid
  userId : Uuid

/-- A firewall at the provider; one that no rulebook was written to carries none. -/
structure RemoteFirewall where
  id : String
  name : String
  rules : List HetznerRule := []
  carries : Option Carried := none

/-- The firewalls of a project, in the order in which it lists them. -/
abbrev Project := Table fun remote : RemoteFirewall ↦ remote.id

/-! ### The calls -/

/-- The calls of the service. The last two are made for a rulebook as it was loaded. -/
inductive FirewallCall
  | listForUser (userId : Uuid)
  | get (id : Uuid)
  | add (firewall : NewFirewall)
  | save (firewall : Firewall)
  | delete (id : Uuid)
  | listFirewalls
  | createFirewall (firewall : Firewall)
  | updateFirewallRules (remoteId : String) (firewall : Firewall)

/-- What a call returns. -/
abbrev FirewallCall.Out : FirewallCall → Type
  | listForUser _ => List Firewall
  | get _ => Option Firewall
  | add _ => Firewall
  | save _ => Firewall
  | listFirewalls => List (String × String)
  | createFirewall _ => String
  | _ => Unit

/-- What the surroundings make of a call: how it ends, the id of a new row, the id of a new firewall
at the provider, and whether the provider accepts it. -/
structure FirewallChance where
  delivery : Delivery := .done
  rowId : Uuid
  remoteId : String := ""
  accepted : Bool := true

/-- A rulebook that a thread has just materialised, and where. -/
structure Materialised where
  thread : ℕ
  firewall : Firewall
  remoteId : String

/-- The rows and the project. `names` are the names under which ids were drawn, `edits` counts the
saves and deletes of a rulebook, `loaded` is that count when a thread read the rulebook, and
`latest` what the last call has materialised. -/
structure FirewallWorld where
  firewalls : FirewallRows := ⟨[], List.nodup_nil⟩
  project : Project
  names : Uuid → Option String := fun _ ↦ none
  edits : Uuid → ℕ := fun _ ↦ 0
  loaded : ℕ → Option ℕ := fun _ ↦ none
  latest : Option Materialised := none

namespace FirewallWorld

/-- The world after `get`. -/
def read (me : ℕ) (world : FirewallWorld) (id : Uuid) : FirewallWorld :=
  { world with loaded := Function.update world.loaded me (some (world.edits id)) }

/-- The world after `add`; an id is drawn once. -/
def add (world : FirewallWorld) (firewall : NewFirewall) (id : Uuid) :
    Result Firewall × FirewallWorld :=
  if (world.names id).isSome then
    (raise .duplicateFirewall "a firewall with this name already exists", world)
  else
    match insertFirewall world.firewalls firewall id with
    | .error raised => (.error raised, world)
    | .ok (rows, row) => (.ok row, { world with
        firewalls := rows
        names := Function.update world.names id (some firewall.name) })

/-- The world after `save`. -/
def save (world : FirewallWorld) (firewall : Firewall) : Result Firewall × FirewallWorld :=
  match saveFirewall world.firewalls firewall with
  | .error raised => (.error raised, world)
  | .ok (rows, row) => (.ok row, { world with
      firewalls := rows
      edits := Function.update world.edits firewall.id (world.edits firewall.id + 1) })

/-- The world after `delete`. -/
def delete (world : FirewallWorld) (id : Uuid) : FirewallWorld :=
  { world with
    firewalls := deleteFirewall world.firewalls id
    edits := Function.update world.edits id (world.edits id + 1) }

/-- The remote firewall that carries the rulebook. -/
def carrying (firewall : Firewall) (id name : String) : RemoteFirewall where
  id := id
  name := name
  rules := firewall.remoteRules
  carries := some ⟨firewall.id, firewall.userId⟩

/-- The provider makes a firewall with the rulebook's name and rules, under an id that is free. -/
def createRemote (me : ℕ) (world : FirewallWorld) (firewall : Firewall) (chance : FirewallChance) :
    Result String × FirewallWorld :=
  if chance.accepted && (world.project.get chance.remoteId).isNone then
    (.ok chance.remoteId, { world with
      project := world.project.put (carrying firewall chance.remoteId firewall.name)
      latest := some ⟨me, firewall, chance.remoteId⟩ })
  else (raise .providerRejected "firewall not created", world)

/-- A remote firewall after the rules of the one with this id are replaced by the rulebook's. -/
def rewritten (remoteId : String) (firewall : Firewall) (remote : RemoteFirewall) :
    RemoteFirewall :=
  if remote.id = remoteId then carrying firewall remote.id remote.name else remote

@[simp] theorem id_rewritten (remoteId : String) (firewall : Firewall) (remote : RemoteFirewall) :
    (rewritten remoteId firewall remote).id = remote.id := by
  unfold rewritten
  by_cases h : remote.id = remoteId
  · rw [if_pos h, carrying]
  · rw [if_neg h]

@[simp] theorem name_rewritten (remoteId : String) (firewall : Firewall) (remote : RemoteFirewall) :
    (rewritten remoteId firewall remote).name = remote.name := by
  unfold rewritten
  by_cases h : remote.id = remoteId
  · rw [if_pos h, carrying]
  · rw [if_neg h]

/-- The provider replaces the rules of a firewall. -/
def updateRemote (me : ℕ) (world : FirewallWorld) (remoteId : String) (firewall : Firewall) :
    Result Unit × FirewallWorld :=
  if (world.project.get remoteId).isSome then
    (.ok (), { world with
      project := world.project.update (rewritten remoteId firewall) (id_rewritten remoteId firewall)
      latest := some ⟨me, firewall, remoteId⟩ })
  else (raise .providerNotFound "firewall not found", world)

/-- The first page of the listing, which is all that `list_firewalls` asks for. -/
def page (pageSize : ℕ) (world : FirewallWorld) : List (String × String) :=
  (world.project.rows.take pageSize).map fun remote ↦ (remote.id, remote.name)

/-- A call that takes effect. -/
def perform (pageSize me : ℕ) (chance : FirewallChance) (world : FirewallWorld) :
    (request : FirewallCall) → Result request.Out × FirewallWorld
  | .listForUser userId => (.ok (world.firewalls.rows.filter (·.userId = userId)), world)
  | .get id => (.ok (world.firewalls.get id), world.read me id)
  | .add firewall => world.add firewall chance.rowId
  | .save firewall => world.save firewall
  | .delete id => (.ok (), world.delete id)
  | .listFirewalls => (.ok (world.page pageSize), world)
  | .createFirewall firewall => world.createRemote me firewall chance
  | .updateFirewallRules remoteId firewall => world.updateRemote me remoteId firewall

/-- The world once another call is made. -/
def tick (world : FirewallWorld) : FirewallWorld :=
  { world with latest := none }

/-- One call. -/
def handle (pageSize me : ℕ) (request : FirewallCall) (chance : FirewallChance)
    (world : FirewallWorld) : Result request.Out × FirewallWorld :=
  deliver ⟨.providerUnavailable, "no answer"⟩ world.tick
    (perform pageSize me chance world.tick request) chance.delivery

end FirewallWorld

/-! ### The service -/

abbrev FirewallProgram := Program Raised FirewallCall FirewallCall.Out

/-- One call. -/
abbrev perform (request : FirewallCall) : FirewallProgram request.Out :=
  Program.perform request

/-- The id of the remote firewall of a name, on a page of the listing. -/
def remoteNamed (page : List (String × String)) (name : String) : Option String :=
  (page.find? (·.2 = name)).map (·.1)

/-- `ensure_remote_firewall`. -/
def ensureRemoteFirewall (firewall : Firewall) : FirewallProgram String := do
  let page ← perform .listFirewalls
  match remoteNamed page firewall.name with
  | some remoteId => do
    perform (.updateFirewallRules remoteId firewall)
    return remoteId
  | none => perform (.createFirewall firewall)

namespace FirewallService

/-- `create`; `limit` is the quota of the service. -/
def create (limit : ℕ) (actorUserId ownerUserId : Uuid) (name : String)
    (rules : List FirewallRule) : FirewallProgram Firewall := do
  rejectIf (actorUserId ≠ ownerUserId) .firewallNotFound "manage your own firewalls"
  let firewall ← NewFirewall.checked { userId := ownerUserId, name := name, rules := rules }
  let existing ← perform (.listForUser ownerUserId)
  rejectIf (limit ≤ existing.length) .firewallLimit s!"at most {limit} firewalls per user"
  rejectIf (existing.any (·.name = firewall.name)) .duplicateFirewall
    s!"name '{firewall.name}' already registered"
  perform (.add firewall)

/-- The rulebook that was found, if the actor owns it. -/
def owned (actorUserId firewallId : Uuid) : Option Firewall → Result Firewall
  | none => raise .firewallNotFound s!"firewall {firewallId.text} not found"
  | some firewall =>
    if firewall.userId ≠ actorUserId then
      raise .firewallNotFound s!"firewall {firewallId.text} not found"
    else .ok firewall

/-- `replace_rules`. -/
def replaceRules (actorUserId firewallId : Uuid) (rules : List FirewallRule) :
    FirewallProgram Firewall := do
  let firewall ← owned actorUserId firewallId (← perform (.get firewallId))
  let updated ← NewFirewall.checked { firewall.toNewFirewall with rules := rules }
  perform (.save ⟨updated, firewall.id⟩)

/-- `delete`. -/
def delete (actorUserId firewallId : Uuid) : FirewallProgram Unit := do
  let firewall ← owned actorUserId firewallId (← perform (.get firewallId))
  perform (.delete firewall.id)

end FirewallService

/-! ### The entry points -/

/-- A call of the service, or the materialisation of a rulebook that is loaded for it. -/
inductive FirewallEntry
  | create (actorUserId ownerUserId : Uuid) (name : String) (rules : List FirewallRule)
  | replaceRules (actorUserId firewallId : Uuid) (rules : List FirewallRule)
  | delete (actorUserId firewallId : Uuid)
  | ensure (firewallId : Uuid)

/-- The rulebook that was loaded is materialised. -/
def ensureLoaded : Option Firewall → FirewallProgram Unit
  | none => return ()
  | some firewall => do let _ ← ensureRemoteFirewall firewall

/-- Its program; what it returns is for its caller. -/
def FirewallEntry.program (limit : ℕ) : FirewallEntry → FirewallProgram Unit
  | create actorUserId ownerUserId name rules => do
    let _ ← FirewallService.create limit actorUserId ownerUserId name rules
  | replaceRules actorUserId firewallId rules => do
    let _ ← FirewallService.replaceRules actorUserId firewallId rules
  | delete actorUserId firewallId => FirewallService.delete actorUserId firewallId
  | ensure firewallId => do ensureLoaded (← perform (.get firewallId))

end CloudPlatform.Firewalls
