import CloudPlatform.Core.Python
import CloudPlatform.Core.Tables
import CloudPlatform.Transition.Program
import Mathlib.Logic.Function.Basic

/-!
# Volumes

A volume is a disk at the provider and a row that owns it. The service makes one provider or
repository call after another; the reconciler compares one listing of a provider account with the
rows that it reads afterwards. Each call is one step, between any two of which the others go on, and
the volumes of an account are also changed from outside.
-/

namespace CloudPlatform.Networking

open Rows
open Transition (Delivery Program deliver)

/-! ### The rows -/

def minSizeGb : ℤ := 10

def maxSizeGb : ℤ := 10240

/-- A volume before it has a row. -/
structure NewVolume where
  userId : Uuid
  providerAccountId : Uuid
  providerKey : String
  providerVolumeId : String
  name : String
  sizeGb : ℤ
  locationId : Option String := none
  serverId : Option Uuid := none

/-- One provider volume owned by a platform user. -/
structure Volume extends NewVolume where
  id : Uuid

/-- `Volume.__post_init__`. -/
def NewVolume.checked (volume : NewVolume) : Result NewVolume := do
  rejectIf (volume.sizeGb < minSizeGb || maxSizeGb < volume.sizeGb) .volumeSize
    s!"volume size must be between {minSizeGb} and {maxSizeGb} GB"
  rejectIf (strip volume.providerVolumeId = "") .volumeError "provider_volume_id must not be empty"
  return volume

def Volume.isAttached (volume : Volume) : Bool :=
  volume.serverId.isSome

/-- `replace(volume, server_id=...)`. -/
def Volume.bindTo (volume : Volume) (serverId : Option Uuid) : Volume :=
  { volume with serverId := serverId }

abbrev VolumeRows := Table fun volume : Volume ↦ volume.id

/-- `add`, under the unique constraint of the provider's id. -/
def insertVolume (rows : VolumeRows) (volume : NewVolume) (id : Uuid) :
    Result (VolumeRows × Volume) :=
  if rows.rows.any (fun row ↦ row.providerKey = volume.providerKey &&
      row.providerVolumeId = volume.providerVolumeId) then
    raise .integrityError "duplicate key value violates unique constraint"
  else .ok (rows.put ⟨volume, id⟩, ⟨volume, id⟩)

/-- `save` writes the binding and nothing else. -/
def saveVolume (rows : VolumeRows) (volume : Volume) : Result (VolumeRows × Volume) :=
  match rows.get volume.id with
  | none => raise .assertionError ""
  | some row => .ok (rows.put (row.bindTo volume.serverId), row.bindTo volume.serverId)

/-- `delete`. -/
def deleteVolume (rows : VolumeRows) (id : Uuid) : VolumeRows where
  rows := rows.rows.filter (·.id ≠ id)
  unique := (List.filter_sublist.map _).nodup rows.unique

/-! ### The provider -/

/-- A volume at the provider, and the server it is attached to. -/
structure RemoteVolume where
  id : String
  server : Option String

/-- The volumes of a provider account in the order in which it lists them, and every id that it has
given to one. -/
structure Inventory where
  volumes : List RemoteVolume := []
  issued : List String := []
  given : ∀ volume ∈ volumes, volume.id ∈ issued := by decide

namespace Inventory

/-- The account has the volume. -/
def Has (inventory : Inventory) (id : String) : Prop :=
  ∃ volume ∈ inventory.volumes, volume.id = id

/-- The account has the volume, attached to no server. -/
def HasDetached (inventory : Inventory) (id : String) : Prop :=
  ∃ volume ∈ inventory.volumes, volume.id = id ∧ volume.server = none

instance (inventory : Inventory) (id : String) : Decidable (inventory.Has id) :=
  inferInstanceAs (Decidable (∃ volume ∈ inventory.volumes, volume.id = id))

instance (inventory : Inventory) (id : String) : Decidable (inventory.HasDetached id) :=
  inferInstanceAs (Decidable (∃ volume ∈ inventory.volumes, volume.id = id ∧ volume.server = none))

/-- A new volume; a provider gives no id twice. -/
def create (inventory : Inventory) (volume : RemoteVolume) : Inventory :=
  if volume.id ∈ inventory.issued then inventory
  else {
    volumes := inventory.volumes ++ [volume]
    issued := volume.id :: inventory.issued
    given := by
      intro other hother
      rcases List.mem_append.mp hother with hold | hnew
      · exact List.mem_cons_of_mem _ (inventory.given other hold)
      · rw [List.mem_singleton.mp hnew]
        exact List.mem_cons_self }

/-- The volume with its server changed, if it is the one that is meant. -/
def bindRemote (id : String) (server : Option String) (volume : RemoteVolume) : RemoteVolume :=
  if volume.id = id then { volume with server := server } else volume

@[simp] theorem id_bindRemote (id : String) (server : Option String) (volume : RemoteVolume) :
    (bindRemote id server volume).id = volume.id := by
  unfold bindRemote
  by_cases h : volume.id = id
  · rw [if_pos h]
  · rw [if_neg h]

/-- The volume is attached to the server, or detached. -/
def setServer (inventory : Inventory) (id : String) (server : Option String) : Inventory where
  volumes := inventory.volumes.map (bindRemote id server)
  issued := inventory.issued
  given := by
    intro volume hvolume
    obtain ⟨before, hbefore, rfl⟩ := List.mem_map.mp hvolume
    rw [id_bindRemote]
    exact inventory.given before hbefore

def remove (inventory : Inventory) (id : String) : Inventory where
  volumes := inventory.volumes.filter (·.id ≠ id)
  issued := inventory.issued
  given volume hvolume := inventory.given volume (List.mem_of_mem_filter hvolume)

/-- The first page of the listing, which is all that `list_volumes` asks for. -/
def page (inventory : Inventory) (pageSize : ℕ) : List (String × Option String) :=
  (inventory.volumes.take pageSize).map fun volume ↦ (volume.id, volume.server)

end Inventory

/-- What others change at a provider. -/
inductive VolumeChange
  | create (volume : RemoteVolume)
  | setServer (id : String) (server : Option String)
  | remove (id : String)

def VolumeChange.apply (inventory : Inventory) : VolumeChange → Inventory
  | create volume => inventory.create volume
  | setServer id server => inventory.setServer id server
  | remove id => inventory.remove id

/-! ### The calls -/

/-- Who makes a repository call. -/
inductive VolumeCaller
  | command
  | reconcile

/-- The server row of a lookup. -/
structure ServerRef where
  userId : Uuid
  providerServerId : Option String

/-- The calls of the service, and the changes from outside. A provider call names the account that
its port belongs to. -/
inductive VolumeCall
  | listForUser (userId : Uuid)
  | get (id : Uuid)
  | add (volume : NewVolume)
  | save (caller : VolumeCaller) (volume : Volume)
  | delete (caller : VolumeCaller) (id : Uuid)
  | listAll
  | server (id : Uuid)
  | createVolume (account : Uuid) (name : String) (sizeGb : ℤ) (locationId : String)
  | attachVolume (account : Uuid) (providerVolumeId providerServerId : String)
  | detachVolume (account : Uuid) (providerVolumeId : String)
  | removeVolume (account : Uuid) (providerVolumeId : String)
  | listVolumes (account : Uuid)
  | outside (account : Uuid) (change : VolumeChange)

/-- What a call returns. -/
abbrev VolumeCall.Out : VolumeCall → Type
  | listForUser _ => List Volume
  | get _ => Option Volume
  | add _ => Volume
  | save _ _ => Volume
  | listAll => List Volume
  | server _ => Option ServerRef
  | createVolume .. => String
  | listVolumes _ => List (String × Option String)
  | _ => Unit

/-- What the surroundings make of a call: how it ends, the id of a new row, the id of a new volume
at the provider, and the row of a server. -/
structure VolumeChance where
  delivery : Delivery := .done
  rowId : Uuid
  remoteId : String := ""
  server : Option ServerRef := none

/-- A listing as the reconciler took it: the account, the page, and the moment. -/
structure Listing where
  account : Uuid
  page : List (String × Option String)
  moment : ℕ

/-- The rows and the providers. `drawn` are the ids of all rows so far, `moments` the accounts at
every earlier moment, `boundAt` the moment at which a row was last bound, and `listings` what each
thread has listed. -/
structure VolumeWorld where
  volumes : VolumeRows := ⟨[], List.nodup_nil⟩
  accounts : Uuid → Inventory
  drawn : List Uuid := []
  moments : List (Uuid → Inventory) := []
  boundAt : Uuid → ℕ := fun _ ↦ 0
  listings : ℕ → Option Listing := fun _ ↦ none

namespace VolumeWorld

/-- The accounts with one inventory changed. -/
def setAccount (world : VolumeWorld) (account : Uuid) (inventory : Inventory) : VolumeWorld :=
  { world with accounts := Function.update world.accounts account inventory }

/-- The world after `add`. -/
def add (world : VolumeWorld) (volume : NewVolume) (id : Uuid) : Result Volume × VolumeWorld :=
  if id ∈ world.drawn then
    (raise .integrityError "duplicate key value violates unique constraint", world)
  else
    match insertVolume world.volumes volume id with
    | .error raised => (.error raised, world)
    | .ok (rows, row) => (.ok row, { world with
        volumes := rows
        drawn := id :: world.drawn
        boundAt := Function.update world.boundAt id world.moments.length })

/-- The world after `save`; a row that it binds is bound from this moment on. -/
def save (world : VolumeWorld) (volume : Volume) : Result Volume × VolumeWorld :=
  match saveVolume world.volumes volume with
  | .error raised => (.error raised, world)
  | .ok (rows, row) => (.ok row, { world with
      volumes := rows
      boundAt := if volume.serverId.isSome then
        Function.update world.boundAt volume.id world.moments.length else world.boundAt })

/-- The world after a successful listing. -/
def list (pageSize : ℕ) (me : ℕ) (world : VolumeWorld) (account : Uuid) : VolumeWorld :=
  { world with
    listings := Function.update world.listings me
      (some ⟨account, (world.accounts account).page pageSize, world.moments.length⟩) }

/-- The accounts at every moment so far, the present one included. -/
def history (world : VolumeWorld) : List (Uuid → Inventory) :=
  world.moments ++ [world.accounts]

/-- The present moment passes. -/
def tick (world : VolumeWorld) : VolumeWorld :=
  { world with moments := world.history }

/-- The provider does as it is asked, if it has the volume. -/
def onVolume (world : VolumeWorld) (account : Uuid) (id : String)
    (change : Inventory → Inventory) : Result Unit × VolumeWorld :=
  if (world.accounts account).Has id then
    (.ok (), world.setAccount account (change (world.accounts account)))
  else (raise .providerNotFound "volume not found", world)

/-- The provider makes a volume with the id that it draws. -/
def createRemote (world : VolumeWorld) (account : Uuid) (id : String) :
    Result String × VolumeWorld :=
  if id ∈ (world.accounts account).issued then
    (raise .providerRejected "volume not created", world)
  else (.ok id, world.setAccount account ((world.accounts account).create ⟨id, none⟩))

/-- A call that takes effect. -/
def perform (pageSize : ℕ) (me : ℕ) (chance : VolumeChance) (world : VolumeWorld) :
    (request : VolumeCall) → Result request.Out × VolumeWorld
  | .listForUser userId => (.ok (world.volumes.rows.filter (·.userId = userId)), world)
  | .get id => (.ok (world.volumes.get id), world)
  | .add volume => world.add volume chance.rowId
  | .save _ volume => world.save volume
  | .delete _ id => (.ok (), { world with volumes := deleteVolume world.volumes id })
  | .listAll => (.ok world.volumes.rows, world)
  | .server _ => (.ok chance.server, world)
  | .createVolume account _ _ _ => world.createRemote account chance.remoteId
  | .attachVolume account id server =>
    world.onVolume account id fun inventory ↦ inventory.setServer id (some server)
  | .detachVolume account id =>
    world.onVolume account id fun inventory ↦ inventory.setServer id none
  | .removeVolume account id =>
    (.ok (), world.setAccount account ((world.accounts account).remove id))
  | .listVolumes account =>
    (.ok ((world.accounts account).page pageSize), list pageSize me world account)
  | .outside account change =>
    (.ok (), world.setAccount account (change.apply (world.accounts account)))

/-- One call, which takes the world from one moment to the next. -/
def handle (pageSize : ℕ) (me : ℕ) (request : VolumeCall) (chance : VolumeChance)
    (world : VolumeWorld) : Result request.Out × VolumeWorld :=
  deliver ⟨.providerUnavailable, "no answer"⟩ world.tick
    (perform pageSize me chance world.tick request) chance.delivery

end VolumeWorld

/-! ### The service -/

abbrev VolumeProgram := Program Raised VolumeCall VolumeCall.Out

/-- The service's settings: whether it can look servers up, and the quota. -/
structure VolumeSettings where
  serverLookup : Bool := true
  maxVolumesPerUser : ℕ := 10

namespace VolumeService

variable (settings : VolumeSettings)

/-- One call. -/
abbrev perform (request : VolumeCall) : VolumeProgram request.Out :=
  Program.perform request

/-- `create`; the port is the one of the account that is named. -/
def create (actorUserId ownerUserId account : Uuid) (providerKey name : String) (sizeGb : ℤ)
    (locationId : String) : VolumeProgram Volume := do
  rejectIf (actorUserId ≠ ownerUserId) .volumeNotFound "manage your own volumes"
  let owned ← perform (.listForUser ownerUserId)
  rejectIf (settings.maxVolumesPerUser ≤ owned.length) .volumeLimit
    s!"at most {settings.maxVolumesPerUser} volumes per user"
  let providerVolumeId ← perform (.createVolume account name sizeGb locationId)
  let volume ← NewVolume.checked {
    userId := ownerUserId
    providerAccountId := account
    providerKey := providerKey
    providerVolumeId := providerVolumeId
    name := name
    sizeGb := sizeGb
    locationId := some locationId }
  perform (.add volume)

/-- The volume that was found, if the actor owns it. -/
def owned (actorUserId : Uuid) : Option Volume → Result Volume
  | none => raise .volumeNotFound "volume not found"
  | some volume =>
    if volume.userId ≠ actorUserId then raise .volumeNotFound "volume not found" else .ok volume

/-- `get_owned`. -/
def getOwned (actorUserId volumeId : Uuid) : VolumeProgram Volume := do
  owned actorUserId (← perform (.get volumeId))

/-- The server that was found, if the actor owns it. -/
def ownedServer (actorUserId : Uuid) : Option ServerRef → Result ServerRef
  | none => raise .volumeNotFound "server not found"
  | some server =>
    if server.userId ≠ actorUserId then raise .volumeNotFound "server not found" else .ok server

/-- The binding of `attach`. -/
def bind (actorUserId : Uuid) (volume : Volume) (serverId port : Uuid) : VolumeProgram Unit := do
  rejectIf (!settings.serverLookup) .volumeNotFound "server lookup is not configured"
  let server ← ownedServer actorUserId (← perform (.server serverId))
  perform (.attachVolume port volume.providerVolumeId (server.providerServerId.getD "None"))
  let _ ← perform (.save .command (volume.bindTo (some serverId)))

/-- `attach`, through the port of an account. -/
def attach (actorUserId volumeId serverId port : Uuid) : VolumeProgram Unit := do
  let volume ← getOwned actorUserId volumeId
  if volume.serverId = some serverId then return ()
  else bind settings actorUserId volume serverId port

/-- `detach`. -/
def detach (actorUserId volumeId port : Uuid) : VolumeProgram Unit := do
  let volume ← getOwned actorUserId volumeId
  if volume.isAttached then do
    perform (.detachVolume port volume.providerVolumeId)
    let _ ← perform (.save .command (volume.bindTo none))
  else return ()

/-- `delete`. -/
def delete (actorUserId volumeId port : Uuid) : VolumeProgram Unit := do
  let volume ← getOwned actorUserId volumeId
  perform (.removeVolume port volume.providerVolumeId)
  perform (.delete .command volumeId)

/-- `remote[vid]`, of the dictionary that the listing makes. -/
def remoteOf (page : List (String × Option String)) (id : String) : Option (Option String) :=
  (page.reverse.find? (·.1 = id)).map (·.2)

/-- The rows of the reconciler, one after another, with the counts of what was repaired. -/
def repair (page : List (String × Option String)) : List Volume → ℕ → ℕ → VolumeProgram (ℕ × ℕ)
  | [], purged, unbound => return (purged, unbound)
  | volume :: rest, purged, unbound =>
    match remoteOf page volume.providerVolumeId with
    | none => do
      perform (.delete .reconcile volume.id)
      repair page rest (purged + 1) unbound
    | some none =>
      if volume.isAttached then do
        let _ ← perform (.save .reconcile (volume.bindTo none))
        repair page rest purged (unbound + 1)
      else repair page rest purged unbound
    | some (some _) => repair page rest purged unbound

/-- `reconcile`, with the port of an account. -/
def reconcile (port : Uuid) : VolumeProgram (ℕ × ℕ) := do
  let page ← perform (.listVolumes port)
  let volumes ← perform .listAll
  repair page volumes 0 0

end VolumeService

/-! ### The entry points -/

/-- A call of the service, or a change from outside. -/
inductive VolumeEntry
  | create (actorUserId ownerUserId account : Uuid) (providerKey name : String) (sizeGb : ℤ)
    (locationId : String)
  | attach (actorUserId volumeId serverId port : Uuid)
  | detach (actorUserId volumeId port : Uuid)
  | delete (actorUserId volumeId port : Uuid)
  | reconcile (port : Uuid)
  | outside (account : Uuid) (change : VolumeChange)

/-- Its program; what it returns is for its caller. -/
def VolumeEntry.program (settings : VolumeSettings) : VolumeEntry → VolumeProgram Unit
  | create actorUserId ownerUserId account providerKey name sizeGb locationId => do
    let _ ← VolumeService.create settings actorUserId ownerUserId account providerKey name sizeGb
      locationId
  | attach actorUserId volumeId serverId port =>
    VolumeService.attach settings actorUserId volumeId serverId port
  | detach actorUserId volumeId port => VolumeService.detach actorUserId volumeId port
  | delete actorUserId volumeId port => VolumeService.delete actorUserId volumeId port
  | reconcile port => do let _ ← VolumeService.reconcile port
  | outside account change => VolumeService.perform (.outside account change)

end CloudPlatform.Networking
