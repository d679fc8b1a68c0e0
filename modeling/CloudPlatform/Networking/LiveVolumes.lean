import CloudPlatform.Networking.VolumeService
import CloudPlatform.Transition.Protocol

/-!
# Reconciliation and live volumes

The reconciler deletes the rows whose ids are not on the page that it listed, and clears the
bindings of those that the page shows detached. `ListsVolumes` is when that page can speak for the
rows: every row whose volume is live when the rows are read is on it, and a binding that is cleared
belongs to the account that was listed and is no younger than the listing. Then no row of a live
volume is deleted, and no binding is cleared that the provider did not end.

What the reconciler has read stays true since a volume that is gone stays gone, the rows keep their
accounts and volumes, and the page is what the account held at the moment of the listing.
-/

namespace CloudPlatform.Networking

open Rows
open Transition

/-! ### What an account may come to -/

namespace Inventory

/-- No id that was given is forgotten, and a volume that is gone stays gone. -/
structure Later (before after : Inventory) : Prop where
  issued : ∀ id ∈ before.issued, id ∈ after.issued
  gone : ∀ id ∈ before.issued, after.Has id → before.Has id

variable (inventory : Inventory)

theorem Later.refl : inventory.Later inventory :=
  ⟨fun _ h ↦ h, fun _ _ h ↦ h⟩

theorem later_create (volume : RemoteVolume) : inventory.Later (inventory.create volume) := by
  unfold create
  by_cases hissued : volume.id ∈ inventory.issued
  · rw [if_pos hissued]
    exact Later.refl inventory
  · rw [if_neg hissued]
    refine ⟨fun id hid ↦ List.mem_cons_of_mem _ hid, fun id hid hafter ↦ ?_⟩
    obtain ⟨other, hother, rfl⟩ := hafter
    rcases List.mem_append.mp hother with hold | hnew
    · exact ⟨other, hold, rfl⟩
    · rw [List.mem_singleton.mp hnew] at hid
      exact absurd hid hissued

theorem issued_create (volume : RemoteVolume) : volume.id ∈ (inventory.create volume).issued := by
  unfold create
  by_cases hissued : volume.id ∈ inventory.issued
  · rw [if_pos hissued]
    exact hissued
  · rw [if_neg hissued]
    exact List.mem_cons_self

theorem later_setServer (id : String) (server : Option String) :
    inventory.Later (inventory.setServer id server) := by
  refine ⟨fun _ hid ↦ hid, fun other _ hafter ↦ ?_⟩
  obtain ⟨volume, hvolume, rfl⟩ := hafter
  obtain ⟨before, hbefore, rfl⟩ := List.mem_map.mp hvolume
  exact ⟨before, hbefore, (id_bindRemote id server before).symm⟩

theorem later_remove (id : String) : inventory.Later (inventory.remove id) := by
  refine ⟨fun _ hid ↦ hid, fun other _ hafter ↦ ?_⟩
  obtain ⟨volume, hvolume, rfl⟩ := hafter
  exact ⟨volume, List.mem_of_mem_filter hvolume, rfl⟩

theorem later_apply (change : VolumeChange) : inventory.Later (change.apply inventory) := by
  cases change with
  | create volume => exact later_create inventory volume
  | setServer id server => exact later_setServer inventory id server
  | remove id => exact later_remove inventory id

/-- What the page shows detached, the account has detached. -/
theorem hasDetached_of_page {inventory : Inventory} {pageSize : ℕ} {id : String}
    (h : VolumeService.remoteOf (inventory.page pageSize) id = some none) :
    inventory.HasDetached id := by
  unfold VolumeService.remoteOf at h
  obtain ⟨entry, hentry, hserver⟩ := Option.map_eq_some_iff.mp h
  have hmem := List.mem_reverse.mp (List.mem_of_find?_eq_some hentry)
  have hid : entry.1 = id := of_decide_eq_true (List.find?_some hentry :)
  obtain ⟨volume, hvolume, rfl⟩ := List.mem_map.mp hmem
  exact ⟨volume, List.mem_of_mem_take hvolume, hid, hserver⟩

end Inventory

/-- What the page does not answer for is not on it. -/
theorem not_mem_of_remoteOf {page : List (String × Option String)} {id : String}
    (h : VolumeService.remoteOf page id = none) : id ∉ page.map (·.1) := by
  unfold VolumeService.remoteOf at h
  rw [Option.map_eq_none_iff, List.find?_eq_none] at h
  intro hmem
  obtain ⟨entry, hentry, hid⟩ := List.mem_map.mp hmem
  exact h entry (List.mem_reverse.mpr hentry) (decide_eq_true hid)

/-! ### What a call may do to the world -/

/-- The rows are of the same volume of the same account. -/
structure Volume.SameVolume (row later : Volume) : Prop where
  account : later.providerAccountId = row.providerAccountId
  volume : later.providerVolumeId = row.providerVolumeId

theorem Volume.SameVolume.refl (row : Volume) : row.SameVolume row :=
  ⟨rfl, rfl⟩

theorem Volume.SameVolume.trans {first second third : Volume} (hfirst : first.SameVolume second)
    (hsecond : second.SameVolume third) : first.SameVolume third :=
  ⟨hsecond.account.trans hfirst.account, hsecond.volume.trans hfirst.volume⟩

namespace VolumeWorld

/-- The accounts go on, no row becomes the row of another volume, and a new row is of a fresh volume
and has an id that was never drawn. -/
structure Evolves (fresh : NewVolume → Prop) (before after : VolumeWorld) : Prop where
  accounts : ∀ account, (before.accounts account).Later (after.accounts account)
  drawn : ∀ id ∈ before.drawn, id ∈ after.drawn
  rows : ∀ id row, after.volumes.get id = some row →
    (∃ earlier, before.volumes.get id = some earlier ∧ earlier.SameVolume row) ∨
      id ∉ before.drawn ∧ id ∈ after.drawn ∧ fresh row.toNewVolume
  moments : after.moments = before.moments

variable {world : VolumeWorld} {fresh : NewVolume → Prop}

/-- The rows are those that were there. -/
theorem same_rows {before after : VolumeWorld} (h : ∀ id row, after.volumes.get id = some row →
    before.volumes.get id = some row) (id : Uuid) (row : Volume)
    (hrow : after.volumes.get id = some row) :
    (∃ earlier, before.volumes.get id = some earlier ∧ earlier.SameVolume row) ∨
      id ∉ before.drawn ∧ id ∈ after.drawn ∧ fresh row.toNewVolume :=
  .inl ⟨row, h id row hrow, Volume.SameVolume.refl row⟩

theorem Evolves.refl (world : VolumeWorld) : Evolves fresh world world :=
  ⟨fun _ ↦ Inventory.Later.refl _, fun _ h ↦ h, same_rows fun _ _ h ↦ h, rfl⟩

theorem evolves_setAccount {account : Uuid} {inventory : Inventory}
    (h : (world.accounts account).Later inventory) :
    Evolves fresh world (world.setAccount account inventory) := by
  refine ⟨fun other ↦ ?_, fun _ h ↦ h, same_rows fun _ _ h ↦ h, rfl⟩
  by_cases hother : other = account
  · subst hother
    simpa only [setAccount, Function.update_self] using h
  · simp only [setAccount, Function.update_of_ne hother]
    exact Inventory.Later.refl _

theorem evolves_onVolume {account : Uuid} {id : String} {change : Inventory → Inventory}
    (h : ∀ inventory : Inventory, inventory.Later (change inventory)) :
    Evolves fresh world (world.onVolume account id change).2 := by
  unfold onVolume
  by_cases hhas : (world.accounts account).Has id
  · rw [if_pos hhas]
    exact evolves_setAccount (h _)
  · rw [if_neg hhas]
    exact Evolves.refl world

theorem evolves_createRemote (account : Uuid) (id : String) :
    Evolves fresh world (world.createRemote account id).2 := by
  unfold createRemote
  by_cases hissued : id ∈ (world.accounts account).issued
  · rw [if_pos hissued]
    exact Evolves.refl world
  · rw [if_neg hissued]
    exact evolves_setAccount (Inventory.later_create _ _)

theorem insertVolume_eq_ok {rows after : VolumeRows} {volume : NewVolume} {id : Uuid} {row : Volume}
    (h : insertVolume rows volume id = .ok (after, row)) :
    row = ⟨volume, id⟩ ∧ after = rows.put row := by
  unfold insertVolume at h
  by_cases htaken : rows.rows.any (fun row ↦ row.providerKey = volume.providerKey &&
      row.providerVolumeId = volume.providerVolumeId) = true
  · rw [if_pos htaken] at h
    exact absurd h raise_ne_ok
  · rw [if_neg htaken] at h
    obtain ⟨rfl, rfl⟩ := Prod.mk.inj (Except.ok.inj h)
    exact ⟨rfl, rfl⟩

theorem saveVolume_eq_ok {rows after : VolumeRows} {volume saved : Volume}
    (h : saveVolume rows volume = .ok (after, saved)) : ∃ row, rows.get volume.id = some row ∧
      saved = row.bindTo volume.serverId ∧ after = rows.put saved := by
  unfold saveVolume at h
  cases hrow : rows.get volume.id with
  | none =>
    rw [hrow] at h
    exact absurd h raise_ne_ok
  | some row =>
    rw [hrow] at h
    obtain ⟨rfl, rfl⟩ := Prod.mk.inj (Except.ok.inj h)
    exact ⟨row, rfl, rfl, rfl⟩

/-- What `add` does: nothing, or a row with an id that was never drawn. -/
theorem add_cases (world : VolumeWorld) (volume : NewVolume) (id : Uuid) :
    (∃ raised, world.add volume id = (.error raised, world)) ∨
      id ∉ world.drawn ∧ world.add volume id = (.ok ⟨volume, id⟩, { world with
        volumes := world.volumes.put ⟨volume, id⟩
        drawn := id :: world.drawn
        boundAt := Function.update world.boundAt id world.moments.length }) := by
  unfold add
  by_cases hdrawn : id ∈ world.drawn
  · rw [if_pos hdrawn]
    exact .inl ⟨_, rfl⟩
  · rw [if_neg hdrawn]
    cases hinsert : insertVolume world.volumes volume id with
    | error raised => exact .inl ⟨raised, rfl⟩
    | ok done =>
      obtain ⟨rows, row⟩ := done
      obtain ⟨rfl, rfl⟩ := insertVolume_eq_ok hinsert
      exact .inr ⟨hdrawn, rfl⟩

/-- What `save` does: nothing, or it writes the binding of the row. -/
theorem save_cases (world : VolumeWorld) (volume : Volume) :
    (∃ raised, world.save volume = (.error raised, world)) ∨
      ∃ row, world.volumes.get volume.id = some row ∧
        world.save volume = (.ok (row.bindTo volume.serverId), { world with
          volumes := world.volumes.put (row.bindTo volume.serverId)
          boundAt := if volume.serverId.isSome then
            Function.update world.boundAt volume.id world.moments.length else world.boundAt }) := by
  unfold save
  cases hsave : saveVolume world.volumes volume with
  | error raised => exact .inl ⟨raised, rfl⟩
  | ok done =>
    obtain ⟨rows, saved⟩ := done
    obtain ⟨row, hrow, rfl, rfl⟩ := saveVolume_eq_ok hsave
    exact .inr ⟨row, hrow, rfl⟩

theorem evolves_add {volume : NewVolume} (id : Uuid) (h : fresh volume) :
    Evolves fresh world (world.add volume id).2 := by
  rcases add_cases world volume id with ⟨raised, hadd⟩ | ⟨hdrawn, hadd⟩
  · rw [hadd]
    exact Evolves.refl world
  · rw [hadd]
    refine ⟨fun _ ↦ Inventory.Later.refl _, fun _ h ↦ List.mem_cons_of_mem _ h,
      fun other row hrow ↦ ?_, rfl⟩
    rw [Table.get_put] at hrow
    by_cases hid : id = other
    · rw [if_pos hid] at hrow
      obtain rfl := Option.some.inj hrow
      subst hid
      exact .inr ⟨hdrawn, List.mem_cons_self, h⟩
    · rw [if_neg hid] at hrow
      exact .inl ⟨row, hrow, Volume.SameVolume.refl row⟩

theorem evolves_save (volume : Volume) : Evolves fresh world (world.save volume).2 := by
  rcases save_cases world volume with ⟨raised, hsave⟩ | ⟨row, hrow, hsave⟩
  · rw [hsave]
    exact Evolves.refl world
  · rw [hsave]
    refine ⟨fun _ ↦ Inventory.Later.refl _, fun _ h ↦ h, fun other later hlater ↦ .inl ?_, rfl⟩
    have hkey : row.id = volume.id := Table.key_of_get hrow
    rw [Table.get_put] at hlater
    by_cases hid : (row.bindTo volume.serverId).id = other
    · rw [if_pos hid] at hlater
      obtain rfl := Option.some.inj hlater
      have hother : volume.id = other := hkey.symm.trans hid
      exact ⟨row, hother ▸ hrow, ⟨rfl, rfl⟩⟩
    · rw [if_neg hid] at hlater
      exact ⟨later, hlater, Volume.SameVolume.refl later⟩

theorem get_deleteVolume {rows : VolumeRows} {id other : Uuid} {row : Volume}
    (h : (deleteVolume rows id).get other = some row) : rows.get other = some row := by
  have hkey := Table.key_of_get h
  have hmem := List.mem_of_mem_filter (Table.mem_of_get h)
  rw [← hkey]
  exact Table.mem_iff_get.mp hmem

theorem evolves_delete (id : Uuid) :
    Evolves fresh world { world with volumes := deleteVolume world.volumes id } :=
  ⟨fun _ ↦ Inventory.Later.refl _, fun _ h ↦ h, same_rows fun _ _ h ↦ get_deleteVolume h, rfl⟩

/-- Every call lets the world go on. -/
theorem evolves_perform (pageSize me : ℕ) (chance : VolumeChance) (world : VolumeWorld)
    (request : VolumeCall) : Evolves (fun volume ↦ request = .add volume) world
      (perform pageSize me chance world request).2 := by
  cases request with
  | add volume => exact evolves_add chance.rowId rfl
  | save caller volume => exact evolves_save volume
  | delete caller id => exact evolves_delete id
  | createVolume account name sizeGb locationId =>
    exact evolves_createRemote account chance.remoteId
  | attachVolume account id server =>
    exact evolves_onVolume fun inventory ↦ inventory.later_setServer id (some server)
  | detachVolume account id =>
    exact evolves_onVolume fun inventory ↦ inventory.later_setServer id none
  | removeVolume account id => exact evolves_setAccount (Inventory.later_remove _ id)
  | listVolumes account =>
    exact ⟨fun _ ↦ Inventory.Later.refl _, fun _ h ↦ h,
      fun _ row h ↦ .inl ⟨row, h, Volume.SameVolume.refl row⟩, rfl⟩
  | outside account change => exact evolves_setAccount (Inventory.later_apply _ change)
  | listForUser userId => exact Evolves.refl world
  | get id => exact Evolves.refl world
  | listAll => exact Evolves.refl world
  | server id => exact Evolves.refl world

/-- A listing belongs to the thread that takes it. -/
theorem listings_perform (pageSize : ℕ) {me : ℕ} (chance : VolumeChance) (world : VolumeWorld)
    {request : VolumeCall} {thread : ℕ}
    (h : thread ≠ me ∨ ∀ account, request ≠ .listVolumes account) :
    (perform pageSize me chance world request).2.listings thread = world.listings thread := by
  cases request with
  | add volume =>
    rcases add_cases world volume chance.rowId with ⟨raised, hadd⟩ | ⟨-, hadd⟩
    · rw [perform, hadd]
    · rw [perform, hadd]
  | save caller volume =>
    rcases save_cases world volume with ⟨raised, hsave⟩ | ⟨row, -, hsave⟩
    · rw [perform, hsave]
    · rw [perform, hsave]
  | createVolume account name sizeGb locationId =>
    rw [perform, createRemote]
    split <;> rfl
  | attachVolume account id server =>
    rw [perform, onVolume]
    split <;> rfl
  | detachVolume account id =>
    rw [perform, onVolume]
    split <;> rfl
  | listVolumes account =>
    have hthread : thread ≠ me := h.resolve_right fun hne ↦ hne account rfl
    exact Function.update_of_ne hthread _ _
  | _ => rfl

/-! ### What holds of every world -/

/-- The rows were drawn and are of volumes that their accounts made; a listing is what the account
held at its moment. -/
structure Consistent (pageSize : ℕ) (world : VolumeWorld) : Prop where
  rows : ∀ id row, world.volumes.get id = some row → id ∈ world.drawn ∧
    row.providerVolumeId ∈ (world.accounts row.providerAccountId).issued
  listings : ∀ thread listing, world.listings thread = some listing →
    ∃ accounts, world.history[listing.moment]? = some accounts ∧
      listing.page = (accounts listing.account).page pageSize

variable {pageSize me : ℕ}

/-- What was is in the history of every later moment. -/
theorem getElem?_history {after : VolumeWorld} (hafter : after.moments = world.history)
    {moment : ℕ} {accounts : Uuid → Inventory} (h : world.history[moment]? = some accounts) :
    after.history[moment]? = some accounts := by
  have hlt := (List.getElem?_eq_some_iff.mp h).1
  rw [history, hafter, List.getElem?_append_left hlt]
  exact h

theorem Consistent.tick (h : Consistent pageSize world) : Consistent pageSize world.tick := by
  refine ⟨h.rows, fun thread listing hlisting ↦ ?_⟩
  obtain ⟨accounts, hmoment, hpage⟩ := h.listings thread listing hlisting
  exact ⟨accounts, getElem?_history rfl hmoment, hpage⟩

/-- The listing that a call takes is the page of the present moment. -/
theorem listings_cases (chance : VolumeChance) (request : VolumeCall) {thread : ℕ}
    {listing : Listing}
    (h : (perform pageSize me chance world.tick request).2.listings thread = some listing) :
    world.listings thread = some listing ∨ thread = me ∧ ∃ account, request = .listVolumes account ∧
      listing = ⟨account, (world.accounts account).page pageSize, world.history.length⟩ := by
  by_cases hlist : thread ≠ me ∨ ∀ account, request ≠ .listVolumes account
  · rw [listings_perform pageSize chance world.tick hlist] at h
    exact .inl h
  · obtain ⟨hthread, hrequest⟩ := not_or.mp hlist
    obtain ⟨account, haccount⟩ := not_forall.mp hrequest
    obtain rfl := not_not.mp hthread
    obtain rfl := not_not.mp haccount
    have hlisting : some (⟨account, (world.accounts account).page pageSize,
        world.history.length⟩ : Listing) = some listing := by
      rw [← h]
      exact (Function.update_self thread _ world.listings).symm
    exact .inr ⟨rfl, account, rfl, (Option.some.inj hlisting).symm⟩

/-- A call keeps the world consistent, if the volume of a new row was made by its account. -/
theorem Consistent.perform (h : Consistent pageSize world) (chance : VolumeChance)
    (request : VolumeCall) (hadd : ∀ volume, request = .add volume →
      volume.providerVolumeId ∈ (world.accounts volume.providerAccountId).issued) :
    Consistent pageSize (perform pageSize me chance world.tick request).2 := by
  have hevolves := evolves_perform pageSize me chance world.tick request
  constructor
  · intro id row hrow
    rcases hevolves.rows id row hrow with ⟨earlier, hearlier, hsame⟩ | ⟨-, hdrawn, hfresh⟩
    · obtain ⟨hdrawn, hissued⟩ := h.rows id earlier hearlier
      rw [hsame.account, hsame.volume]
      exact ⟨hevolves.drawn id hdrawn, (hevolves.accounts _).issued _ hissued⟩
    · exact ⟨hdrawn, (hevolves.accounts _).issued _ (hadd row.toNewVolume hfresh)⟩
  · intro thread listing hlisting
    rcases listings_cases chance request hlisting with hold | ⟨-, account, rfl, rfl⟩
    · obtain ⟨accounts, hmoment, hpage⟩ := h.listings thread listing hold
      exact ⟨accounts, getElem?_history hevolves.moments hmoment, hpage⟩
    · refine ⟨world.accounts, ?_, rfl⟩
      change (world.history ++ [world.accounts])[world.history.length]? = some world.accounts
      exact List.getElem?_concat_length

end VolumeWorld

/-! ### What a thread knows -/

/-- What a thread has learned: the volume that it had made and the account, the page that it listed,
and the rows that it read after that. -/
structure VolumeKnown where
  created : Option (Uuid × String) := none
  listed : Option (List (String × Option String)) := none
  read : Option (List Volume) := none

namespace VolumeKnown

/-- A row that was read and is not on the page, or is there detached. -/
def Finds (l : VolumeKnown) (finding : Option (Option String)) (row : Volume) : Prop :=
  ∃ page rows, l.listed = some page ∧ l.read = some rows ∧ row ∈ rows ∧
    VolumeService.remoteOf page row.providerVolumeId = finding

/-- The rule of the calls: a row is added for the volume that was made, and the reconciler writes
what it has found. -/
def permits (l : VolumeKnown) : VolumeCall → Prop
  | .add volume => l.created = some (volume.providerAccountId, volume.providerVolumeId)
  | .delete .reconcile id => ∃ row, l.Finds none row ∧ row.id = id
  | .save .reconcile volume => ∃ row, l.Finds (some none) row ∧ volume = row.bindTo none
  | .listVolumes _ => l.listed = none ∧ l.read = none
  | .listAll => l.listed.isSome
  | _ => True

/-- What a reply teaches. -/
def learns (l : VolumeKnown) : (request : VolumeCall) → Result request.Out → VolumeKnown
  | .createVolume account _ _ _, .ok id => { l with created := some (account, id) }
  | .listVolumes _, .ok page => { l with listed := some page }
  | .listAll, .ok rows => { l with read := some rows }
  | _, _ => l

end VolumeKnown

/-- The protocol of the volume commands. -/
def volumeProtocol : Protocol Raised VolumeCall VolumeCall.Out VolumeKnown where
  permits l request := l.permits request
  truthful _ _ := True
  learns l request reply := l.learns request reply

/-! ### The programs -/

theorem NewVolume.checked_eq_ok {volume checked : NewVolume} (h : volume.checked = .ok checked) :
    checked = volume := by
  obtain ⟨-, h⟩ := rejectIf_bind_eq_ok.mp h
  obtain ⟨-, h⟩ := rejectIf_bind_eq_ok.mp h
  exact (Except.ok.inj h).symm

namespace VolumeService

variable {settings : VolumeSettings} {l : VolumeKnown}

theorem follows_create (actorUserId ownerUserId account : Uuid) (providerKey name : String)
    (sizeGb : ℤ) (locationId : String) : Follows volumeProtocol (Returns fun _ _ ↦ True)
      (create settings actorUserId ownerUserId account providerKey name sizeGb locationId) l := by
  unfold create
  refine follows_returns_lift fun _ _ ↦ ?_
  refine follows_returns_perform True.intro fun _ _ ↦ ?_
  refine follows_returns_lift fun _ _ ↦ ?_
  refine follows_returns_perform True.intro fun providerVolumeId _ ↦ ?_
  refine follows_returns_lift fun volume hvolume ↦ ?_
  have hchecked := NewVolume.checked_eq_ok hvolume
  subst hchecked
  refine follows_last rfl fun reply _ ↦ ?_
  cases reply <;> trivial

theorem follows_getOwned (actorUserId volumeId : Uuid) :
    Follows volumeProtocol (Returns fun _ _ ↦ True) (getOwned actorUserId volumeId) l := by
  unfold getOwned
  refine follows_returns_perform True.intro fun found _ ↦ ?_
  exact follows_returns_done fun _ _ ↦ trivial

theorem follows_bind_server (actorUserId : Uuid) (volume : Volume) (serverId port : Uuid) :
    Follows volumeProtocol (Returns fun _ _ ↦ True)
      (bind settings actorUserId volume serverId port) l := by
  unfold bind
  refine follows_returns_lift fun _ _ ↦ ?_
  refine follows_returns_perform True.intro fun found _ ↦ ?_
  refine follows_returns_lift fun server _ ↦ ?_
  refine follows_returns_perform True.intro fun _ _ ↦ ?_
  exact follows_returns_perform True.intro fun _ _ ↦ trivial

theorem follows_attach (actorUserId volumeId serverId port : Uuid) :
    Follows volumeProtocol (Returns fun _ _ ↦ True)
      (attach settings actorUserId volumeId serverId port) l := by
  unfold attach
  refine follows_returns_bind (follows_getOwned actorUserId volumeId) fun volume l _ ↦ ?_
  by_cases hbound : volume.serverId = some serverId
  · rw [if_pos hbound]
    trivial
  · rw [if_neg hbound]
    exact follows_bind_server actorUserId volume serverId port

theorem follows_detach (actorUserId volumeId port : Uuid) :
    Follows volumeProtocol (Returns fun _ _ ↦ True) (detach actorUserId volumeId port) l := by
  unfold detach
  refine follows_returns_bind (follows_getOwned actorUserId volumeId) fun volume l _ ↦ ?_
  by_cases hattached : volume.isAttached = true
  · rw [if_pos hattached]
    refine follows_returns_perform True.intro fun _ _ ↦ ?_
    exact follows_returns_perform True.intro fun _ _ ↦ trivial
  · rw [if_neg hattached]
    trivial

theorem follows_delete (actorUserId volumeId port : Uuid) :
    Follows volumeProtocol (Returns fun _ _ ↦ True) (delete actorUserId volumeId port) l := by
  unfold delete
  refine follows_returns_bind (follows_getOwned actorUserId volumeId) fun volume l _ ↦ ?_
  refine follows_returns_perform True.intro fun _ _ ↦ ?_
  refine follows_last True.intro fun reply _ ↦ ?_
  cases reply <;> trivial

/-- The reconciler repairs what it has found in the rows that are left. -/
theorem follows_repair {page : List (String × Option String)} {rows : List Volume}
    (hlisted : l.listed = some page) (hread : l.read = some rows) (left : List Volume)
    (hleft : ∀ row ∈ left, row ∈ rows) (purged unbound : ℕ) :
    Follows volumeProtocol (Returns fun _ _ ↦ True) (repair page left purged unbound) l := by
  induction left generalizing purged unbound with
  | nil => trivial
  | cons volume rest ih =>
    obtain ⟨hvolume, hrest⟩ := List.forall_mem_cons.mp hleft
    rw [repair]
    cases hremote : remoteOf page volume.providerVolumeId with
    | none =>
      refine follows_returns_perform ?_ fun _ _ ↦ ih hrest _ _
      exact ⟨volume, ⟨page, rows, hlisted, hread, hvolume, hremote⟩, rfl⟩
    | some server =>
      cases server with
      | some server => exact ih hrest _ _
      | none =>
        dsimp only
        by_cases hattached : volume.isAttached = true
        · rw [if_pos hattached]
          refine follows_returns_perform ?_ fun _ _ ↦ ih hrest _ _
          exact ⟨volume, ⟨page, rows, hlisted, hread, hvolume, hremote⟩, rfl⟩
        · rw [if_neg hattached]
          exact ih hrest _ _

theorem follows_reconcile (port : Uuid) :
    Follows volumeProtocol (Returns fun _ _ ↦ True) (reconcile port) {} := by
  unfold reconcile
  refine follows_returns_perform ⟨rfl, rfl⟩ fun page _ ↦ ?_
  refine follows_returns_perform rfl fun volumes _ ↦ ?_
  exact follows_repair rfl rfl volumes (fun _ h ↦ h) 0 0

end VolumeService

theorem follows_volumeEntry (settings : VolumeSettings) (entry : VolumeEntry) :
    Follows volumeProtocol (fun _ _ ↦ True) (entry.program settings) {} := by
  have hany : ∀ {p : VolumeProgram Unit},
      Follows volumeProtocol (Returns fun _ _ ↦ True) p {} →
        Follows volumeProtocol (fun _ _ ↦ True) p {} :=
    fun h ↦ h.mono fun _ _ _ ↦ trivial
  cases entry with
  | create actorUserId ownerUserId account providerKey name sizeGb locationId =>
    refine hany (follows_returns_bind (VolumeService.follows_create actorUserId ownerUserId account
      providerKey name sizeGb locationId) fun _ _ _ ↦ trivial)
  | attach actorUserId volumeId serverId port =>
    exact hany (VolumeService.follows_attach actorUserId volumeId serverId port)
  | detach actorUserId volumeId port =>
    exact hany (VolumeService.follows_detach actorUserId volumeId port)
  | delete actorUserId volumeId port =>
    exact hany (VolumeService.follows_delete actorUserId volumeId port)
  | reconcile port =>
    exact hany (follows_returns_bind (VolumeService.follows_reconcile port) fun _ _ _ ↦ trivial)
  | outside account change => exact ⟨True.intro, fun _ _ ↦ trivial⟩

/-! ### What is true of what is known -/

/-- A row that was read beside a page: its id stays with its volume, and a volume that is not on the
page is gone for good. -/
structure RowKnown (world : VolumeWorld) (page : List (String × Option String)) (row : Volume) :
    Prop where
  drawn : row.id ∈ world.drawn
  same : ∀ current, world.volumes.get row.id = some current → row.SameVolume current
  issued : row.providerVolumeId ∈ (world.accounts row.providerAccountId).issued
  gone : row.providerVolumeId ∉ page.map (·.1) →
    ¬(world.accounts row.providerAccountId).Has row.providerVolumeId

theorem RowKnown.evolves {world after : VolumeWorld} {fresh : NewVolume → Prop}
    {page : List (String × Option String)} {row : Volume} (h : RowKnown world page row)
    (hevolves : VolumeWorld.Evolves fresh world.tick after) : RowKnown after page row := by
  refine ⟨hevolves.drawn _ h.drawn, fun current hcurrent ↦ ?_,
    (hevolves.accounts _).issued _ h.issued, fun hpage hhas ↦ ?_⟩
  · rcases hevolves.rows _ current hcurrent with ⟨earlier, hearlier, hsame⟩ | ⟨hdrawn, -, -⟩
    · exact (h.same earlier hearlier).trans hsame
    · exact absurd h.drawn hdrawn
  · exact h.gone hpage ((hevolves.accounts _).gone _ h.issued hhas)

/-- What a thread has learned is true. -/
structure Knows (me : ℕ) (world : VolumeWorld) (l : VolumeKnown) : Prop where
  created : ∀ account id, l.created = some (account, id) → id ∈ (world.accounts account).issued
  listed : ∀ page, l.listed = some page →
    ∃ listing, world.listings me = some listing ∧ listing.page = page
  read : ∀ page rows, l.listed = some page → l.read = some rows →
    ∀ row ∈ rows, RowKnown world page row

theorem knows_nothing (me : ℕ) (world : VolumeWorld) : Knows me world {} where
  created _ _ h := nomatch h
  listed _ h := nomatch h
  read _ _ h := nomatch h

theorem Knows.evolves {me : ℕ} {world after : VolumeWorld} {fresh : NewVolume → Prop}
    {l : VolumeKnown} (h : Knows me world l) (hevolves : VolumeWorld.Evolves fresh world.tick after)
    (hlistings : ∀ page, l.listed = some page → after.listings me = world.listings me) :
    Knows me after l := by
  refine ⟨fun account id hcreated ↦ ?_, fun page hlisted ↦ ?_,
    fun page rows hlisted hread row hrow ↦ ?_⟩
  · exact (hevolves.accounts account).issued id (h.created account id hcreated)
  · rw [hlistings page hlisted]
    exact h.listed page hlisted
  · exact (h.read page rows hlisted hread row hrow).evolves hevolves

theorem Knows.tick {me : ℕ} {world : VolumeWorld} {l : VolumeKnown} (h : Knows me world l) :
    Knows me world.tick l := by
  have hevolves : VolumeWorld.Evolves (fun _ ↦ False) world.tick world.tick := .refl world.tick
  exact h.evolves hevolves fun _ _ ↦ rfl

namespace VolumeWorld

/-- The page that a reconciler listed speaks for the rows: when it reads them, the row of a volume
that is live is on it, and the binding that it clears belongs to the account that was listed and is
no younger than the listing. -/
def ListsVolumes (me : ℕ) (world : VolumeWorld) : VolumeCall → Prop
  | .listAll => ∀ listing ∈ world.listings me, ∀ row ∈ world.volumes.rows,
    (world.accounts row.providerAccountId).Has row.providerVolumeId →
      row.providerVolumeId ∈ listing.page.map (·.1)
  | .save .reconcile volume => ∀ listing ∈ world.listings me, ∀ row ∈ world.volumes.get volume.id,
    row.isAttached = true →
      row.providerAccountId = listing.account ∧ world.boundAt volume.id ≤ listing.moment
  | _ => True

/-- A reconciler deletes only a row whose account no longer has its volume, and clears only a
binding whose volume was detached at a moment after the row was last bound. -/
def KeepsVolume (world : VolumeWorld) : VolumeCall → Prop
  | .delete .reconcile id => ∀ row ∈ world.volumes.get id,
    ¬(world.accounts row.providerAccountId).Has row.providerVolumeId
  | .save .reconcile volume => ∀ row ∈ world.volumes.get volume.id,
    row.isAttached = true → volume.serverId = none →
      ∃ accounts ∈ world.history.drop (world.boundAt volume.id),
        (accounts row.providerAccountId).HasDetached row.providerVolumeId
  | _ => True

instance (me : ℕ) (world : VolumeWorld) : (request : VolumeCall) →
    Decidable (world.ListsVolumes me request)
  | .listAll => by unfold ListsVolumes; infer_instance
  | .save .reconcile _ => by unfold ListsVolumes; infer_instance
  | .save .command _ | .listForUser _ | .get _ | .add _ | .delete _ _ | .server _
  | .createVolume _ _ _ _ | .attachVolume _ _ _ | .detachVolume _ _ | .removeVolume _ _
  | .listVolumes _ | .outside _ _ => .isTrue trivial

instance (world : VolumeWorld) : (request : VolumeCall) → Decidable (world.KeepsVolume request)
  | .delete .reconcile _ => by unfold KeepsVolume; infer_instance
  | .save .reconcile _ => by unfold KeepsVolume; infer_instance
  | .save .command _ | .delete .command _ | .listForUser _ | .get _ | .add _ | .listAll | .server _
  | .createVolume _ _ _ _ | .attachVolume _ _ _ | .detachVolume _ _ | .removeVolume _ _
  | .listVolumes _ | .outside _ _ => .isTrue trivial

variable {pageSize me : ℕ} {world : VolumeWorld}

theorem evolves_handle (pageSize me : ℕ) (request : VolumeCall) (chance : VolumeChance)
    (world : VolumeWorld) : Evolves (fun volume ↦ request = .add volume) world.tick
      (handle pageSize me request chance world).2 :=
  deliver_snd (Evolves.refl world.tick) (evolves_perform pageSize me chance world.tick request)
    chance.delivery

variable {request : VolumeCall} {l : VolumeKnown}

theorem listings_handle (chance : VolumeChance) {thread : ℕ}
    (hne : thread ≠ me ∨ ∀ account, request ≠ .listVolumes account) :
    (handle pageSize me request chance world).2.listings thread = world.listings thread := by
  have hperform := listings_perform pageSize chance world.tick hne
  have htick : world.tick.listings thread = world.listings thread := rfl
  exact deliver_snd (P := fun after : VolumeWorld ↦ after.listings thread = world.listings thread)
    htick hperform chance.delivery

/-- A permitted call leaves the world consistent. -/
theorem consistent_handle (hworld : Consistent pageSize world) (hknows : Knows me world l)
    (hpermits : l.permits request) (chance : VolumeChance) :
    Consistent pageSize (handle pageSize me request chance world).2 := by
  refine deliver_snd hworld.tick (hworld.perform chance request ?_) chance.delivery
  rintro volume rfl
  exact hknows.created _ _ hpermits

/-- What a permitted call leaves true of what its caller knew. -/
theorem knows_performed (hknows : Knows me world l) (hpermits : l.permits request)
    (chance : VolumeChance) : Knows me (perform pageSize me chance world.tick request).2 l := by
  refine hknows.evolves (evolves_perform pageSize me chance world.tick request)
    fun page hlisted ↦ ?_
  refine listings_perform pageSize chance world.tick (.inr ?_)
  rintro account rfl
  exact nomatch hlisted.symm.trans hpermits.1

/-- What a call that took effect teaches its caller is true. -/
theorem knows_learned (hworld : Consistent pageSize world) (hknows : Knows me world l)
    (hpermits : l.permits request) (hallowed : world.ListsVolumes me request)
    (chance : VolumeChance) : Knows me (perform pageSize me chance world.tick request).2
      (l.learns request (perform pageSize me chance world.tick request).1) := by
  have hevolves := evolves_perform pageSize me chance world.tick request
  have hkept : (∀ account, request ≠ .listVolumes account) →
      Knows me (perform pageSize me chance world.tick request).2 l := fun hne ↦
    hknows.evolves hevolves fun _ _ ↦ listings_perform pageSize chance world.tick (.inr hne)
  cases request with
  | createVolume account name sizeGb locationId =>
    have hold := hkept fun _ h ↦ by cases h
    rw [perform, createRemote] at hold ⊢
    by_cases hissued : chance.remoteId ∈ (world.tick.accounts account).issued
    · rw [if_pos hissued] at hold ⊢
      exact hold
    · rw [if_neg hissued] at hold ⊢
      refine ⟨fun other id hcreated ↦ ?_, hold.listed, hold.read⟩
      obtain ⟨rfl, rfl⟩ := Prod.mk.inj (Option.some.inj hcreated)
      simp only [setAccount, Function.update_self]
      exact Inventory.issued_create _ ⟨chance.remoteId, none⟩
  | listVolumes account =>
    refine ⟨fun other id hcreated ↦ ?_, fun page hpage ↦ ?_, fun page rows _ hread ↦ ?_⟩
    · exact hknows.created other id hcreated
    · obtain rfl := Option.some.inj hpage
      exact ⟨_, Function.update_self me _ world.listings, rfl⟩
    · exact nomatch hpermits.2.symm.trans hread
  | listAll =>
    refine ⟨hknows.created, hknows.listed, fun page rows hlisted hread row hrow ↦ ?_⟩
    obtain rfl := Option.some.inj hread
    obtain ⟨listing, hlisting, rfl⟩ := hknows.listed page hlisted
    have hget := Table.mem_iff_get.mp hrow
    obtain ⟨hdrawn, hissued⟩ := hworld.rows row.id row hget
    refine ⟨hdrawn, fun current hcurrent ↦ ?_, hissued, fun hpage hhas ↦ ?_⟩
    · obtain rfl := Option.some.inj (hget.symm.trans hcurrent)
      exact Volume.SameVolume.refl row
    · exact hpage (hallowed listing hlisting row hrow hhas)
  | add volume => exact hkept fun _ h ↦ by cases h
  | save caller volume => exact hkept fun _ h ↦ by cases h
  | delete caller id => exact hkept fun _ h ↦ by cases h
  | listForUser userId => exact hkept fun _ h ↦ by cases h
  | get id => exact hkept fun _ h ↦ by cases h
  | server id => exact hkept fun _ h ↦ by cases h
  | attachVolume account id server => exact hkept fun _ h ↦ by cases h
  | detachVolume account id => exact hkept fun _ h ↦ by cases h
  | removeVolume account id => exact hkept fun _ h ↦ by cases h
  | outside account change => exact hkept fun _ h ↦ by cases h

end VolumeWorld

theorem VolumeKnown.learns_error (l : VolumeKnown) (request : VolumeCall) (raised : Raised) :
    l.learns request (.error raised) = l := by
  cases request <;> rfl

/-- Every permitted call keeps what the threads know. -/
theorem volumeProtocol_sound (pageSize : ℕ) :
    volumeProtocol.Sound (VolumeWorld.handle pageSize) (VolumeWorld.Consistent pageSize) Knows
      VolumeWorld.ListsVolumes where
  truthful _ _ _ _ _ := trivial
  kept _ _ chance _ _ hworld hknows hpermits _ :=
    VolumeWorld.consistent_handle hworld hknows hpermits chance
  learned me request chance world l hworld hknows hpermits hallowed := by
    refine deliver_rule (P := fun reply after ↦ Knows me after (l.learns request reply)) ?_ ?_ ?_
      chance.delivery
    · rw [VolumeKnown.learns_error]
      exact hknows.tick
    · exact VolumeWorld.knows_learned hworld hknows hpermits hallowed chance
    · rw [VolumeKnown.learns_error]
      exact VolumeWorld.knows_performed hknows hpermits chance
  others me request chance world _ _ _ _ _ other hne _ hother :=
    hother.evolves (VolumeWorld.evolves_handle pageSize me request chance world)
      fun _ _ ↦ VolumeWorld.listings_handle chance (.inl hne)

/-! ### The reconciler -/

namespace VolumeWorld

variable {pageSize me : ℕ} {world : VolumeWorld}

/-- A row that was found missing on the page is of a volume that is gone. -/
theorem not_has_of_finds {l : VolumeKnown} (hknows : Knows me world l) {found row : Volume}
    (hfinds : l.Finds none found) (hrow : world.volumes.get found.id = some row) :
    ¬(world.accounts row.providerAccountId).Has row.providerVolumeId := by
  obtain ⟨page, rows, hlisted, hread, hmem, hremote⟩ := hfinds
  have hknown := hknows.read page rows hlisted hread found hmem
  have hsame := hknown.same row hrow
  rw [hsame.account, hsame.volume]
  exact hknown.gone (not_mem_of_remoteOf hremote)

/-- The volume of a row that was found detached on the page of its account was detached since the
row was bound, if that was before the listing. -/
theorem hasDetached_of_finds {l : VolumeKnown} (hworld : Consistent pageSize world)
    (hknows : Knows me world l) {found row : Volume} (hfinds : l.Finds (some none) found)
    (hrow : world.volumes.get found.id = some row) (hlists : ∀ listing ∈ world.listings me,
      row.providerAccountId = listing.account ∧ world.boundAt found.id ≤ listing.moment) :
    ∃ accounts ∈ world.history.drop (world.boundAt found.id),
      (accounts row.providerAccountId).HasDetached row.providerVolumeId := by
  obtain ⟨page, rows, hlisted, hread, hmem, hremote⟩ := hfinds
  have hsame := (hknows.read page rows hlisted hread found hmem).same row hrow
  obtain ⟨listing, hlisting, rfl⟩ := hknows.listed page hlisted
  obtain ⟨accounts, hmoment, hpage⟩ := hworld.listings me listing hlisting
  obtain ⟨haccount, hbound⟩ := hlists listing hlisting
  refine ⟨accounts, List.mem_iff_getElem?.mpr ⟨listing.moment - world.boundAt found.id, ?_⟩, ?_⟩
  · rw [List.getElem?_drop, Nat.add_sub_cancel' hbound]
    exact hmoment
  · rw [haccount, hsame.volume]
    rw [hpage] at hremote
    exact Inventory.hasDetached_of_page hremote

/-- An informed call whose page speaks for the rows keeps the volumes. -/
theorem keepsVolume_of_informed {request : VolumeCall}
    (hinformed : Informed volumeProtocol (Consistent pageSize) Knows me world request)
    (hlists : world.ListsVolumes me request) : world.KeepsVolume request := by
  obtain ⟨hworld, l, hknows, hpermits⟩ := hinformed
  unfold KeepsVolume
  split
  · rename_i id
    obtain ⟨found, hfinds, rfl⟩ := hpermits
    exact fun row hrow ↦ not_has_of_finds hknows hfinds hrow
  · rename_i volume
    obtain ⟨found, hfinds, rfl⟩ := hpermits
    intro row hrow hattached _
    have hget : world.volumes.get found.id = some row := hrow
    have hdetached := hasDetached_of_finds hworld hknows hfinds hget
      fun listing hlisting ↦ hlists listing hlisting row hrow hattached
    exact hdetached
  · trivial

end VolumeWorld

/-- In a run whose reconcilers list pages that speak for the rows, no live volume is forgotten and
no binding is cleared that the provider did not end. -/
theorem reconcile_keepsVolumes (settings : VolumeSettings) (pageSize : ℕ) (start : VolumeWorld)
    (hstart : start.Consistent pageSize) (events : List (PoolEvent VolumeEntry VolumeChance))
    (hlists : Along (Pool.step (VolumeWorld.handle pageSize) (VolumeEntry.program settings))
      (Pool.Allowed (fun _ ↦ True) VolumeWorld.ListsVolumes) ⟨start, []⟩ events) :
    Along (Pool.step (VolumeWorld.handle pageSize) (VolumeEntry.program settings))
      (Pool.Allowed (fun _ ↦ True) fun _ ↦ VolumeWorld.KeepsVolume) ⟨start, []⟩ events := by
  have hinformed := Pool.along_informed (volumeProtocol_sound pageSize) (fun _ ↦ {})
    (fun entry _ ↦ follows_volumeEntry settings entry) (fun me _ world _ ↦ knows_nothing me world)
    events start hstart hlists
  refine (hinformed.and hlists).mono fun pool event hboth ↦ ?_
  refine (hboth.1.and hboth.2).mono fun me world request hcall ↦ ?_
  exact VolumeWorld.keepsVolume_of_informed hcall.1 hcall.2

namespace TwoAccounts

def user : Uuid :=
  ⟨"11111111-1111-4111-8111-111111111111", .refl true⟩

def server : Uuid :=
  ⟨"22222222-2222-4222-8222-222222222222", .refl true⟩

def volume : Uuid :=
  ⟨"33333333-3333-4333-8333-333333333333", .refl true⟩

def first : Uuid :=
  ⟨"aaaaaaaa-aaaa-4aaa-8aaa-aaaaaaaaaaaa", .refl true⟩

def second : Uuid :=
  ⟨"bbbbbbbb-bbbb-4bbb-8bbb-bbbbbbbbbbbb", .refl true⟩

/-- Two accounts without volumes. -/
def start : VolumeWorld where
  accounts _ := {}

/-- Every call is done, and draws these. -/
def chance : VolumeChance where
  rowId := volume
  remoteId := "7"
  server := some ⟨user, some "42"⟩

/-- So many calls of a thread. -/
def calls (thread count : ℕ) : List (PoolEvent VolumeEntry VolumeChance) :=
  List.replicate count (.advance thread chance)

/-- The user makes a volume at an account. -/
def creation (account : Uuid) : List (PoolEvent VolumeEntry VolumeChance) :=
  .spawn (.create user user account "hetzner" "disk" 10 "fsn1") :: calls 0 3

/-- A volume is made at the first account and attached, the provider detaches it and removes it
later; a reconciler runs after each. -/
def events : List (PoolEvent VolumeEntry VolumeChance) :=
  creation first ++ .spawn (.attach user volume server first) :: calls 1 4 ++
    .spawn (.outside first (.setServer "7" none)) :: calls 2 1 ++
    .spawn (.reconcile first) :: calls 3 3 ++ .spawn (.outside first (.remove "7")) :: calls 4 1 ++
    .spawn (.reconcile first) :: calls 5 3

theorem consistent_start : start.Consistent 25 where
  rows _ _ h := nomatch h
  listings _ _ h := nomatch h

theorem reconcile_keepsVolumes_events :
    Along (Pool.step (VolumeWorld.handle 25) (VolumeEntry.program {}))
      (Pool.Allowed (fun _ ↦ True) fun _ ↦ VolumeWorld.KeepsVolume) ⟨start, []⟩ events :=
  reconcile_keepsVolumes {} 25 start consistent_start events (by decide +kernel)

/-- The reconciler of the first account deletes the row of the second account's volume. -/
theorem not_keepsVolumes_reconcile :
    ¬Along (Pool.step (VolumeWorld.handle 25) (VolumeEntry.program {}))
      (Pool.Allowed (fun _ ↦ True) fun _ ↦ VolumeWorld.KeepsVolume) ⟨start, []⟩
      (creation second ++ .spawn (.reconcile first) :: calls 1 3) := by
  decide +kernel

end TwoAccounts

end CloudPlatform.Networking
