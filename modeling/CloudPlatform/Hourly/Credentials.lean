import CloudPlatform.Billing.Domain
import CloudPlatform.Transition.Run

/-!
# The one-time password of a server

The row that holds the password that a provider issued for a server, sealed, and the conditional
updates that deliver it once: a claim leases it to the owner, an acknowledgement erases it, a
release gives the lease back. Any callers issue these in any order, each as one transaction, while
the server changes hands and the clock runs on. `delivers_run` says what every return of a password,
every replay of a sealing and every late acknowledgement meets; it rests on `Consistent`, the
invariant that ties the lease of the row to the claims that were made.
-/

namespace CloudPlatform.Hourly

open Billing (addSeconds)
open Transition

/-! ### The row -/

/-- What the store reads of a server. -/
structure ServerRow where
  userId : Uuid
  deletedAt : Option ℤ := none
  providerServerId : Option String

/-- An encrypted value. -/
structure SecretEnvelope where
  token : String
  keyId : String
  algorithm : String := "Fernet"

/-- A box with one key: `encrypt` gives the token of a text, with the randomness that it draws. -/
structure SecretBox where
  keyId : String
  encrypt : String → ℕ → String
  decrypt : SecretEnvelope → Result String

/-- The credential of a server; no ciphertext is the tombstone of one that was consumed. -/
structure CredentialRow where
  providerServerId : String
  ciphertext : Option String
  username : Option String
  keyId : String
  algorithm : String
  claimId : Option Uuid := none
  claimExpiresAt : Option ℤ := none
  createdAt : ℤ

/-- A password that a provider issued, and the randomness of its sealing. -/
structure IssuedPassword where
  providerServerId : String
  password : String
  username : Option String := none
  randomness : ℕ := 0

/-- A password in the hands of a caller. -/
structure ClaimedCreatePassword where
  claimId : Uuid
  password : String
  username : Option String

/-- `_owner_matches`. -/
def ownerMatches (server : ServerRow) (userId : Uuid) (row : CredentialRow) : Bool :=
  server.userId = userId && server.deletedAt.isNone &&
    server.providerServerId = some row.providerServerId

/-- `_claim_available`. -/
def claimAvailable (row : CredentialRow) (now : ℤ) : Bool :=
  row.claimId.isNone || row.claimExpiresAt.any (· ≤ now)

/-- The row of a password that was just sealed. -/
def sealedRow (box : SecretBox) (issued : IssuedPassword) (now : ℤ) : Result CredentialRow := do
  rejectIf (issued.password = "" || issued.providerServerId = "") .valueError
    "a provider-issued password and server identity are required"
  return {
    providerServerId := issued.providerServerId
    ciphertext := some (box.encrypt issued.password issued.randomness)
    username := issued.username
    keyId := box.keyId
    algorithm := "Fernet"
    createdAt := now }

/-- `save_issued`: the row is inserted, never replaced. -/
def saveIssued (box : SecretBox) (issued : IssuedPassword) (now : ℤ) (row : Option CredentialRow) :
    Result CredentialRow := do
  let inserted ← sealedRow box issued now
  rejectIf row.isSome .runtimeError "server create credential already exists"
  return inserted

/-- `replace_issued`: the columns of a row that is there are all replaced. -/
def replaceIssued (box : SecretBox) (issued : IssuedPassword) (now : ℤ) : Result CredentialRow :=
  sealedRow box issued now

/-- The row without its secret and its lease. -/
def CredentialRow.consumed (row : CredentialRow) : CredentialRow :=
  { row with ciphertext := none, claimId := none, claimExpiresAt := none }

/-- The condition of `invalidate_for_owner`. -/
def invalidates (server : ServerRow) (userId : Uuid) (providerServerId : String)
    (row : CredentialRow) : Bool :=
  row.providerServerId = providerServerId && ownerMatches server userId row

/-- The condition of `claim_for_owner`. -/
def claimable (box : SecretBox) (server : ServerRow) (userId : Uuid) (now : ℤ)
    (row : CredentialRow) : Bool :=
  row.keyId = box.keyId && row.ciphertext.isSome && ownerMatches server userId row &&
    claimAvailable row now

/-- The condition of `ack_for_owner`. -/
def acknowledges (server : ServerRow) (userId claimId : Uuid) (row : CredentialRow) : Bool :=
  row.claimId = some claimId && row.ciphertext.isSome && ownerMatches server userId row

/-- The condition of `release_for_owner`. -/
def releases (server : ServerRow) (userId claimId : Uuid) (row : CredentialRow) : Bool :=
  row.claimId = some claimId && ownerMatches server userId row

/-- `claim_for_owner`: the row with its new lease, and the password. A token that does not decrypt
raises before the commit. -/
def claimForOwner (box : SecretBox) (server : ServerRow) (userId claimId : Uuid) (now : ℤ)
    (row : CredentialRow) : Result (Option (CredentialRow × ClaimedCreatePassword)) := do
  let expiresAt ← addSeconds now 300
  if claimable box server userId now row then
    let password ← box.decrypt ⟨textOf row.ciphertext, row.keyId, row.algorithm⟩
    return some ({ row with claimId := some claimId, claimExpiresAt := some expiresAt },
      ⟨claimId, password, row.username⟩)
  else return none

/-! ### The world -/

/-- A claim that was made: on which sealing, and until when it is leased. -/
structure LeasedClaim where
  claimId : Uuid
  sealing : ℕ
  expiresAt : ℤ
  deriving DecidableEq

/-- One server with its credential. The sealings are counted, the row holds the last of them; the
claims, those that were released, and the sealings that were acknowledged or invalidated are
remembered. -/
structure CredentialWorld where
  server : ServerRow
  clock : ℤ
  row : Option CredentialRow := none
  sealings : ℕ := 0
  claims : List LeasedClaim := []
  released : List Uuid := []
  retired : List ℕ := []

/-- What callers do, and what happens around them: the server changes, or time passes. -/
inductive CredentialEvent
  | saveIssued (box : SecretBox) (issued : IssuedPassword)
  | replaceIssued (box : SecretBox) (issued : IssuedPassword)
  | invalidateForOwner (userId : Uuid) (providerServerId : String)
  | claimForOwner (box : SecretBox) (userId claimId : Uuid)
  | ackForOwner (userId claimId : Uuid)
  | releaseForOwner (userId claimId : Uuid)
  | serverChanges (server : ServerRow)
  | passes (duration : ℕ)

namespace CredentialWorld

variable (world : CredentialWorld)

/-- The row holds a password that was just sealed. -/
def seals (row : CredentialRow) : CredentialWorld :=
  { world with row := some row, sealings := world.sealings + 1 }

/-- The secret of the row is erased. -/
def retires (row : CredentialRow) : CredentialWorld :=
  { world with row := some row.consumed, retired := world.retired ++ [world.sealings] }

/-- What a claim by the user would come to. -/
def claims? (box : SecretBox) (userId claimId : Uuid) :
    Option (CredentialRow × ClaimedCreatePassword) :=
  match world.row with
  | none => none
  | some row =>
    match claimForOwner box world.server userId claimId world.clock row with
    | .ok claimed => claimed
    | .error _ => none

/-- One transaction of a caller, or one change around them. -/
def step : CredentialEvent → CredentialWorld
  | .saveIssued box issued =>
    match Hourly.saveIssued box issued world.clock world.row with
    | .ok row => world.seals row
    | .error _ => world
  | .replaceIssued box issued =>
    match Hourly.replaceIssued box issued world.clock with
    | .ok row => world.seals row
    | .error _ => world
  | .invalidateForOwner userId providerServerId =>
    match world.row.filter (invalidates world.server userId providerServerId) with
    | some row => world.retires row
    | none => world
  | .claimForOwner box userId claimId =>
    match world.claims? box userId claimId with
    | some (row, _) => { world with
        row := some row
        claims := world.claims ++ [⟨claimId, world.sealings, row.claimExpiresAt.getD world.clock⟩] }
    | none => world
  | .ackForOwner userId claimId =>
    match world.row.filter (acknowledges world.server userId claimId) with
    | some row => world.retires row
    | none => world
  | .releaseForOwner userId claimId =>
    match world.row.filter (releases world.server userId claimId) with
    | some row => { world with
        row := some { row with claimId := none, claimExpiresAt := none }
        released := world.released ++ [claimId] }
    | none => world
  | .serverChanges server => { world with server := server }
  | .passes duration => { world with clock := world.clock + duration }

/-- The password that an event returns. -/
def returned : CredentialEvent → Option (Uuid × ClaimedCreatePassword)
  | .claimForOwner box userId claimId =>
    (world.claims? box userId claimId).map fun claimed ↦ (userId, claimed.2)
  | _ => none

end CredentialWorld

/-- The claim id that an event draws. -/
def CredentialEvent.drawn : CredentialEvent → Option Uuid
  | .claimForOwner _ _ claimId => some claimId
  | _ => none

/-- The claim that an event acknowledges or releases. -/
def CredentialEvent.finishes : CredentialEvent → Option Uuid
  | .ackForOwner _ claimId | .releaseForOwner _ claimId => some claimId
  | _ => none

/-! ### The invariant -/

/-- The lease of the row is that of the last claim on the sealing that it holds, and what was
acknowledged or invalidated has no ciphertext left. -/
structure Consistent (world : CredentialWorld) : Prop where
  sealing : ∀ claim ∈ world.claims, claim.sealing ≤ world.sealings
  retired : ∀ sealing ∈ world.retired, sealing ≤ world.sealings
  unique : (world.claims.map (·.claimId)).Nodup
  leased : ∀ row claimId, world.row = some row → row.claimId = some claimId →
    ∃ claim ∈ world.claims, claim.claimId = claimId ∧ claim.sealing = world.sealings ∧
      row.claimExpiresAt = some claim.expiresAt
  ended : ∀ claim ∈ world.claims, claim.sealing = world.sealings →
    claim.expiresAt ≤ world.clock ∨ claim.claimId ∈ world.released ∨
      world.sealings ∈ world.retired ∨
        ∃ row, world.row = some row ∧ row.claimId = some claim.claimId
  erased : world.sealings ∈ world.retired → ∀ row, world.row = some row → row.ciphertext = none

/-- The claim id that an event draws is new. -/
def Fresh (world : CredentialWorld) (event : CredentialEvent) : Prop :=
  ∀ claimId, event.drawn = some claimId → claimId ∉ world.claims.map (·.claimId)

section Steps

variable {world : CredentialWorld}

theorem Consistent.claim_unique (h : Consistent world) {first second : LeasedClaim}
    (hfirst : first ∈ world.claims) (hsecond : second ∈ world.claims)
    (hid : first.claimId = second.claimId) : first = second :=
  List.inj_on_of_nodup_map h.unique hfirst hsecond hid

variable {row : CredentialRow}

/-- A new sealing has no claims and nothing to erase. -/
theorem Consistent.seals (h : Consistent world) (hrow : row.claimId = none) :
    Consistent (world.seals row) where
  sealing claim hclaim := (h.sealing claim hclaim).trans (Nat.le_succ _)
  retired sealing hsealing := (h.retired sealing hsealing).trans (Nat.le_succ _)
  unique := h.unique
  leased other claimId hother hid := by
    obtain rfl := Option.some.inj hother
    rw [hrow] at hid
    cases hid
  ended claim hclaim hsealing := by
    have hle := h.sealing claim hclaim
    change claim.sealing = world.sealings + 1 at hsealing
    omega
  erased hretired := by
    have hle := h.retired _ hretired
    change world.sealings + 1 ≤ world.sealings at hle
    omega

theorem Consistent.retires (h : Consistent world) (row : CredentialRow) :
    Consistent (world.retires row) where
  sealing := h.sealing
  retired sealing hsealing := by
    cases List.mem_append.mp hsealing with
    | inl hbefore => exact h.retired sealing hbefore
    | inr hnew => exact (List.mem_singleton.mp hnew).le
  unique := h.unique
  leased other claimId hother hid := by
    obtain rfl := Option.some.inj hother
    cases hid
  ended _ _ _ := Or.inr (Or.inr (Or.inl (List.mem_append_right _ (List.mem_singleton_self _))))
  erased _ other hother := by
    obtain rfl := Option.some.inj hother
    rfl

/-- What a claim that returns a password has found and what it leaves. -/
theorem CredentialWorld.claims?_eq_some {box : SecretBox} {userId claimId : Uuid}
    {password : ClaimedCreatePassword} (h : world.claims? box userId claimId = some (row, password)) :
     ∃ before expiresAt, world.row = some before ∧
      claimable box world.server userId world.clock before = true ∧
      row = { before with claimId := some claimId, claimExpiresAt := some expiresAt } := by
  unfold CredentialWorld.claims? at h
  split at h
  · cases h
  · rename_i before hbefore
    split at h
    · rename_i claimed hclaimed
      subst h
      obtain ⟨expiresAt, -, hdone⟩ := bind_eq_ok.mp hclaimed
      split at hdone
      · rename_i hclaimable
        obtain ⟨plain, -, hpure⟩ := bind_eq_ok.mp hdone
        have hpair := Option.some.inj (pure_eq_ok.mp hpure)
        exact ⟨before, expiresAt, hbefore, hclaimable, (congrArg Prod.fst hpair).symm⟩
      · exact absurd (pure_eq_ok.mp hdone) (by simp)
    · cases h

/-- Where a password can be claimed, every claim on it is over. -/
theorem Consistent.over_of_claimable (h : Consistent world) {box : SecretBox} {userId : Uuid}
    (hrow : world.row = some row)
    (hclaimable : claimable box world.server userId world.clock row = true) :
    world.sealings ∉ world.retired ∧ ∀ claim ∈ world.claims, claim.sealing = world.sealings →
      claim.claimId ∈ world.released ∨ claim.expiresAt ≤ world.clock := by
  simp only [claimable, Bool.and_eq_true] at hclaimable
  obtain ⟨⟨⟨-, hcipher⟩, -⟩, havailable⟩ := hclaimable
  have hkept : world.sealings ∉ world.retired := by
    intro hretired
    rw [h.erased hretired row hrow] at hcipher
    cases hcipher
  refine ⟨hkept, fun claim hclaim hsealing ↦ ?_⟩
  obtain hexpired | hreleased | hretired | ⟨other, hother, hid⟩ := h.ended claim hclaim hsealing
  · exact Or.inr hexpired
  · exact Or.inl hreleased
  · exact absurd hretired hkept
  · -- The row still holds the lease of this claim, so the lease has run out.
    rw [hrow, Option.some_inj] at hother
    subst hother
    obtain ⟨holder, hholder, hholderId, -, hexpires⟩ := h.leased row _ hrow hid
    obtain rfl := h.claim_unique hholder hclaim hholderId
    rw [claimAvailable, hid, hexpires] at havailable
    exact Or.inr (by simpa using havailable)

theorem Consistent.step (h : Consistent world) {event : CredentialEvent}
    (hfresh : Fresh world event) : Consistent (world.step event) := by
  cases event with
  | saveIssued box issued =>
    simp only [CredentialWorld.step]
    split
    · rename_i row hrow
      obtain ⟨inserted, hinserted, hrest⟩ := bind_eq_ok.mp hrow
      obtain ⟨-, hpure⟩ := rejectIf_bind_eq_ok.mp hrest
      obtain ⟨-, hsealed⟩ := rejectIf_bind_eq_ok.mp hinserted
      rw [← pure_eq_ok.mp hpure, ← pure_eq_ok.mp hsealed]
      exact h.seals rfl
    · exact h
  | replaceIssued box issued =>
    simp only [CredentialWorld.step]
    split
    · rename_i row hrow
      obtain ⟨-, hsealed⟩ := rejectIf_bind_eq_ok.mp hrow
      rw [← pure_eq_ok.mp hsealed]
      exact h.seals rfl
    · exact h
  | invalidateForOwner userId providerServerId =>
    simp only [CredentialWorld.step]
    split
    · exact h.retires _
    · exact h
  | ackForOwner userId claimId =>
    simp only [CredentialWorld.step]
    split
    · exact h.retires _
    · exact h
  | claimForOwner box userId claimId =>
    simp only [CredentialWorld.step]
    split
    · rename_i row password hclaimed
      obtain ⟨before, expiresAt, hbefore, hclaimable, rfl⟩ :=
        CredentialWorld.claims?_eq_some hclaimed
      obtain ⟨hkept, hover⟩ := h.over_of_claimable hbefore hclaimable
      refine ⟨fun claim hclaim ↦ ?_, h.retired, ?_, fun row id hrow hid ↦ ?_,
        fun claim hclaim hsealing ↦ ?_, fun hretired ↦ absurd hretired hkept⟩
      · cases List.mem_append.mp hclaim with
        | inl hold => exact h.sealing claim hold
        | inr hnew =>
          obtain rfl := List.mem_singleton.mp hnew
          exact le_rfl
      · rw [List.map_append]
        exact List.Nodup.append h.unique (List.nodup_singleton _)
          (List.disjoint_singleton.mpr (hfresh claimId rfl))
      · obtain rfl := Option.some.inj hrow
        obtain rfl := Option.some.inj hid
        exact ⟨_, List.mem_append_right _ (List.mem_singleton_self _), rfl, rfl, rfl⟩
      · cases List.mem_append.mp hclaim with
        | inl hold =>
          cases hover claim hold hsealing with
          | inl hreleased => exact Or.inr (Or.inl hreleased)
          | inr hexpired => exact Or.inl hexpired
        | inr hnew =>
          obtain rfl := List.mem_singleton.mp hnew
          exact Or.inr (Or.inr (Or.inr ⟨_, rfl, rfl⟩))
    · exact h
  | releaseForOwner userId claimId =>
    simp only [CredentialWorld.step]
    split
    · rename_i row hrow
      obtain ⟨hrow, hreleases⟩ := Option.filter_eq_some_iff.mp hrow
      have hid : row.claimId = some claimId := by
        rw [releases, Bool.and_eq_true, decide_eq_true_iff] at hreleases
        exact hreleases.1
      refine ⟨h.sealing, h.retired, h.unique, fun other id hother hotherId ↦ ?_,
        fun claim hclaim hsealing ↦ ?_, fun hretired other hother ↦ ?_⟩
      · obtain rfl := Option.some.inj hother
        cases hotherId
      · obtain hexpired | hreleased | hretired | ⟨other, hother, hotherId⟩ :=
          h.ended claim hclaim hsealing
        · exact Or.inl hexpired
        · exact Or.inr (Or.inl (List.mem_append_left _ hreleased))
        · exact Or.inr (Or.inr (Or.inl hretired))
        · rw [hrow, Option.some_inj] at hother
          subst hother
          rw [hid, Option.some_inj] at hotherId
          subst hotherId
          exact Or.inr (Or.inl (List.mem_append_right _ (List.mem_singleton_self _)))
      · obtain rfl := Option.some.inj hother
        exact h.erased hretired row hrow
    · exact h
  | serverChanges server => exact ⟨h.sealing, h.retired, h.unique, h.leased, h.ended, h.erased⟩
  | passes duration =>
    refine ⟨h.sealing, h.retired, h.unique, h.leased, fun claim hclaim hsealing ↦ ?_, h.erased⟩
    cases h.ended claim hclaim hsealing with
    | inl hexpired =>
      left
      change claim.expiresAt ≤ world.clock + duration
      omega
    | inr hother => exact Or.inr hother

end Steps

/-! ### Every run -/

/-- What an event meets: a password is returned to the owner of the live server at the provider, on
a lease that no other claim on the password has, and not again once it was acknowledged or
invalidated; a replayed sealing replaces nothing; and a late end of a claim on an older password
changes nothing. -/
structure Delivers (world : CredentialWorld) (event : CredentialEvent) : Prop where
  owner : ∀ userId password, world.returned event = some (userId, password) →
    ∃ row, world.row = some row ∧ world.server.userId = userId ∧ world.server.deletedAt = none ∧
      world.server.providerServerId = some row.providerServerId
  alone : (world.returned event).isSome → ∀ claim ∈ world.claims, claim.sealing = world.sealings →
    claim.claimId ∈ world.released ∨ claim.expiresAt ≤ world.clock
  once : (world.returned event).isSome → world.sealings ∉ world.retired
  saved : ∀ box issued, event = .saveIssued box issued → world.row.isSome → world.step event = world
  late : ∀ claim ∈ world.claims, event.finishes = some claim.claimId →
    claim.sealing ≠ world.sealings → world.step event = world

section Runs

variable {world : CredentialWorld}

/-- A password is returned by a claim that finds the row claimable. -/
theorem CredentialWorld.returned_eq_some {event : CredentialEvent} {userId : Uuid}
    {password : ClaimedCreatePassword} (h : world.returned event = some (userId, password)) :
    ∃ box row, world.row = some row ∧ claimable box world.server userId world.clock row = true := by
  cases event with
  | claimForOwner box user claimId =>
    obtain ⟨⟨after, claimed⟩, hclaimed, hpair⟩ := Option.map_eq_some_iff.mp h
    obtain ⟨rfl, -⟩ := Prod.mk.inj hpair
    obtain ⟨row, -, hrow, hclaimable, -⟩ := CredentialWorld.claims?_eq_some hclaimed
    exact ⟨box, row, hrow, hclaimable⟩
  | _ => cases h

/-- The claim of a lease that the row holds is on the password that the row holds. -/
theorem Consistent.row_ne_of_older (h : Consistent world) {claim : LeasedClaim}
    (hclaim : claim ∈ world.claims) (hne : claim.sealing ≠ world.sealings)
    {row : CredentialRow} (hrow : world.row = some row) : row.claimId ≠ some claim.claimId := by
  intro hid
  obtain ⟨other, hother, hotherId, hsealing, -⟩ := h.leased row _ hrow hid
  obtain rfl := h.claim_unique hother hclaim hotherId
  exact hne hsealing

theorem Consistent.delivers (h : Consistent world) (event : CredentialEvent) :
    Delivers world event where
  owner userId password hreturned := by
    obtain ⟨box, row, hrow, hclaimable⟩ := CredentialWorld.returned_eq_some hreturned
    simp only [claimable, ownerMatches, Bool.and_eq_true, decide_eq_true_eq,
      Option.isNone_iff_eq_none] at hclaimable
    exact ⟨row, hrow, hclaimable.1.2.1.1, hclaimable.1.2.1.2, hclaimable.1.2.2⟩
  alone hreturned := by
    obtain ⟨⟨userId, password⟩, hreturned⟩ := Option.isSome_iff_exists.mp hreturned
    obtain ⟨box, row, hrow, hclaimable⟩ := CredentialWorld.returned_eq_some hreturned
    exact (h.over_of_claimable hrow hclaimable).2
  once hreturned := by
    obtain ⟨⟨userId, password⟩, hreturned⟩ := Option.isSome_iff_exists.mp hreturned
    obtain ⟨box, row, hrow, hclaimable⟩ := CredentialWorld.returned_eq_some hreturned
    exact (h.over_of_claimable hrow hclaimable).1
  saved box issued hevent hrow := by
    subst hevent
    simp only [CredentialWorld.step]
    split
    · rename_i row hsaved
      obtain ⟨inserted, -, hrest⟩ := bind_eq_ok.mp hsaved
      obtain ⟨hnone, -⟩ := rejectIf_bind_eq_ok.mp hrest
      rw [hrow] at hnone
      cases hnone
    · rfl
  late claim hclaim hfinishes hne := by
    cases event with
    | ackForOwner userId claimId =>
      obtain rfl := Option.some.inj hfinishes
      simp only [CredentialWorld.step]
      split
      · rename_i row hrow
        obtain ⟨hrow, hacknowledges⟩ := Option.filter_eq_some_iff.mp hrow
        simp only [acknowledges, Bool.and_eq_true, decide_eq_true_eq] at hacknowledges
        exact absurd hacknowledges.1.1 (h.row_ne_of_older hclaim hne hrow)
      · rfl
    | releaseForOwner userId claimId =>
      obtain rfl := Option.some.inj hfinishes
      simp only [CredentialWorld.step]
      split
      · rename_i row hrow
        obtain ⟨hrow, hreleases⟩ := Option.filter_eq_some_iff.mp hrow
        simp only [releases, Bool.and_eq_true, decide_eq_true_eq] at hreleases
        exact absurd hreleases.1 (h.row_ne_of_older hclaim hne hrow)
      · rfl
    | _ => cases hfinishes

/-- What an event adds to the claims is the claim id that it draws. -/
theorem CredentialWorld.mem_claims_step {event : CredentialEvent} {claimId : Uuid}
    (h : claimId ∈ (world.step event).claims.map (·.claimId)) :
    claimId ∈ world.claims.map (·.claimId) ∨ event.drawn = some claimId := by
  cases event with
  | claimForOwner box userId drawn =>
    simp only [CredentialWorld.step] at h
    split at h
    · rw [List.map_append, List.mem_append] at h
      cases h with
      | inl hold => exact Or.inl hold
      | inr hnew => exact Or.inr (congrArg some (List.mem_singleton.mp hnew).symm)
    · exact Or.inl h
  | serverChanges server => exact Or.inl h
  | passes duration => exact Or.inl h
  | _ =>
    simp only [CredentialWorld.step] at h
    split at h
    · exact Or.inl h
    · exact Or.inl h

/-- Claim ids that are all distinct are new when they are drawn. -/
theorem along_fresh (events : List CredentialEvent) :
    ∀ world : CredentialWorld, (events.filterMap CredentialEvent.drawn).Nodup →
      (∀ claimId ∈ events.filterMap CredentialEvent.drawn, claimId ∉ world.claims.map (·.claimId)) →
      Along CredentialWorld.step Fresh world events := by
  induction events with
  | nil => exact fun _ _ _ ↦ trivial
  | cons event rest ih =>
    intro world hnodup hnew
    cases hdrawn : event.drawn with
    | none =>
      rw [List.filterMap_cons_none hdrawn] at hnodup hnew
      refine ⟨fun claimId h ↦ ?_, ih _ hnodup fun claimId hmem hclaims ↦ ?_⟩
      · rw [hdrawn] at h
        cases h
      · cases CredentialWorld.mem_claims_step hclaims with
        | inl hold => exact hnew claimId hmem hold
        | inr hsame =>
          rw [hdrawn] at hsame
          cases hsame
    | some first =>
      rw [List.filterMap_cons_some hdrawn] at hnodup hnew
      obtain ⟨hfirst, hrest⟩ := List.nodup_cons.mp hnodup
      refine ⟨fun claimId h ↦ ?_, ih _ hrest fun claimId hmem hclaims ↦ ?_⟩
      · rw [hdrawn, Option.some_inj] at h
        exact h ▸ hnew first List.mem_cons_self
      · cases CredentialWorld.mem_claims_step hclaims with
        | inl hold => exact hnew claimId (List.mem_cons_of_mem _ hmem) hold
        | inr hsame =>
          rw [hdrawn, Option.some_inj] at hsame
          exact hfirst (hsame ▸ hmem)

end Runs

/-- A server that has no credential yet. -/
def unissued (server : ServerRow) (clock : ℤ) : CredentialWorld where
  server := server
  clock := clock

theorem consistent_unissued (server : ServerRow) (clock : ℤ) :
    Consistent (unissued server clock) where
  sealing _ h := absurd h List.not_mem_nil
  retired _ h := absurd h List.not_mem_nil
  unique := List.nodup_nil
  leased _ _ h := nomatch h
  ended _ h := absurd h List.not_mem_nil
  erased h := absurd h List.not_mem_nil

/-- In every run whose claim ids are distinct, every event delivers. -/
theorem delivers_run (server : ServerRow) (clock : ℤ) (events : List CredentialEvent)
    (hdrawn : (events.filterMap CredentialEvent.drawn).Nodup) :
    Along CredentialWorld.step Delivers (unissued server clock) events :=
  along_of_along (fun _ _ h hfresh ↦ h.step hfresh) (fun _ event h _ ↦ h.delivers event) events _
    (consistent_unissued server clock)
    (along_fresh events _ hdrawn fun _ _ hmem ↦ absurd hmem List.not_mem_nil)

/-! ### A password that is replaced while it is leased -/

def customerId : Uuid :=
  ⟨"00000000-0000-0000-0000-0000000000c0", .refl true⟩

def firstClaim : Uuid :=
  ⟨"00000000-0000-0000-0000-000000000001", .refl true⟩

def secondClaim : Uuid :=
  ⟨"00000000-0000-0000-0000-000000000002", .refl true⟩

/-- A box whose tokens are the texts themselves. -/
def plainBox : SecretBox where
  keyId := "key"
  encrypt text _ := text
  decrypt envelope := .ok envelope.token

def soldServer : ServerRow where
  userId := customerId
  providerServerId := some "vps-1"

/-- The owner claims the first password, it is reset, the owner claims the new one, and only then
acknowledges the first claim. -/
def resetWhileLeased : List CredentialEvent :=
  [.saveIssued plainBox { providerServerId := "vps-1", password := "old" },
    .claimForOwner plainBox customerId firstClaim,
    .replaceIssued plainBox { providerServerId := "vps-1", password := "new" },
    .claimForOwner plainBox customerId secondClaim, .ackForOwner customerId firstClaim]

theorem delivers_resetWhileLeased :
    Along CredentialWorld.step Delivers (unissued soldServer 0) resetWhileLeased :=
  delivers_run soldServer 0 resetWhileLeased (by decide +kernel)

/-- No password is returned while an earlier claim, neither released nor acknowledged, is leased. -/
def AloneAtAll (world : CredentialWorld) (event : CredentialEvent) : Prop :=
  (world.returned event).isSome → ∀ claim ∈ world.claims, claim.claimId ∈ world.released ∨
    claim.sealing ∈ world.retired ∨ claim.expiresAt ≤ world.clock

/-- The claim on the old password is still leased when the new one is claimed. -/
theorem not_aloneAtAll_resetWhileLeased :
    ¬ Along CredentialWorld.step AloneAtAll (unissued soldServer 0) resetWhileLeased := by
  intro h
  have hsecond := h.2.2.2.1 (by decide +kernel) ⟨firstClaim, 1, 300 * Calendar.second⟩
  exact absurd (hsecond (by decide +kernel)) (by decide +kernel)

end CloudPlatform.Hourly
