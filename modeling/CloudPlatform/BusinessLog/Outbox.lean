import CloudPlatform.Billing.Domain
import CloudPlatform.Core.Json

/-!
# The rows of the business-log outbox

One row an event, unique by its key, and the statements of the repository on it. `claimDue` is the
only one that looks at the status of a row: the three verdicts are written wherever their key is.
`claimDue_eq_ok` says what a claim leaves and what it returns.
-/

namespace CloudPlatform.BusinessLog

open Billing (addSeconds addSeconds_eq_ok)
open Calendar (second)
open Rows (Table)

inductive EventStatus
  | pending
  | sending
  | sent
  | retry
  | abandoned
  deriving DecidableEq

/-- `SENT` and `ABANDONED`. -/
def EventStatus.isTerminal : EventStatus → Bool
  | sent | abandoned => true
  | pending | sending | retry => false

/-- A row of the outbox. -/
structure EventRow where
  eventKey : String
  eventType : String
  payload : JsonObject
  status : EventStatus
  createdAt : ℤ
  claimedAt : Option ℤ := none
  nextAttemptAt : Option ℤ := none
  attempts : ℕ := 0
  sentAt : Option ℤ := none
  lastError : Option String := none

/-- One attempt at the delivery of an event: the key of the row and the number that the claim gave
to it. -/
structure Claim where
  eventKey : String
  attempts : ℕ
  deriving DecidableEq

/-- A row that was claimed for delivery. -/
structure BusinessLogRecord where
  eventKey : String
  eventType : String
  payload : JsonObject
  status : EventStatus
  createdAt : ℤ
  sentAt : Option ℤ
  attempts : ℕ
  lastError : Option String

def BusinessLogRecord.claim (record : BusinessLogRecord) : Claim where
  eventKey := record.eventKey
  attempts := record.attempts

/-- The type of the customer's card. -/
def customerProvisioned : String :=
  "customer.server_provisioned"

namespace EventRow

/-- `_to_record`. -/
def toRecord (row : EventRow) : BusinessLogRecord where
  eventKey := row.eventKey
  eventType := row.eventType
  payload := row.payload
  status := row.status
  createdAt := row.createdAt
  sentAt := row.sentAt
  attempts := row.attempts
  lastError := row.lastError

/-- The condition of a claim: a row whose attempt is due, or one whose claim went stale. -/
def claimable (row : EventRow) (now staleBefore : ℤ) (customerOnly : Bool) : Bool :=
  ((row.status = .pending || row.status = .retry) && row.nextAttemptAt.all (· ≤ now) ||
      row.status = .sending && row.claimedAt.any (· ≤ staleBefore)) &&
    (!customerOnly || row.eventType = customerProvisioned)

/-- The row once it is claimed. -/
def claimed (row : EventRow) (now : ℤ) : EventRow :=
  { row with status := .sending, claimedAt := some now, attempts := row.attempts + 1 }

@[simp] theorem claimed_eventKey (row : EventRow) (now : ℤ) :
    (row.claimed now).eventKey = row.eventKey :=
  rfl

/-- A row that is claimed is not settled. -/
theorem isTerminal_of_claimable {row : EventRow} {now staleBefore : ℤ} {customerOnly : Bool}
    (h : row.claimable now staleBefore customerOnly = true) : row.status.isTerminal = false := by
  cases hstatus : row.status <;> simp [claimable, hstatus] at h ⊢ <;> rfl

/-- Every row that is not settled can be claimed from some time on. -/
theorem exists_claimable {row : EventRow} (hterminal : row.status.isTerminal = false)
    (hclaimed : row.status = .sending → row.claimedAt.isSome) (staleAfterSeconds : ℤ) :
    ∃ start, ∀ now, start ≤ now →
      row.claimable now (now - staleAfterSeconds * second) false = true := by
  refine ⟨row.nextAttemptAt.getD 0 ⊔ (row.claimedAt.getD 0 + staleAfterSeconds * second),
    fun now hnow ↦ ?_⟩
  obtain ⟨hnext, hstale⟩ := sup_le_iff.mp hnow
  have hdue : row.nextAttemptAt.all (· ≤ now) = true := by
    cases hat : row.nextAttemptAt with
    | none => rfl
    | some next => simpa [hat] using hnext
  cases hstatus : row.status with
  | pending => simp [claimable, hstatus, hdue]
  | retry => simp [claimable, hstatus, hdue]
  | sending =>
    obtain ⟨since, hsince⟩ := Option.isSome_iff_exists.mp (hclaimed hstatus)
    have hle : since ≤ now - staleAfterSeconds * second := by
      rw [hsince, Option.getD_some] at hstale
      omega
    simp [claimable, hstatus, hsince, hle]
  | sent =>
    rw [hstatus] at hterminal
    cases hterminal
  | abandoned =>
    rw [hstatus] at hterminal
    cases hterminal

end EventRow

/-- The table of the outbox. -/
abbrev OutboxRows := Table EventRow.eventKey

/-! ### Claims -/

/-- The arguments of `claim_due`. -/
structure ClaimOptions where
  limit : ℕ
  now : ℤ
  staleAfterSeconds : ℤ
  customerOnly : Bool := false

section Claiming

variable (now staleBefore : ℤ) (customerOnly : Bool)

/-- The keys that `claim_due` selects. -/
def dueKeys (limit : ℕ) (rows : OutboxRows) : List String :=
  (((rows.rows.filter (·.claimable now staleBefore customerOnly)).mergeSort
    (·.createdAt ≤ ·.createdAt)).take limit).map (·.eventKey)

/-- The conditional update of one selected key, and the record that it adds. -/
def claimKey (state : OutboxRows × List BusinessLogRecord) (key : String) :
    OutboxRows × List BusinessLogRecord :=
  match state.1.get key with
  | some row =>
    if row.claimable now staleBefore customerOnly then
      (state.1.put (row.claimed now), state.2 ++ [(row.claimed now).toRecord])
    else state
  | none => state

end Claiming

/-- `claim_due`. -/
def claimDue (rows : OutboxRows) (options : ClaimOptions) :
    Result (OutboxRows × List BusinessLogRecord) := do
  let staleBefore ← addSeconds options.now (-options.staleAfterSeconds)
  let keys := dueKeys options.now staleBefore options.customerOnly options.limit rows
  return keys.foldl (claimKey options.now staleBefore options.customerOnly) (rows, [])

section Claiming

variable {now staleBefore : ℤ} {customerOnly : Bool}

/-- What one conditional update leaves at a key. -/
theorem get_claimKey (state : OutboxRows × List BusinessLogRecord) (key k : String) :
    (claimKey now staleBefore customerOnly state key).1.get k =
      if key = k then (state.1.get k).map fun row ↦
        if row.claimable now staleBefore customerOnly then row.claimed now else row
      else state.1.get k := by
  unfold claimKey
  by_cases hkey : key = k
  · subst hkey
    rw [if_pos rfl]
    cases hrow : state.1.get key with
    | none => exact hrow
    | some row =>
      have hrowKey : row.eventKey = key := Table.key_of_get hrow
      rw [Option.map_some]
      dsimp only
      split
      · rw [Table.get_put, if_pos (by rw [EventRow.claimed_eventKey, hrowKey])]
      · exact hrow
  · rw [if_neg hkey]
    cases hrow : state.1.get key with
    | none => rfl
    | some row =>
      have hrowKey : row.eventKey = key := Table.key_of_get hrow
      dsimp only
      split
      · rw [Table.get_put, if_neg (by rwa [EventRow.claimed_eventKey, hrowKey])]
      · rfl

/-- The record that the claim of a key adds, if the row can be claimed. -/
def claimedRecord (now staleBefore : ℤ) (customerOnly : Bool) (rows : OutboxRows) (key : String) :
    Option BusinessLogRecord :=
  ((rows.get key).filter (·.claimable now staleBefore customerOnly)).map
    fun row ↦ (row.claimed now).toRecord

theorem claimedRecord_of_claimable {rows : OutboxRows} {key : String} {row : EventRow}
    (hrow : rows.get key = some row) (h : row.claimable now staleBefore customerOnly = true) :
    claimedRecord now staleBefore customerOnly rows key = some (row.claimed now).toRecord := by
  simp [claimedRecord, hrow, Option.filter, h]

theorem records_claimKey (state : OutboxRows × List BusinessLogRecord) (key : String) :
    (claimKey now staleBefore customerOnly state key).2 =
      state.2 ++ (claimedRecord now staleBefore customerOnly state.1 key).toList := by
  unfold claimKey claimedRecord
  cases state.1.get key with
  | none => simp
  | some row =>
    by_cases h : row.claimable now staleBefore customerOnly
    · simp [Option.filter, h]
    · simp [Option.filter, h]

/-- What the loop over the selected keys leaves. -/
theorem foldl_claimKey {keys : List String} (hnodup : keys.Nodup) :
    ∀ state : OutboxRows × List BusinessLogRecord,
      (∀ k, (keys.foldl (claimKey now staleBefore customerOnly) state).1.get k =
        if k ∈ keys then (state.1.get k).map fun row ↦
          if row.claimable now staleBefore customerOnly then row.claimed now else row
        else state.1.get k) ∧ (keys.foldl (claimKey now staleBefore customerOnly) state).2 =
        state.2 ++ keys.filterMap (claimedRecord now staleBefore customerOnly state.1) := by
  induction keys with
  | nil => simp
  | cons key rest ih =>
    intro state
    obtain ⟨hkey, hrest⟩ := List.nodup_cons.mp hnodup
    obtain ⟨hget, hrecords⟩ := ih hrest (claimKey now staleBefore customerOnly state key)
    rw [List.foldl_cons]
    constructor
    · intro k
      rw [hget, get_claimKey]
      by_cases hk : key = k
      · subst hk
        rw [if_neg hkey, if_pos rfl, if_pos List.mem_cons_self]
      · have hmem : k ∈ key :: rest ↔ k ∈ rest := by
          rw [List.mem_cons, or_iff_right (Ne.symm hk)]
        simp only [hk, if_false, hmem]
    · have hsame : rest.filterMap (claimedRecord now staleBefore customerOnly
            (claimKey now staleBefore customerOnly state key).1) =
          rest.filterMap (claimedRecord now staleBefore customerOnly state.1) := by
        refine List.filterMap_congr fun k hk ↦ ?_
        have hne : key ≠ k := fun heq ↦ hkey (heq ▸ hk)
        rw [claimedRecord, claimedRecord, get_claimKey, if_neg hne]
      rw [hrecords, records_claimKey, hsame, List.append_assoc]
      cases hrecord : claimedRecord now staleBefore customerOnly state.1 key with
      | none => rw [List.filterMap_cons_none hrecord]; rfl
      | some record => rw [List.filterMap_cons_some hrecord]; rfl

theorem nodup_dueKeys (limit : ℕ) (rows : OutboxRows) :
    (dueKeys now staleBefore customerOnly limit rows).Nodup := by
  have hsub : (rows.rows.filter (·.claimable now staleBefore customerOnly)).map (·.eventKey)
      |>.Nodup := rows.unique.sublist (List.filter_sublist.map _)
  have hperm := (List.mergeSort_perm
    (rows.rows.filter (·.claimable now staleBefore customerOnly))
    (·.createdAt ≤ ·.createdAt)).map (·.eventKey)
  exact (hperm.nodup_iff.mpr hsub).sublist ((List.take_sublist _ _).map _)

/-- A selected key has a row that can be claimed. -/
theorem exists_of_mem_dueKeys {limit : ℕ} {rows : OutboxRows} {key : String}
    (h : key ∈ dueKeys now staleBefore customerOnly limit rows) :
    ∃ row, rows.get key = some row ∧ row.claimable now staleBefore customerOnly = true := by
  obtain ⟨row, hrow, rfl⟩ := List.mem_map.mp h
  have hmem := List.mem_mergeSort.mp (List.mem_of_mem_take hrow)
  obtain ⟨hrows, hclaimable⟩ := List.mem_filter.mp hmem
  exact ⟨row, Table.mem_iff_get.mp hrows, hclaimable⟩

end Claiming

/-- What a claim leaves and returns: the rows of the selected keys are claimed, the others stay, and
the records are those of the claimed rows. -/
structure ClaimsTo (rows : OutboxRows) (now staleBefore : ℤ) (customerOnly : Bool)
    (after : OutboxRows) (records : List BusinessLogRecord) : Prop where
  nodup : (records.map (·.eventKey)).Nodup
  claimed : ∀ record ∈ records, ∃ row, rows.get record.eventKey = some row ∧
    row.claimable now staleBefore customerOnly = true ∧
    after.get record.eventKey = some (row.claimed now) ∧ record = (row.claimed now).toRecord
  others : ∀ key, key ∉ records.map (·.eventKey) → after.get key = rows.get key

theorem claimDue_eq_ok {rows after : OutboxRows} {options : ClaimOptions}
    {records : List BusinessLogRecord} (h : claimDue rows options = .ok (after, records)) :
    ClaimsTo rows options.now (options.now - options.staleAfterSeconds * second)
      options.customerOnly after records := by
  obtain ⟨staleBefore, hstale, hdone⟩ := bind_eq_ok.mp h
  have hbefore : staleBefore = options.now - options.staleAfterSeconds * second := by
    rw [addSeconds_eq_ok hstale, Int.neg_mul, Int.sub_eq_add_neg]
  rw [← hbefore]
  have hnodup : (dueKeys options.now staleBefore options.customerOnly options.limit rows).Nodup :=
    nodup_dueKeys options.limit rows
  have hloop := @foldl_claimKey options.now staleBefore options.customerOnly _ hnodup (rows, [])
  rw [pure_eq_ok.mp hdone] at hloop
  obtain ⟨hget, hrecords⟩ := hloop
  dsimp only at hget hrecords
  rw [List.nil_append] at hrecords
  have hkeys : records.map (·.eventKey) =
      dueKeys options.now staleBefore options.customerOnly options.limit rows := by
    rw [hrecords, List.map_filterMap]
    refine (List.filterMap_congr fun key hkey ↦ ?_).trans List.filterMap_some
    obtain ⟨row, hrow, hclaimable⟩ := exists_of_mem_dueKeys hkey
    have hrowKey : row.eventKey = key := Table.key_of_get hrow
    rw [claimedRecord_of_claimable hrow hclaimable, Option.map_some, ← hrowKey]
    rfl
  refine ⟨hkeys ▸ nodup_dueKeys _ _, fun record hrecord ↦ ?_, fun key hkey ↦ ?_⟩
  · have hmem : record.eventKey ∈
        dueKeys options.now staleBefore options.customerOnly options.limit rows :=
      hkeys ▸ List.mem_map_of_mem hrecord
    obtain ⟨row, hrow, hclaimable⟩ := exists_of_mem_dueKeys hmem
    refine ⟨row, hrow, hclaimable, ?_, ?_⟩
    · rw [hget, if_pos hmem, hrow, Option.map_some, if_pos hclaimable]
    · rw [hrecords, List.mem_filterMap] at hrecord
      obtain ⟨key, hkey, hsome⟩ := hrecord
      obtain ⟨other, hother, hclaims⟩ := exists_of_mem_dueKeys hkey
      have hotherKey : other.eventKey = key := Table.key_of_get hother
      rw [claimedRecord_of_claimable hother hclaims, Option.some_inj] at hsome
      have hsame : record.eventKey = key := by
        rw [← hsome, ← hotherKey]
        rfl
      rw [hsame, hother, Option.some_inj] at hrow
      rw [← hsome, hrow]
  · rw [hget, if_neg (hkeys ▸ hkey)]

end CloudPlatform.BusinessLog
