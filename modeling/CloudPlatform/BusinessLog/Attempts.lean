import CloudPlatform.BusinessLog.Dispatcher
import CloudPlatform.Transition.Protocol

/-!
# Attempts at a delivery

A claim gives its row the next number, so the claims of all workers are distinct, and a pass sends
at most one message for a claim that it holds. `Kept` is the invariant of the journals, `conduct`
the protocol that the passes follow with the claims that they hold, and `conduct_sound` says that
its calls keep both.
-/

namespace CloudPlatform.BusinessLog

open Rows (Table)
open Transition

namespace OutboxWorld

/-- The claims of an event. -/
def claimsOf (world : OutboxWorld) (key : String) : List MadeClaim :=
  world.claims.filter (·.claim.eventKey = key)

/-- The messages that were sent for an event. -/
def sendsOf (world : OutboxWorld) (key : String) : List Claim :=
  world.sends.filter (·.eventKey = key)

end OutboxWorld

/-! ### Claims and messages -/

/-- What every reachable state keeps: claims are numbered apart, a message was sent for a claim
within the limit and for no claim twice, and a row that is being sent knows since when. -/
structure Kept (limit : ℕ) (world : OutboxWorld) : Prop where
  claimed : ∀ made ∈ world.claims, ∃ row, world.outbox.get made.claim.eventKey = some row ∧
    made.claim.attempts ≤ row.attempts
  numbered : (world.claims.map (·.claim)).Nodup
  sent : ∀ attempt ∈ world.sends, (∃ worker, ⟨attempt, worker⟩ ∈ world.claims) ∧
    1 ≤ attempt.attempts ∧ attempt.attempts ≤ limit
  sentOnce : world.sends.Nodup
  sending : ∀ key row, world.outbox.get key = some row → row.status = .sending →
    row.claimedAt.isSome

/-- The claims that a worker holds: they are its own, and no message was sent for them. -/
def Holds (worker : ℕ) (world : OutboxWorld) (held : List Claim) : Prop :=
  ∀ attempt ∈ held, ⟨attempt, worker⟩ ∈ world.claims ∧ attempt ∉ world.sends

/-- A worker sends a message only for a claim that it holds, within the limit. -/
def MaySend (limit : ℕ) (held : List Claim) (attempt : Claim) : Prop :=
  attempt ∈ held ∧ 1 ≤ attempt.attempts ∧ attempt.attempts ≤ limit

/-- The protocol of the passes. -/
def conduct (limit : ℕ) : Protocol Raised OutboxCall OutboxCall.Out (List Claim) where
  permits
    | held, .send attempt _ | held, .sendCustomer attempt .. => MaySend limit held attempt
    | _, _ => True
  truthful
    | .claimDue _, .ok records =>
      (records.map (·.eventKey)).Nodup ∧ ∀ record ∈ records, 1 ≤ record.attempts
    | _, _ => True
  learns
    | held, .claimDue _, .ok records => held ++ records.map (·.claim)
    | held, .send attempt _, _ | held, .sendCustomer attempt .., _ => held.filter (· ≠ attempt)
    | held, _, _ => held

section Passes

variable {policy : BusinessLogPolicy} {texts : BusinessLogTexts} {users : Bool}

variable {held : List Claim}

/-- What a worker holds after a message of another event. -/
theorem mem_filter_of_ne {attempt other : Claim} (hmem : other ∈ held)
    (hne : other.eventKey ≠ attempt.eventKey) : other ∈ held.filter (· ≠ attempt) := by
  refine List.mem_filter.mpr ⟨hmem, decide_eq_true fun heq ↦ hne ?_⟩
  rw [heq]

/-- A record whose message is sent keeps the claims of the other events. -/
theorem follows_dispatch {record : BusinessLogRecord}
    (hrecord : MaySend policy.maxAttempts held record.claim) : Follows (conduct policy.maxAttempts)
      (fun _ after ↦ ∀ other ∈ held, other.eventKey ≠ record.eventKey → other ∈ after)
      (dispatch texts users record) held := by
  have hsame : ∀ other ∈ held, other.eventKey ≠ record.eventKey → other ∈ held := fun _ h _ ↦ h
  unfold dispatch
  split
  · unfold deliverCustomer
    refine follows_lift (fun _ _ ↦ ?_) fun _ _ ↦ hsame
    refine follows_lift (fun userId _ ↦ ?_) fun _ _ ↦ hsame
    refine follows_perform trivial (fun user _ ↦ ?_) fun _ _ ↦ hsame
    refine follows_lift (fun chatId _ ↦ ?_) fun _ _ ↦ hsame
    refine follows_lift (fun text _ ↦ ?_) fun _ _ ↦ hsame
    exact follows_last hrecord fun _ _ other hmem hne ↦ mem_filter_of_ne hmem hne
  · unfold deliverOperator
    refine follows_lift (fun text _ ↦ ?_) fun _ _ ↦ hsame
    exact follows_last hrecord fun _ _ other hmem hne ↦ mem_filter_of_ne hmem hne

theorem follows_deliverRecord {moment : ℤ} {record : BusinessLogRecord} {report : DeliveryReport}
    (hmem : record.claim ∈ held) (hattempts : 1 ≤ record.attempts) :
    Follows (conduct policy.maxAttempts)
      (Returns fun _ after ↦ ∀ other ∈ held, other.eventKey ≠ record.eventKey → other ∈ after)
      (deliverRecord policy texts users moment record report) held := by
  unfold deliverRecord
  split
  · exact follows_returns_perform trivial fun _ _ ↦ follows_pure fun _ h _ ↦ h
  · rename_i hwithin
    refine follows_attempt ((follows_dispatch ⟨hmem, hattempts, not_lt.mp hwithin⟩).mono ?_)
    intro outcome after hkept
    cases outcome with
    | error raised =>
      unfold putOff
      refine follows_returns_lift fun nextAttemptAt _ ↦ ?_
      exact follows_returns_perform trivial fun _ _ ↦ follows_pure hkept
    | ok sent => exact follows_returns_perform trivial fun _ _ ↦ follows_pure hkept

/-- The loop over the records holds the claims of those that are to come. -/
theorem follows_deliverRecords {moment : ℤ} (records : List BusinessLogRecord) :
    ∀ (report : DeliveryReport) (held : List Claim), (records.map (·.eventKey)).Nodup →
      (∀ record ∈ records, record.claim ∈ held ∧ 1 ≤ record.attempts) →
      Follows (conduct policy.maxAttempts) (Returns fun _ _ ↦ True)
        (deliverRecords policy texts users moment records report) held := by
  induction records with
  | nil => exact fun _ _ _ _ ↦ trivial
  | cons record rest ih =>
    intro report held hnodup hheld
    obtain ⟨hkey, hrest⟩ := List.nodup_cons.mp hnodup
    obtain ⟨hmem, hattempts⟩ := hheld record List.mem_cons_self
    refine follows_returns_bind (follows_deliverRecord hmem hattempts) fun report after hkept ↦ ?_
    refine ih report after hrest fun other hother ↦ ?_
    obtain ⟨hotherMem, hotherAttempts⟩ := hheld other (List.mem_cons_of_mem _ hother)
    refine ⟨hkept other.claim hotherMem fun heq ↦ hkey ?_, hotherAttempts⟩
    exact List.mem_map.mpr ⟨other, hother, heq⟩

/-- Every program of the outbox follows the protocol. -/
theorem follows_program (entry : OutboxEntry) :
    Follows (conduct policy.maxAttempts) (fun _ _ ↦ True) (entry.program policy texts) [] := by
  suffices hreturns : Follows (conduct policy.maxAttempts) (Returns fun _ _ ↦ True)
      (entry.program policy texts) [] from hreturns.mono fun _ _ _ ↦ trivial
  cases entry with
  | enqueue event => exact follows_returns_perform trivial fun _ _ ↦ trivial
  | deliver delivery =>
    have hdeliver : Follows (conduct policy.maxAttempts) (Returns fun _ _ ↦ True)
        (deliver policy texts delivery) [] := by
      unfold deliver
      split
      · exact trivial
      have hmoment : Follows (conduct policy.maxAttempts) (Returns fun _ held ↦ held = [])
          (momentOf delivery.now) [] := by
        cases delivery.now with
        | some moment => exact rfl
        | none => exact follows_last trivial fun reply _ ↦ by cases reply <;> trivial
      refine follows_returns_bind hmoment ?_
      rintro moment held rfl
      refine follows_returns_perform trivial fun records hrecords ↦ ?_
      refine follows_deliverRecords records {} _ hrecords.1 fun record hrecord ↦ ?_
      exact ⟨List.mem_append_right _ (List.mem_map_of_mem hrecord), hrecords.2 record hrecord⟩
    exact follows_returns_bind hdeliver fun _ _ _ ↦ trivial

end Passes

/-! ### What the calls keep -/

section Calls

variable {limit worker : ℕ} {world : OutboxWorld} {held : List Claim}

theorem Kept.enqueue (h : Kept limit world) {row : EventRow}
    (hnone : world.outbox.get row.eventKey = none) (hpending : row.status = .pending) :
    Kept limit { world with outbox := world.outbox.put row } := by
  refine ⟨fun made hmade ↦ ?_, h.numbered, h.sent, h.sentOnce, fun key other hother hsending ↦ ?_⟩
  · obtain ⟨before, hbefore, hle⟩ := h.claimed made hmade
    have hne : row.eventKey ≠ made.claim.eventKey := by
      intro heq
      rw [← heq, hnone] at hbefore
      cases hbefore
    exact ⟨before, by rw [Table.get_put_of_ne _ hne, hbefore], hle⟩
  · rw [Table.get_put] at hother
    split at hother
    · obtain rfl := Option.some.inj hother
      rw [hpending] at hsending
      cases hsending
    · exact h.sending key other hother hsending

theorem Kept.writeVerdict (h : Kept limit world) (key : String) {verdict : EventRow → EventRow}
    {hkey : ∀ row, (verdict row).eventKey = row.eventKey}
    (hattempts : ∀ row, (verdict row).attempts = row.attempts)
    (hstatus : ∀ row, (verdict row).status ≠ .sending) :
    Kept limit { world with outbox := writeVerdict world.outbox key verdict hkey } := by
  refine ⟨fun made hmade ↦ ?_, h.numbered, h.sent, h.sentOnce, fun k row hrow hsending ↦ ?_⟩
  · obtain ⟨before, hbefore, hle⟩ := h.claimed made hmade
    dsimp only
    rw [get_writeVerdict, hbefore]
    split
    · exact ⟨verdict before, rfl, (hattempts before).symm ▸ hle⟩
    · exact ⟨before, rfl, hle⟩
  · dsimp only at hrow
    rw [get_writeVerdict] at hrow
    split at hrow
    · obtain ⟨before, -, rfl⟩ := Option.map_eq_some_iff.mp hrow
      exact absurd hsending (hstatus before)
    · exact h.sending k row hrow hsending

variable {attempt : Claim}

theorem Kept.send (h : Kept limit world) (hholds : Holds worker world held)
    (hmay : MaySend limit held attempt) :
    Kept limit { world with sends := world.sends ++ [attempt] } := by
  obtain ⟨hmem, hpositive, hwithin⟩ := hmay
  obtain ⟨hmade, hunsent⟩ := hholds attempt hmem
  refine ⟨h.claimed, h.numbered, fun other hother ↦ ?_, ?_, h.sending⟩
  · cases List.mem_append.mp hother with
    | inl hbefore => exact h.sent other hbefore
    | inr hnew =>
      obtain rfl := List.mem_singleton.mp hnew
      exact ⟨⟨worker, hmade⟩, hpositive, hwithin⟩
  · exact List.Nodup.append h.sentOnce (List.nodup_singleton _)
      (List.disjoint_singleton.mpr hunsent)

/-- The claims of a row that is claimed have lower numbers than the new one. -/
theorem Kept.claimDue (h : Kept limit world) {rows : OutboxRows} {now staleBefore : ℤ}
    {customerOnly : Bool} {records : List BusinessLogRecord}
    (hclaims : ClaimsTo world.outbox now staleBefore customerOnly rows records) :
    Kept limit { world with
      outbox := rows
      claims := world.claims ++ records.map fun record ↦ ⟨record.claim, worker⟩ } := by
  have hnew : ∀ made ∈ world.claims, ∀ record ∈ records, made.claim ≠ record.claim := by
    intro made hmade record hrecord heq
    obtain ⟨before, hbefore, hle⟩ := h.claimed made hmade
    obtain ⟨row, hrow, -, -, hclaimed⟩ := hclaims.claimed record hrecord
    have hkey : made.claim.eventKey = record.eventKey := congrArg Claim.eventKey heq
    have hnumber : made.claim.attempts = row.attempts + 1 := by
      rw [heq, hclaimed]
      rfl
    rw [hkey, hrow, Option.some_inj] at hbefore
    rw [← hbefore] at hle
    omega
  have hclaimsNodup : (records.map (·.claim)).Nodup := by
    refine List.Nodup.of_map Claim.eventKey ?_
    rw [List.map_map]
    exact hclaims.nodup
  refine ⟨fun made hmade ↦ ?_, ?_, fun attempt hattempt ↦ ?_, h.sentOnce,
    fun key row hrow hsending ↦ ?_⟩
  · cases List.mem_append.mp hmade with
    | inl hold =>
      obtain ⟨before, hbefore, hle⟩ := h.claimed made hold
      by_cases hkey : made.claim.eventKey ∈ records.map (·.eventKey)
      · obtain ⟨record, hrecord, hsame⟩ := List.mem_map.mp hkey
        obtain ⟨row, hrow, -, hafter, -⟩ := hclaims.claimed record hrecord
        rw [hsame] at hrow hafter
        rw [hbefore, Option.some_inj] at hrow
        exact ⟨row.claimed now, hafter, hle.trans (hrow ▸ Nat.le_succ _)⟩
      · exact ⟨before, (hclaims.others _ hkey).trans hbefore, hle⟩
    | inr hmapped =>
      obtain ⟨record, hrecord, rfl⟩ := List.mem_map.mp hmapped
      obtain ⟨row, -, -, hafter, hclaimed⟩ := hclaims.claimed record hrecord
      refine ⟨row.claimed now, hafter, le_of_eq ?_⟩
      change record.attempts = _
      rw [hclaimed]
      rfl
  · rw [List.map_append, List.map_map]
    refine List.Nodup.append h.numbered hclaimsNodup ?_
    intro attempt hold hrecords
    obtain ⟨made, hmade, rfl⟩ := List.mem_map.mp hold
    obtain ⟨record, hrecord, heq⟩ := List.mem_map.mp hrecords
    exact hnew made hmade record hrecord heq.symm
  · obtain ⟨⟨other, hmade⟩, hbounds⟩ := h.sent attempt hattempt
    exact ⟨⟨other, List.mem_append_left _ hmade⟩, hbounds⟩
  · by_cases hkey : key ∈ records.map (·.eventKey)
    · obtain ⟨record, hrecord, rfl⟩ := List.mem_map.mp hkey
      obtain ⟨before, -, -, hafter, -⟩ := hclaims.claimed record hrecord
      dsimp only at hrow
      rw [hafter, Option.some_inj] at hrow
      rw [← hrow]
      rfl
    · exact h.sending key row ((hclaims.others key hkey).symm.trans hrow) hsending

/-- Claims that grow leave a worker what it holds. -/
theorem Holds.mono {after : OutboxWorld} (h : Holds worker world held)
    (hclaims : ∀ made ∈ world.claims, made ∈ after.claims) (hsends : after.sends = world.sends) :
    Holds worker after held :=
  fun attempt hattempt ↦ ⟨hclaims _ (h attempt hattempt).1, hsends ▸ (h attempt hattempt).2⟩

/-- A message leaves a worker the claims of its other attempts. -/
theorem Holds.send (h : Holds worker world held) (hne : ∀ other ∈ held, other ≠ attempt) :
    Holds worker { world with sends := world.sends ++ [attempt] } held := by
  refine fun other hother ↦ ⟨(h other hother).1, fun hsent ↦ ?_⟩
  cases List.mem_append.mp hsent with
  | inl hbefore => exact (h other hother).2 hbefore
  | inr hnew => exact hne other hother (List.mem_singleton.mp hnew)

/-- No two workers hold the same claim. -/
theorem Kept.worker_unique (h : Kept limit world) {first second : ℕ}
    (hfirst : ⟨attempt, first⟩ ∈ world.claims) (hsecond : ⟨attempt, second⟩ ∈ world.claims) :
    first = second :=
  congrArg MadeClaim.worker (List.inj_on_of_nodup_map h.numbered hfirst hsecond rfl)

/-- A message keeps what the sender holds beside it, and what every other worker holds. -/
theorem Kept.holds_send (h : Kept limit world) (hholds : Holds worker world held)
    (hmem : attempt ∈ held) :
    Holds worker { world with sends := world.sends ++ [attempt] } (held.filter (· ≠ attempt)) ∧
      ∀ other, other ≠ worker → ∀ others, Holds other world others →
        Holds other { world with sends := world.sends ++ [attempt] } others := by
  constructor
  · refine Holds.send (fun other hother ↦ hholds other (List.mem_of_mem_filter hother)) ?_
    exact fun other hother ↦ of_decide_eq_true (List.mem_filter.mp hother).2
  · intro other hother others hothers
    refine hothers.send fun mine hmine heq ↦ hother ?_
    exact h.worker_unique (hothers mine hmine).1 (heq ▸ (hholds attempt hmem).1)

/-- A claim gives a worker the claims of its records. -/
theorem Kept.holds_claimDue (h : Kept limit world) (hholds : Holds worker world held)
    {rows : OutboxRows} {now staleBefore : ℤ} {customerOnly : Bool}
    {records : List BusinessLogRecord}
    (hclaims : ClaimsTo world.outbox now staleBefore customerOnly rows records) :
    Holds worker { world with
      outbox := rows
      claims := world.claims ++ records.map fun record ↦ ⟨record.claim, worker⟩ }
      (held ++ records.map (·.claim)) := by
  intro attempt hattempt
  cases List.mem_append.mp hattempt with
  | inl hold => exact ⟨List.mem_append_left _ (hholds attempt hold).1, (hholds attempt hold).2⟩
  | inr hnew =>
    obtain ⟨record, hrecord, rfl⟩ := List.mem_map.mp hnew
    refine ⟨List.mem_append_right _ (List.mem_map.mpr ⟨record, hrecord, rfl⟩), fun hsent ↦ ?_⟩
    obtain ⟨⟨other, hmade⟩, -⟩ := h.sent record.claim hsent
    obtain ⟨before, hbefore, hle⟩ := h.claimed _ hmade
    obtain ⟨row, hrow, -, -, hclaimed⟩ := hclaims.claimed record hrecord
    have hsame : row = before := Option.some.inj (hrow.symm.trans hbefore)
    have hnumber : record.claim.attempts = row.attempts + 1 := congrArg (·.attempts) hclaimed
    rw [hsame] at hnumber
    dsimp only at hle
    omega

/-- The calls keep the invariant and what the workers hold. -/
theorem conduct_sound (limit : ℕ) :
    (conduct limit).Sound OutboxCall.handle (Kept limit) Holds fun _ _ _ ↦ True where
  truthful worker request chance world _ := by
    cases request with
    | claimDue options =>
      simp only [OutboxCall.handle]
      split
      · rename_i rows records hclaim
        have hclaims := claimDue_eq_ok hclaim
        refine ⟨hclaims.nodup, fun record hrecord ↦ ?_⟩
        obtain ⟨row, -, -, -, hclaimed⟩ := hclaims.claimed record hrecord
        rw [hclaimed]
        exact Nat.succ_pos row.attempts
      · trivial
    | _ => trivial
  kept worker request chance world held hkept hholds hpermits _ := by
    cases request with
    | enqueue event =>
      simp only [OutboxCall.handle]
      split
      · exact hkept
      · rename_i hnone
        exact hkept.enqueue hnone rfl
    | claimDue options =>
      simp only [OutboxCall.handle]
      split
      · rename_i rows records hclaim
        exact hkept.claimDue (claimDue_eq_ok hclaim)
      · exact hkept
    | send attempt text => exact hkept.send hholds hpermits
    | sendCustomer attempt chatId text => exact hkept.send hholds hpermits
    | markSent key moment => exact hkept.writeVerdict key (fun _ ↦ rfl) fun _ ↦ nofun
    | markRetry key error nextAttemptAt => exact hkept.writeVerdict key (fun _ ↦ rfl) fun _ ↦ nofun
    | markAbandoned key error => exact hkept.writeVerdict key (fun _ ↦ rfl) fun _ ↦ nofun
    | getUser userId => exact hkept
    | now => exact hkept
  learned worker request chance world held hkept hholds hpermits _ := by
    cases request with
    | enqueue event =>
      simp only [OutboxCall.handle]
      split
      · exact hholds
      · exact hholds
    | claimDue options =>
      simp only [OutboxCall.handle]
      split
      · rename_i rows records hclaim
        exact hkept.holds_claimDue hholds (claimDue_eq_ok hclaim)
      · exact hholds
    | send attempt text => exact (hkept.holds_send hholds hpermits.1).1
    | sendCustomer attempt chatId text => exact (hkept.holds_send hholds hpermits.1).1
    | markSent key moment => exact hholds
    | markRetry key error nextAttemptAt => exact hholds
    | markAbandoned key error => exact hholds
    | getUser userId => exact hholds
    | now => exact hholds
  others worker request chance world held hkept hholds hpermits _ other hother others hothers := by
    cases request with
    | enqueue event =>
      simp only [OutboxCall.handle]
      split
      · exact hothers
      · exact hothers
    | claimDue options =>
      simp only [OutboxCall.handle]
      split
      · exact hothers.mono (fun made hmade ↦ List.mem_append_left _ hmade) rfl
      · exact hothers
    | send attempt text => exact (hkept.holds_send hholds hpermits.1).2 other hother others hothers
    | sendCustomer attempt chatId text =>
      exact (hkept.holds_send hholds hpermits.1).2 other hother others hothers
    | markSent key moment => exact hothers
    | markRetry key error nextAttemptAt => exact hothers
    | markAbandoned key error => exact hothers
    | getUser userId => exact hothers
    | now => exact hothers

/-- The messages of an event have distinct numbers within the limit. -/
theorem Kept.length_sendsOf_le (h : Kept limit world) (key : String) :
    (world.sendsOf key).length ≤ limit := by
  have hnodup : ((world.sendsOf key).map (·.attempts)).Nodup := by
    refine List.Nodup.map_on (fun first hfirst second hsecond heq ↦ ?_) (h.sentOnce.filter _)
    have hfirstKey : first.eventKey = key := of_decide_eq_true (List.mem_filter.mp hfirst).2
    have hsecondKey : second.eventKey = key := of_decide_eq_true (List.mem_filter.mp hsecond).2
    cases first
    cases second
    exact congrArg₂ Claim.mk (hfirstKey.trans hsecondKey.symm) heq
  have hrange : (world.sendsOf key).map (·.attempts) ⊆ List.range' 1 limit := by
    intro number hnumber
    obtain ⟨attempt, hattempt, rfl⟩ := List.mem_map.mp hnumber
    obtain ⟨-, hpositive, hwithin⟩ := h.sent attempt (List.mem_of_mem_filter hattempt)
    rw [List.mem_range'_1]
    omega
  have hle := (hnodup.subperm hrange).length_le
  rwa [List.length_map, List.length_range'] at hle

end Calls

end CloudPlatform.BusinessLog
