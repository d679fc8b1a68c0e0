import CloudPlatform.BusinessLog.Attempts

/-!
# Deliveries of the business log

Any number of passes of the dispatcher, as threads of one pool. An event that is sent or abandoned
should be settled for good, its row claimed at most `max_attempts` times for a message, and every
other row claimable again (`DeliveredOnce`). The bounds hold in every run, since each claim gives
the row a new number. A verdict is written without a look at the row, so the rest holds exactly in
the runs whose sends and verdicts meet the row as their guard would ask (`deliveredOnce_iff`).
-/

namespace CloudPlatform.BusinessLog

open Calendar (second)
open Rows (Table)
open Transition

/-! ### Settled events -/

/-- What is settled stays settled: a status that is sent or abandoned stays, and an event that is
sent is neither claimed nor sent again. -/
structure Settles (before after : OutboxWorld) : Prop where
  final : ∀ key status, before.statusOf key = some status → status.isTerminal = true →
    after.statusOf key = some status
  quiet : ∀ key, before.statusOf key = some .sent →
    after.claimsOf key = before.claimsOf key ∧ after.sendsOf key = before.sendsOf key

theorem Settles.refl (world : OutboxWorld) : Settles world world :=
  ⟨fun _ _ h _ ↦ h, fun _ _ ↦ ⟨rfl, rfl⟩⟩

theorem Settles.trans {first second third : OutboxWorld} (h₁ : Settles first second)
    (h₂ : Settles second third) : Settles first third := by
  refine ⟨fun key status hstatus hterminal ↦ ?_, fun key hsent ↦ ?_⟩
  · exact h₂.final key status (h₁.final key status hstatus hterminal) hterminal
  · obtain ⟨hclaims, hsends⟩ := h₁.quiet key hsent
    obtain ⟨hlaterClaims, hlaterSends⟩ := h₂.quiet key (h₁.final key .sent hsent rfl)
    exact ⟨hlaterClaims.trans hclaims, hlaterSends.trans hsends⟩

/-- The guard that the statements of the repository do not have: a message is for a row that is not
sent yet, and a verdict for a row that has no other one. -/
def Guarded (world : OutboxWorld) : OutboxCall → Prop
  | .send attempt _ | .sendCustomer attempt .. => world.statusOf attempt.eventKey ≠ some .sent
  | .markSent key _ => world.statusOf key ≠ some .abandoned
  | .markRetry key .. => ∀ status, world.statusOf key = some status → status.isTerminal = false
  | .markAbandoned key _ => world.statusOf key ≠ some .sent
  | _ => True

section Steps

variable {world : OutboxWorld}

/-- The status of an event after a verdict. -/
theorem statusOf_writeVerdict {key k : String} {verdict : EventRow → EventRow}
    {h : ∀ row, (verdict row).eventKey = row.eventKey} {status : EventStatus}
    (hverdict : ∀ row, (verdict row).status = status) :
    OutboxWorld.statusOf { world with outbox := writeVerdict world.outbox key verdict h } k =
      if k = key then (world.statusOf k).map fun _ ↦ status else world.statusOf k := by
  rw [OutboxWorld.statusOf, get_writeVerdict]
  by_cases hk : k = key
  · rw [if_pos hk, if_pos hk, Option.map_map, OutboxWorld.statusOf, Option.map_map]
    exact congrArg (Option.map · _) (funext hverdict)
  · rw [if_neg hk, if_neg hk]
    rfl

/-- A verdict settles exactly if the row has no other verdict. -/
theorem settles_writeVerdict_iff (key : String) (verdict : EventRow → EventRow)
    (status : EventStatus) {h : ∀ row, (verdict row).eventKey = row.eventKey}
    (hverdict : ∀ row, (verdict row).status = status) :
    Settles world { world with outbox := writeVerdict world.outbox key verdict h } ↔
      ∀ before, world.statusOf key = some before → before.isTerminal = true → before = status := by
  constructor
  · intro hsettles before hbefore hterminal
    have hafter := hsettles.final key before hbefore hterminal
    rw [statusOf_writeVerdict hverdict, if_pos rfl, hbefore] at hafter
    exact (Option.some.inj hafter).symm
  · intro hsame
    refine ⟨fun k before hbefore hterminal ↦ ?_, fun k _ ↦ ⟨rfl, rfl⟩⟩
    rw [statusOf_writeVerdict hverdict]
    by_cases hk : k = key
    · subst hk
      rw [if_pos rfl, hbefore, hsame before hbefore hterminal]
      rfl
    · rw [if_neg hk, hbefore]

/-- A message settles exactly if the row is not sent yet. -/
theorem settles_send_iff {attempt : Claim} :
    Settles world { world with sends := world.sends ++ [attempt] } ↔
      world.statusOf attempt.eventKey ≠ some .sent := by
  constructor
  · intro hsettles hsent
    have hsame := (hsettles.quiet attempt.eventKey hsent).2
    rw [OutboxWorld.sendsOf, List.filter_append] at hsame
    have hnil := List.append_right_eq_self.mp hsame
    simp at hnil
  · intro hguard
    refine ⟨fun _ _ h _ ↦ h, fun key hsent ↦ ⟨rfl, ?_⟩⟩
    have hne : attempt.eventKey ≠ key := fun heq ↦ hguard (heq ▸ hsent)
    simp [OutboxWorld.sendsOf, hne]

/-- A claim leaves what is settled. -/
theorem settles_claimDue {worker : ℕ} {rows : OutboxRows} {now staleBefore : ℤ}
    {customerOnly : Bool} {records : List BusinessLogRecord}
    (h : ClaimsTo world.outbox now staleBefore customerOnly rows records) :
    Settles world { world with
      outbox := rows
      claims := world.claims ++ records.map fun record ↦ ⟨record.claim, worker⟩ } := by
  have hothers : ∀ key status, world.statusOf key = some status → status.isTerminal = true →
      key ∉ records.map (·.eventKey) := by
    intro key status hstatus hterminal hmem
    obtain ⟨record, hrecord, rfl⟩ := List.mem_map.mp hmem
    obtain ⟨row, hrow, hclaimable, -⟩ := h.claimed record hrecord
    rw [OutboxWorld.statusOf, hrow, Option.map_some, Option.some_inj] at hstatus
    rw [← hstatus, EventRow.isTerminal_of_claimable hclaimable] at hterminal
    cases hterminal
  refine ⟨fun key status hstatus hterminal ↦ ?_, fun key hsent ↦ ⟨?_, rfl⟩⟩
  · rw [← hstatus, OutboxWorld.statusOf, OutboxWorld.statusOf,
      h.others key (hothers key status hstatus hterminal)]
  · rw [OutboxWorld.claimsOf, OutboxWorld.claimsOf, List.filter_append, List.append_right_eq_self,
      List.filter_eq_nil_iff]
    intro made hmade
    obtain ⟨record, hrecord, rfl⟩ := List.mem_map.mp hmade
    have hne : record.eventKey ≠ key := fun heq ↦
      hothers key .sent hsent rfl (heq ▸ List.mem_map_of_mem hrecord)
    exact fun hkey ↦ hne (decide_eq_true_iff.mp hkey)

/-- A new event leaves the others. -/
theorem settles_enqueue {row : EventRow} (h : world.outbox.get row.eventKey = none) :
    Settles world { world with outbox := world.outbox.put row } := by
  refine ⟨fun key status hstatus _ ↦ ?_, fun _ _ ↦ ⟨rfl, rfl⟩⟩
  have hne : row.eventKey ≠ key := by
    intro heq
    rw [OutboxWorld.statusOf, ← heq, h] at hstatus
    cases hstatus
  rw [← hstatus, OutboxWorld.statusOf, OutboxWorld.statusOf, Table.get_put_of_ne _ hne]

/-- A call leaves what is settled exactly if it meets its guard. -/
theorem settles_iff_guarded (worker : ℕ) (request : OutboxCall) (chance : OutboxChance) :
    Settles world (request.handle worker chance world).2 ↔ Guarded world request := by
  cases request with
  | enqueue event =>
    refine iff_of_true ?_ trivial
    simp only [OutboxCall.handle]
    split
    · exact Settles.refl world
    · rename_i hnone
      exact settles_enqueue hnone
  | claimDue options =>
    refine iff_of_true ?_ trivial
    simp only [OutboxCall.handle]
    split
    · rename_i rows records hclaim
      exact settles_claimDue (claimDue_eq_ok hclaim)
    · exact Settles.refl world
  | getUser userId => exact iff_of_true (Settles.refl world) trivial
  | send attempt text => exact settles_send_iff
  | sendCustomer attempt chatId text => exact settles_send_iff
  | markSent key moment =>
    refine (settles_writeVerdict_iff key (.asSent moment) .sent fun _ ↦ rfl).trans ?_
    constructor
    · intro h habandoned
      exact absurd (h .abandoned habandoned rfl) (by decide)
    · intro h before hbefore hterminal
      cases before with
      | sent => rfl
      | abandoned => exact absurd hbefore h
      | pending | sending | retry => cases hterminal
  | markRetry key error nextAttemptAt =>
    refine (settles_writeVerdict_iff key (.asRetry error nextAttemptAt) .retry
      fun _ ↦ rfl).trans ?_
    refine forall_congr' fun before ↦ forall_congr' fun _ ↦ ?_
    cases before <;> simp [EventStatus.isTerminal]
  | markAbandoned key error =>
    refine (settles_writeVerdict_iff key (.asAbandoned error) .abandoned fun _ ↦ rfl).trans ?_
    constructor
    · intro h hsent
      exact absurd (h .sent hsent rfl) (by decide)
    · intro h before hbefore hterminal
      cases before with
      | sent => exact absurd hbefore h
      | abandoned => rfl
      | pending | sending | retry => cases hterminal
  | now => exact iff_of_true (Settles.refl world) trivial

end Steps

/-! ### Every run -/

section Runs

variable (policy : BusinessLogPolicy) (texts : BusinessLogTexts)

/-- The outbox and the workers on it. -/
abbrev OutboxPool := Pool Raised OutboxCall OutboxCall.Out OutboxWorld

/-- One event of the pool. -/
abbrev stepOutbox : OutboxPool → PoolEvent OutboxEntry OutboxChance → OutboxPool :=
  Pool.step OutboxCall.handle (OutboxEntry.program policy texts)

/-- No worker, and no event in the outbox. -/
def emptyPool : OutboxPool :=
  ⟨{}, []⟩

/-- Some later pass can claim the row. -/
def Reclaimable (row : EventRow) : Prop :=
  ∃ start, ∀ now, start ≤ now →
    row.claimable now (now - policy.staleClaimSeconds * second) false = true

/-- What the outbox promises of a run: what is settled stays settled, no event has more messages
than attempts, and every event that is not settled can be claimed later. -/
structure DeliveredOnce (events : List (PoolEvent OutboxEntry OutboxChance)) : Prop where
  settled : Ordered (stepOutbox policy texts)
    (fun before after ↦ Settles before.shared after.shared) emptyPool events
  bounded : Throughout (stepOutbox policy texts)
    (fun pool ↦ ∀ key, (pool.shared.sendsOf key).length ≤ policy.maxAttempts) emptyPool events
  reclaimable : Throughout (stepOutbox policy texts)
    (fun pool ↦ ∀ key row, pool.shared.outbox.get key = some row →
      row.status.isTerminal = false → Reclaimable policy row) emptyPool events

theorem throughout_kept (events : List (PoolEvent OutboxEntry OutboxChance)) :
    Throughout (stepOutbox policy texts) (fun pool ↦ Kept policy.maxAttempts pool.shared)
      emptyPool events := by
  refine Pool.throughout_of_follows (conduct_sound policy.maxAttempts) (fun _ ↦ [])
    (fun entry _ ↦ follows_program entry) (fun _ _ _ _ _ hattempt ↦ absurd hattempt
      List.not_mem_nil) events {} ?_ (Pool.along_allowed_true _ _ events _)
  exact ⟨fun _ h ↦ absurd h List.not_mem_nil, List.nodup_nil,
    fun _ h ↦ absurd h List.not_mem_nil, List.nodup_nil, fun _ _ h ↦ nomatch h⟩

/-- In every run, however slow its workers are, no attempt at an event is claimed twice, and every
message was sent for a claim within the limit, and for no claim twice. -/
theorem claims_apart (events : List (PoolEvent OutboxEntry OutboxChance)) :
    Throughout (stepOutbox policy texts) (fun pool ↦
        (pool.shared.claims.map (·.claim)).Nodup ∧ pool.shared.sends.Nodup ∧
          ∀ attempt ∈ pool.shared.sends, (∃ worker, ⟨attempt, worker⟩ ∈ pool.shared.claims) ∧
            1 ≤ attempt.attempts ∧ attempt.attempts ≤ policy.maxAttempts) emptyPool events :=
  (throughout_kept policy texts events).mono fun _ h ↦ ⟨h.numbered, h.sentOnce, h.sent⟩

/-- The outbox keeps its promises in exactly the runs in which no message is sent for a row that is
`SENT`, and no verdict is written over a different one that is final. -/
theorem deliveredOnce_iff (events : List (PoolEvent OutboxEntry OutboxChance)) :
    DeliveredOnce policy texts events ↔
      Along (stepOutbox policy texts)
        (Pool.Allowed (fun _ ↦ True) fun _ world request ↦ Guarded world request)
        emptyPool events := by
  have hevent : ∀ (pool : OutboxPool) (event : PoolEvent OutboxEntry OutboxChance), True →
      (Settles pool.shared (stepOutbox policy texts pool event).shared ↔
        pool.Allowed (fun _ ↦ True) (fun _ world request ↦ Guarded world request) event) := by
    intro pool event _
    cases event with
    | spawn entry => exact iff_of_true (Settles.refl _) trivial
    | advance thread chance =>
      simp only [Pool.step, Pool.Allowed]
      split
      · exact settles_iff_guarded thread _ chance
      · exact iff_of_true (Settles.refl _) trivial
  have hsettled : Ordered (stepOutbox policy texts)
        (fun before after ↦ Settles before.shared after.shared) emptyPool events ↔
      Along (stepOutbox policy texts)
        (Pool.Allowed (fun _ ↦ True) fun _ world request ↦ Guarded world request)
        emptyPool events := by
    refine Iff.trans ?_ (along_congr hevent (fun _ _ _ _ ↦ trivial) events emptyPool trivial)
    refine ordered_iff_along (fun pool ↦ Settles.refl pool.shared) ?_ events emptyPool
    exact fun first second third ↦ Settles.trans
  have hkept := throughout_kept policy texts events
  refine ⟨fun h ↦ hsettled.mp h.settled, fun h ↦ ⟨hsettled.mpr h, ?_, ?_⟩⟩
  · exact hkept.mono fun _ h key ↦ h.length_sendsOf_le key
  · exact hkept.mono fun _ h key row hrow hterminal ↦
      row.exists_claimable hterminal (h.sending key row hrow) policy.staleClaimSeconds

end Runs

/-! ### A worker that is too slow -/

/-- Texts that are never asked for more than their presence. -/
def plainTexts : BusinessLogTexts where
  render record := .ok record.eventType
  renderCustomerProvisioned _ := .ok customerProvisioned
  safeError raised := raised.message

/-- The channel of the defaults, switched on. -/
def switchedOn : BusinessLogPolicy where
  enabled := true
  chatId := 1

/-- The first worker claims the event and is slow; the second takes the stale claim over and
delivers; the first then sends the message again, meets an error, and puts the delivery off. -/
def slowWorker : List (PoolEvent OutboxEntry OutboxChance) :=
  [.spawn (.enqueue ⟨"purchase", "purchase.requested", [], some 0⟩), .advance 0 {},
    .spawn (.deliver { now := some (1000 * second) }), .advance 1 {},
    .spawn (.deliver { now := some (1300 * second) }), .advance 2 {}, .advance 2 {}, .advance 2 {},
    .advance 1 { delivery := raise .runtimeError "timed out" }, .advance 1 {}]

/-- The delivered event becomes due again, after a second message. -/
theorem not_deliveredOnce_slowWorker :
    ¬ DeliveredOnce switchedOn plainTexts slowWorker := by
  intro h
  have hfinal := (h.settled 8 10 (by decide)).final "purchase" .sent
  exact absurd (hfinal (by decide +kernel) rfl) (by decide +kernel)

end CloudPlatform.BusinessLog
