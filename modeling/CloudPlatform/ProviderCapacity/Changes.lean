import CloudPlatform.ProviderCapacity.Recovery

/-!
# What one operation does to a capacity row

`CapacityRow.Change` lists what the operations of the repository can do to the row of an account,
with the guard of each; `change_of_step` says that a step does one of these or leaves the row. `wins`
is the reply of an operation that reports whether its update found its row.
-/

namespace CloudPlatform.ProviderCapacity

open Billing (addSeconds)

/-- A method returned a row. -/
def returnsRow (outcome : Result (AccountRows × Option AccountCapacity)) : Bool :=
  match outcome with
  | .ok (_, reply) => reply.isSome
  | .error _ => false

/-- A method returned `True`. -/
def returnsTrue (outcome : Result (AccountRows × Bool)) : Bool :=
  match outcome with
  | .ok (_, reply) => reply
  | .error _ => false

/-- The operations that report whether their conditional update found its row. -/
def CapacityCall.reports : CapacityCall → Bool
  | .bringForwardRecovery | .openRecoveryWindow | .beginCanaryAttempt .. | .releaseCanaryLease _
  | .recordCanaryRefusal .. | .recordRecoveryProven _ | .markOutageNotified | .markReminderSent =>
    true
  | _ => false

namespace AccountRows

/-- The conditional update of the operation found its row, as the reply says.
`record_recovery_proven` replies with the record in either case, so there it is read off the stored
lease. -/
def wins (rows : AccountRows) (event : CapacityEventAt) : Bool :=
  match event.call with
  | .bringForwardRecovery => returnsTrue (rows.bringForwardRecovery event.clock)
  | .openRecoveryWindow => returnsRow (rows.openRecoveryWindow event.clock)
  | .beginCanaryAttempt ref lease => returnsRow (rows.beginCanaryAttempt ref lease event.clock)
  | .releaseCanaryLease ref => returnsTrue (rows.releaseCanaryLease ref event.clock)
  | .recordCanaryRefusal ref observation delay ttl =>
    returnsRow (rows.recordCanaryRefusal ref observation delay ttl event.clock)
  | .recordRecoveryProven ref =>
    strip ref ≠ "" && rows.row.any (·.canaryLeaseRef = some ref)
  | .markOutageNotified => returnsTrue (rows.markOutageNotified event.clock)
  | .markReminderSent => returnsTrue (rows.markReminderSent event.clock)
  | _ => false

end AccountRows

/-- What an operation does to a row, and under which guard. -/
inductive CapacityRow.Change (clock : Clock) (row : CapacityRow) :
    CapacityCall → CapacityRow → Prop
  | refused {observation : CapacityObservation} {ttl : ℤ} (expiresAt : ℤ) :
      Change clock row (.recordLimitReached observation ttl)
        (AccountRows.refused row observation clock.now expiresAt)
  | reconciled {evidence : HistoricalCapacityEvidence} {ttl valid : ℤ}
      {observation : CapacityObservation} {updated : AccountCapacity}
      (h : (row.capacity clock.wall).withLimitReached observation valid
        (evidence.observedAt.getD clock.now) clock.wall = .ok updated) :
      Change clock row (.recordHistoricalEvidence evidence ttl) (AccountRows.reconciled row updated)
  | baseline {count : ℤ} {hash : String} (hblocked : row.Blocked) (hcount : 0 ≤ count)
      (hnone : row.baselineInstanceCount = none) :
      Change clock row (.recordInventoryCensus count hash)
        { row with
          baselineInstanceCount := some count.toNat
          baselineInstanceIdsHash := some hash
          baselineObservedAt := some clock.now }
  | freed {count : ℤ} {hash : String} (hblocked : row.Blocked) {baseline : ℕ}
      (hbaseline : row.baselineInstanceCount = some baseline) (hlower : count < baseline) :
      Change clock row (.recordInventoryCensus count hash)
        { row with nextRecoveryAttemptAt := some clock.now }
  | broughtForward (hblocked : row.Blocked) :
      Change clock row .bringForwardRecovery { row with nextRecoveryAttemptAt := some clock.now }
  | scheduled {delay : ℤ} {due : ℤ} (hblocked : row.Blocked)
      (hnone : row.nextRecoveryAttemptAt = none) (hdue : addSeconds clock.now delay = .ok due) :
      Change clock row (.scheduleRecovery delay) { row with nextRecoveryAttemptAt := some due }
  | opened {due : ℤ} (hblocked : row.Blocked) (hdue : row.nextRecoveryAttemptAt = some due)
      (hle : due ≤ clock.now) (hlease : ∀ expires ∈ row.canaryLeaseExpiresAt, expires ≤ clock.now) :
      Change clock row .openRecoveryWindow
        { row with
          state := AccountCapacityState.recoveryCandidate.value
          nextRecoveryAttemptAt := none
          canaryLeaseRef := none
          canaryLeaseExpiresAt := none }
  | leased {ref : String} {lease expiresAt : ℤ}
      (hcandidate : row.state = AccountCapacityState.recoveryCandidate.value)
      (hfree : ∀ expires ∈ row.canaryLeaseExpiresAt, expires ≤ clock.now)
      (hexpires : addSeconds clock.now lease = .ok expiresAt) :
      Change clock row (.beginCanaryAttempt ref lease)
        { row with
          canaryLeaseRef := some ref
          canaryLeaseExpiresAt := some expiresAt
          lastRecoveryAttemptAt := some clock.now }
  | released {ref : Option String} {holder : String} (hheld : row.canaryLeaseRef = some holder)
      (href : ∀ given ∈ ref, given = holder) :
      Change clock row (.releaseCanaryLease ref)
        { row with canaryLeaseRef := none, canaryLeaseExpiresAt := none }
  | canaryRefused {ref : String} {observation : CapacityObservation} {delay ttl due : ℤ}
      (expiresAt : ℤ) (hcandidate : row.state = AccountCapacityState.recoveryCandidate.value)
      (hlease : row.canaryLeaseRef = some ref) (hdue : addSeconds clock.now delay = .ok due) :
      Change clock row (.recordCanaryRefusal ref observation delay ttl)
        (AccountRows.canaryRefused row observation clock.now expiresAt due)
  | proven {ref : String} (hlease : row.canaryLeaseRef = some ref) :
      Change clock row (.recordRecoveryProven ref) (AccountRows.proven row clock.now)
  | outageNotified (hnone : row.outageNotifiedAt = none) :
      Change clock row .markOutageNotified { row with outageNotifiedAt := some clock.now }
  | reminderSent :
      Change clock row .markReminderSent { row with lastReminderAt := some clock.now }
  | cleared : Change clock row .recordHealthy (AccountRows.proven row clock.now)
  | settled (hlimit : row.state = AccountCapacityState.limitReached.value) :
      Change clock row .settleExpired
        { row with state := AccountCapacityState.unknownAfterLimit.value }

/-- What a step does to a row: it makes a change, which a conditional update reports, or the row stays. -/
inductive StepOnRow (rows : AccountRows) (event : CapacityEventAt) (row : CapacityRow) : Prop
  | kept (h : (rows.step event).row = some row) (hlost : rows.wins event = false)
  | changed (after : CapacityRow) (h : (rows.step event).row = some after)
      (hchange : row.Change event.clock event.call after)
      (hwins : event.call.reports = true → rows.wins event = true)

section Rows

variable {rows : AccountRows} {row : CapacityRow} {event : CapacityEventAt}

/-- A conditional update, on a row that meets its condition and on one that does not. -/
theorem updateWhere_cases (condition : CapacityRow → Bool) (change : CapacityRow → CapacityRow)
    (hrow : rows.row = some row) : (condition row = true ∧
        rows.updateWhere condition change = ({ rows with row := some (change row) }, some (change row)))
      ∨ (condition row = false ∧ rows.updateWhere condition change = (rows, none)) := by
  rw [AccountRows.updateWhere, hrow]
  by_cases hcondition : condition row = true
  · rw [Option.filter_some_pos hcondition]
    exact .inl ⟨hcondition, rfl⟩
  · rw [Option.filter_some_neg (by simpa using hcondition)]
    exact .inr ⟨by simpa using hcondition, rfl⟩

variable {α : Type} {outcome : Result (AccountRows × α)} {condition : CapacityRow → Bool}
  {change : CapacityRow → CapacityRow} {clock : Clock} {after : AccountRows}
  {reply : Option AccountCapacity} {ref : String}

/-- A transaction, by what it does when it returns. -/
theorem stepOnRow_of_ok (hrow : rows.row = some row)
    (hstep : rows.step event = (transaction rows outcome).2)
    (hraises : ∀ raised, outcome = .error raised → rows.wins event = false)
    (hok : ∀ after reply, outcome = .ok (after, reply) →
      (after.row = some row ∧ rows.wins event = false) ∨
        ∃ changed, after.row = some changed ∧ row.Change event.clock event.call changed ∧
          (event.call.reports = true → rows.wins event = true)) : StepOnRow rows event row := by
  cases houtcome : outcome with
  | error raised =>
    refine .kept ?_ (hraises raised houtcome)
    rw [hstep, houtcome]
    exact hrow
  | ok pair =>
    have hafter : rows.step event = pair.1 := by rw [hstep, houtcome]; rfl
    obtain ⟨hkept, hlost⟩ | ⟨changed, hchanged, hchange, hwins⟩ := hok pair.1 pair.2 houtcome
    · exact .kept (by rw [hafter]; exact hkept) hlost
    · exact .changed changed (by rw [hafter]; exact hchanged) hchange hwins

/-- An update that returns the row it has changed, and appends an event. -/
theorem guarded_cases {changedEvent : CapacityEvent} (hrow : rows.row = some row)
    (hok : (match rows.updateWhere condition change with
      | (rows, none) => (pure (rows, none) : Result (AccountRows × Option AccountCapacity))
      | (rows, some changed) =>
        pure (rows.withEvent changedEvent, some (changed.capacity clock.wall))) = .ok (after, reply)) :
     (condition row = true ∧ after.row = some (change row) ∧ reply.isSome = true) ∨
      (condition row = false ∧ after.row = some row ∧ reply.isSome = false) := by
  obtain ⟨hcondition, hupdate⟩ | ⟨hcondition, hupdate⟩ := updateWhere_cases condition change hrow
  · rw [hupdate] at hok
    obtain ⟨rfl, rfl⟩ := Prod.mk.inj (pure_eq_ok.mp hok)
    exact .inl ⟨hcondition, rfl, rfl⟩
  · rw [hupdate] at hok
    obtain ⟨rfl, rfl⟩ := Prod.mk.inj (pure_eq_ok.mp hok)
    exact .inr ⟨hcondition, hrow, rfl⟩

/-- An update that replies with what it changed. -/
theorem update_cases (answer : Option CapacityRow → α) (hrow : rows.row = some row) {reply : α}
    (hok : (.ok ((rows.updateWhere condition change).1, answer (rows.updateWhere condition change).2) :
      Result (AccountRows × α)) = .ok (after, reply)) :
    (condition row = true ∧ after.row = some (change row) ∧ reply = answer (some (change row))) ∨
      (condition row = false ∧ after.row = some row ∧ reply = answer none) := by
  obtain ⟨rfl, rfl⟩ := Prod.mk.inj (Except.ok.inj hok)
  obtain ⟨hcondition, hupdate⟩ | ⟨hcondition, hupdate⟩ := updateWhere_cases condition change hrow
  · rw [hupdate]
    exact .inl ⟨hcondition, rfl, rfl⟩
  · rw [hupdate]
    exact .inr ⟨hcondition, hrow, rfl⟩

/-- A conditional update that reports whether it found its row. -/
theorem reported_cases (hrow : rows.row = some row) {outcome : Result (AccountRows × Bool)}
    (houtcome : outcome = .ok ((rows.updateWhere condition change).1,
      (rows.updateWhere condition change).2.isSome))
    (hstep : rows.step event = (transaction rows outcome).2)
    (hwins : rows.wins event = returnsTrue outcome)
    (hchange : condition row = true → row.Change event.clock event.call (change row)) :
    StepOnRow rows event row := by
  refine stepOnRow_of_ok hrow hstep (fun raised hraised ↦ ?_) fun after reply hok ↦ ?_
  · rw [houtcome] at hraised
    cases hraised
  · rw [hwins, hok, returnsTrue]
    obtain ⟨hcondition, hafter, rfl⟩ | ⟨-, hafter, rfl⟩ :=
      update_cases Option.isSome hrow (houtcome.symm.trans hok)
    · exact .inr ⟨change row, hafter, hchange hcondition, fun _ ↦ rfl⟩
    · exact .inl ⟨hafter, rfl⟩

/-- The census of a blocked row: its first one is the baseline, a lower one frees the window. -/
theorem census_cases {count : ℤ} {hash : String} (hrow : rows.row = some row)
    (hok : rows.recordInventoryCensus count hash clock = .ok (after, reply)) :
    after.row = some row ∨ ∃ changed, after.row = some changed ∧
        row.Change clock (.recordInventoryCensus count hash) changed := by
  rw [AccountRows.recordInventoryCensus] at hok
  obtain ⟨hcount, hok⟩ := rejectIf_bind_eq_ok.mp hok
  obtain ⟨-, hok⟩ := rejectIf_bind_eq_ok.mp hok
  rw [hrow] at hok
  simp only at hok
  have hfacts := AccountCapacity.settled_facts
    ({ toCapacityFacts := row.toCapacityFacts, state := stateOf row.state } : AccountCapacity)
    clock.wall
  by_cases hlimit : (row.capacity clock.wall).isLimitReached clock.now = true
  · have hblocked := (isLimitReached_capacity clock.wall clock.now).mp hlimit
    rw [hlimit, Bool.not_true, if_neg Bool.false_ne_true] at hok
    obtain ⟨rfl, -⟩ := Prod.mk.inj (pure_eq_ok.mp hok)
    have hcapacity : (row.capacity clock.wall).toCapacityFacts = row.toCapacityFacts := hfacts
    cases hbaseline : row.baselineInstanceCount with
    | none =>
      refine .inr ⟨_, rfl, ?_⟩
      simp only [hcapacity, hbaseline, AccountCapacity.withBaseline]
      exact .baseline hblocked (by simpa using hcount) hbaseline
    | some baseline =>
      by_cases hlower : count < baseline
      · refine .inr ⟨_, rfl, ?_⟩
        simp only [hcapacity, hbaseline, if_pos hlower]
        simp only [← hbaseline]
        exact .freed hblocked hbaseline hlower
      · refine .inl ?_
        simp only [hcapacity, hbaseline, if_neg hlower]
        simp only [← hbaseline]
  · rw [Bool.not_eq_true] at hlimit
    rw [hlimit, Bool.not_false, if_pos rfl] at hok
    obtain ⟨rfl, -⟩ := Prod.mk.inj (pure_eq_ok.mp hok)
    exact .inl hrow

/-- The schedule of a blocked row that has none. -/
theorem schedule_cases {delay : ℤ} (hrow : rows.row = some row)
    (hok : rows.scheduleRecovery delay clock = .ok (after, reply)) : after.row = some row ∨
      ∃ changed, after.row = some changed ∧ row.Change clock (.scheduleRecovery delay) changed := by
  rw [AccountRows.scheduleRecovery] at hok
  obtain ⟨-, hok⟩ := rejectIf_bind_eq_ok.mp hok
  rw [hrow] at hok
  simp only at hok
  split at hok
  · obtain ⟨rfl, -⟩ := Prod.mk.inj (pure_eq_ok.mp hok)
    exact .inl hrow
  · rename_i hfree
    obtain ⟨scheduled, hscheduled, hok⟩ := bind_eq_ok.mp hok
    obtain ⟨rfl, -⟩ := Prod.mk.inj (pure_eq_ok.mp hok)
    rw [AccountCapacity.withRecoveryScheduled] at hscheduled
    obtain ⟨-, hscheduled⟩ := rejectIf_bind_eq_ok.mp hscheduled
    obtain ⟨due, hdue, hscheduled⟩ := bind_eq_ok.mp hscheduled
    rw [← pure_eq_ok.mp hscheduled]
    simp only [Bool.or_eq_true, Bool.not_eq_true', not_or, Bool.not_eq_false,
      Option.isSome_iff_ne_none, not_not] at hfree
    have hfacts : (row.capacity clock.wall).toCapacityFacts = row.toCapacityFacts :=
      AccountCapacity.settled_facts _ clock.wall
    have hnone : row.nextRecoveryAttemptAt = none := by rw [← hfacts]; exact hfree.1.2
    exact .inr ⟨_, rfl, .scheduled ((isLimitReached_capacity clock.wall clock.now).mp hfree.1.1)
      hnone hdue⟩

/-- Historical evidence: replayed, outranked, or reconciled with the row. -/
theorem evidence_cases {evidence : HistoricalCapacityEvidence} {ttl : ℤ}
    (hrow : rows.row = some row)
    (hok : rows.recordHistoricalEvidence evidence ttl clock = .ok (after, reply)) :
    after.row = some row ∨ ∃ changed, after.row = some changed ∧
        row.Change clock (.recordHistoricalEvidence evidence ttl) changed := by
  rw [AccountRows.recordHistoricalEvidence] at hok
  obtain ⟨ttl, -, hok⟩ := bind_eq_ok.mp hok
  obtain ⟨expiresAt, -, hok⟩ := bind_eq_ok.mp hok
  obtain ⟨observation, -, hok⟩ := bind_eq_ok.mp hok
  simp only [hrow] at hok
  split at hok
  · obtain ⟨rfl, -⟩ := Prod.mk.inj (pure_eq_ok.mp hok)
    exact .inl hrow
  · split at hok
    · obtain ⟨rfl, -⟩ := Prod.mk.inj (pure_eq_ok.mp hok)
      exact .inl rfl
    · obtain ⟨updated, hupdated, hok⟩ := bind_eq_ok.mp hok
      obtain ⟨rfl, -⟩ := Prod.mk.inj (pure_eq_ok.mp hok)
      exact .inr ⟨_, rfl, .reconciled hupdated⟩

/-- The change that a won begin makes. -/
theorem begin_cases {lease : ℤ} (hrow : rows.row = some row)
    (hok : rows.beginCanaryAttempt ref lease clock = .ok (after, reply)) :
    (after.row = some row ∧ reply.isSome = false) ∨ ∃ changed, after.row = some changed ∧
        row.Change clock (.beginCanaryAttempt ref lease) changed ∧ reply.isSome = true := by
  rw [AccountRows.beginCanaryAttempt] at hok
  obtain ⟨-, hok⟩ := rejectIf_bind_eq_ok.mp hok
  obtain ⟨-, hok⟩ := rejectIf_bind_eq_ok.mp hok
  obtain ⟨expiresAt, hexpires, hok⟩ := bind_eq_ok.mp hok
  obtain ⟨hcondition, hafter, hreply⟩ | ⟨-, hafter, hreply⟩ := guarded_cases hrow hok
  · simp only [Bool.and_eq_true, decide_eq_true_eq, Option.all_eq_true] at hcondition
    exact .inr ⟨_, hafter, .leased hcondition.1 hcondition.2 hexpires, hreply⟩
  · exact .inl ⟨hafter, hreply⟩

/-- The change that a counted refusal of a canary makes. -/
theorem canaryRefusal_cases {observation : CapacityObservation} {delay ttl : ℤ}
    (hrow : rows.row = some row)
    (hok : rows.recordCanaryRefusal ref observation delay ttl clock = .ok (after, reply)) :
    (after.row = some row ∧ reply.isSome = false) ∨ ∃ changed, after.row = some changed ∧
        row.Change clock (.recordCanaryRefusal ref observation delay ttl) changed ∧
          reply.isSome = true := by
  rw [AccountRows.recordCanaryRefusal] at hok
  obtain ⟨-, hok⟩ := rejectIf_bind_eq_ok.mp hok
  obtain ⟨valid, -, hok⟩ := bind_eq_ok.mp hok
  obtain ⟨-, hok⟩ := rejectIf_bind_eq_ok.mp hok
  obtain ⟨expiresAt, -, hok⟩ := bind_eq_ok.mp hok
  obtain ⟨due, hdue, hok⟩ := bind_eq_ok.mp hok
  obtain ⟨hcondition, hafter, hreply⟩ | ⟨-, hafter, hreply⟩ := guarded_cases hrow hok
  · simp only [Bool.and_eq_true, decide_eq_true_eq] at hcondition
    exact .inr ⟨_, hafter, .canaryRefused expiresAt hcondition.1 hcondition.2 hdue, hreply⟩
  · exact .inl ⟨hafter, hreply⟩

/-- The change that a proof of recovery makes, when the lease is the reference's. -/
theorem proven_cases (hrow : rows.row = some row)
    (hok : rows.recordRecoveryProven ref clock = .ok (after, reply)) :
    strip ref ≠ "" ∧ (row.canaryLeaseRef ≠ some ref ∧ after.row = some row ∨
      row.canaryLeaseRef = some ref ∧ after.row = some (AccountRows.proven row clock.now)) := by
  rw [AccountRows.recordRecoveryProven] at hok
  obtain ⟨hblank, hok⟩ := rejectIf_bind_eq_ok.mp hok
  refine ⟨by simpa using hblank, ?_⟩
  obtain ⟨hcondition, hupdate⟩ | ⟨hcondition, hupdate⟩ :=
    updateWhere_cases (fun row ↦ row.canaryLeaseRef = some ref) (AccountRows.proven · clock.now) hrow
  · rw [hupdate] at hok
    obtain ⟨rfl, -⟩ := Prod.mk.inj (pure_eq_ok.mp hok)
    exact .inr ⟨by simpa using hcondition, rfl⟩
  · rw [hupdate] at hok
    obtain ⟨rfl, -⟩ := Prod.mk.inj (pure_eq_ok.mp hok)
    exact .inl ⟨by simpa using hcondition, hrow⟩

/-- A proof of recovery raises for a blank reference only. -/
theorem blank_of_proven_raises {raised : Raised}
    (h : rows.recordRecoveryProven ref clock = .error raised) : strip ref = "" := by
  by_contra hblank
  rw [AccountRows.recordRecoveryProven, rejectIf, if_neg (by simpa using hblank), ok_bind] at h
  split at h <;> cases h

/-- The update that opens the window, on a row that meets its condition. -/
theorem opened_of_condition
    (h : (row.storedBlocked && row.nextRecoveryAttemptAt.any (· ≤ clock.now) &&
      row.canaryLeaseExpiresAt.all (· ≤ clock.now)) = true) : row.Change clock .openRecoveryWindow
      { row with
        state := AccountCapacityState.recoveryCandidate.value
        nextRecoveryAttemptAt := none
        canaryLeaseRef := none
        canaryLeaseExpiresAt := none } := by
  simp only [Bool.and_eq_true, Option.any_eq_true, Option.all_eq_true, decide_eq_true_eq] at h
  obtain ⟨⟨hblocked, due, hdue, hle⟩, hlease⟩ := h
  exact .opened (CapacityRow.storedBlocked_blocked hblocked) hdue hle hlease

/-- An operation that does not report leaves the row, or makes its change. -/
theorem stepOnRow_of_silent (hrow : rows.row = some row)
    (hstep : rows.step event = (transaction rows outcome).2) (hsilent : event.call.reports = false)
    (hlost : rows.wins event = false)
    (hok : ∀ after reply, outcome = .ok (after, reply) → after.row = some row ∨
      ∃ changed, after.row = some changed ∧ row.Change event.clock event.call changed) :
    StepOnRow rows event row := by
  refine stepOnRow_of_ok hrow hstep (fun _ _ ↦ hlost) fun after reply houtcome ↦ ?_
  obtain hkept | ⟨changed, hchanged, hchange⟩ := hok after reply houtcome
  · exact .inl ⟨hkept, hlost⟩
  · exact .inr ⟨changed, hchanged, hchange, fun hreports ↦ by rw [hsilent] at hreports; cases hreports⟩

/-- A step leaves the row, or makes one of the changes. -/
theorem stepOnRow (rows : AccountRows) (row : CapacityRow) (event : CapacityEventAt)
    (hrow : rows.row = some row) : StepOnRow rows event row := by
  obtain ⟨call, clock⟩ := event
  cases call with
  | recordLimitReached observation ttl =>
    refine stepOnRow_of_silent hrow rfl rfl rfl fun after reply hok ↦ .inr ?_
    rw [AccountRows.recordLimitReached] at hok
    obtain ⟨valid, -, hok⟩ := bind_eq_ok.mp hok
    obtain ⟨expiresAt, -, hok⟩ := bind_eq_ok.mp hok
    rw [hrow] at hok
    obtain ⟨rfl, -⟩ := Prod.mk.inj (pure_eq_ok.mp hok)
    exact ⟨_, rfl, .refused expiresAt⟩
  | recordHistoricalEvidence evidence ttl =>
    exact stepOnRow_of_silent hrow rfl rfl rfl fun after reply hok ↦ evidence_cases hrow hok
  | recordInventoryCensus count hash =>
    exact stepOnRow_of_silent hrow rfl rfl rfl fun after reply hok ↦ census_cases hrow hok
  | bringForwardRecovery =>
    refine reported_cases hrow rfl rfl rfl fun hcondition ↦ .broughtForward ?_
    rw [Bool.and_eq_true] at hcondition
    exact CapacityRow.storedBlocked_blocked hcondition.1
  | scheduleRecovery delay =>
    exact stepOnRow_of_silent hrow rfl rfl rfl fun after reply hok ↦ schedule_cases hrow hok
  | openRecoveryWindow =>
    refine stepOnRow_of_ok hrow rfl (fun raised hraised ↦ by cases hraised) fun after reply hok ↦ ?_
    simp only [AccountRows.wins, hok, returnsRow]
    obtain ⟨hcondition, hafter, rfl⟩ | ⟨-, hafter, rfl⟩ :=
      update_cases (Option.map (·.capacity clock.wall)) hrow hok
    · exact .inr ⟨_, hafter, opened_of_condition hcondition, fun _ ↦ rfl⟩
    · exact .inl ⟨hafter, rfl⟩
  | beginCanaryAttempt ref lease =>
    refine stepOnRow_of_ok hrow rfl (fun raised hraised ↦ ?_) fun after reply hok ↦ ?_
    · simp only [AccountRows.wins, hraised, returnsRow]
    · simp only [AccountRows.wins, hok, returnsRow]
      simpa only [CapacityCall.reports, forall_const] using begin_cases hrow hok
  | releaseCanaryLease ref =>
    refine reported_cases hrow rfl rfl rfl fun hcondition ↦ ?_
    simp only [Bool.and_eq_true, Option.isSome_iff_exists] at hcondition
    obtain ⟨⟨⟨holder, hholder⟩, -⟩, href⟩ := hcondition
    refine .released hholder fun given hgiven ↦ ?_
    rw [Option.mem_def.mp hgiven, Option.all_some, hholder, decide_eq_true_eq] at href
    exact (Option.some.inj href).symm
  | recordCanaryRefusal ref observation delay ttl =>
    refine stepOnRow_of_ok hrow rfl (fun raised hraised ↦ ?_) fun after reply hok ↦ ?_
    · simp only [AccountRows.wins, hraised, returnsRow]
    · simp only [AccountRows.wins, hok, returnsRow]
      simpa only [CapacityCall.reports, forall_const] using canaryRefusal_cases hrow hok
  | recordRecoveryProven ref =>
    refine stepOnRow_of_ok hrow rfl (fun raised hraised ↦ ?_) fun after reply hok ↦ ?_
    · simp [AccountRows.wins, blank_of_proven_raises hraised]
    · obtain ⟨hblank, ⟨hother, hafter⟩ | ⟨hsame, hafter⟩⟩ := proven_cases hrow hok
      · refine .inl ⟨hafter, ?_⟩
        simp [AccountRows.wins, hrow, hother]
      · refine .inr ⟨_, hafter, .proven hsame, fun _ ↦ ?_⟩
        simp [AccountRows.wins, hrow, hsame, hblank]
  | markOutageNotified =>
    exact reported_cases hrow rfl rfl rfl fun hcondition ↦
      .outageNotified (Option.isNone_iff_eq_none.mp hcondition)
  | markReminderSent => exact reported_cases hrow rfl rfl rfl fun _ ↦ .reminderSent
  | recordHealthy =>
    refine stepOnRow_of_silent hrow rfl rfl rfl fun after reply hok ↦ .inr ?_
    rw [AccountRows.recordHealthy, hrow] at hok
    obtain ⟨rfl, -⟩ := Prod.mk.inj (Except.ok.inj hok)
    exact ⟨_, rfl, .cleared⟩
  | settleExpired =>
    refine stepOnRow_of_silent hrow rfl rfl rfl fun after reply hok ↦ ?_
    obtain ⟨hcondition, hafter, -⟩ | ⟨-, hafter, -⟩ := update_cases Option.isSome hrow hok
    · rw [Bool.and_eq_true, decide_eq_true_eq] at hcondition
      exact .inr ⟨_, hafter, .settled hcondition.1⟩
    · exact .inl hafter

/-! ### An account without a row -/

/-- The first row of an account: a refusal, or the operator's override. -/
inductive CapacityRow.First (clock : Clock) : CapacityCall → CapacityRow → Prop
  | refused {call : CapacityCall} {state : AccountCapacityState} {observation : CapacityObservation}
      {observedAt expiresAt : ℤ} (hstate : state = .limitReached ∨ state = .unknownAfterLimit) :
      First clock call (AccountRows.firstRefusal state observation observedAt expiresAt)
  | cleared : First clock .recordHealthy { observedAt := some clock.now }

theorem updateWhere_none (hrow : rows.row = none) :
    rows.updateWhere condition change = (rows, none) := by
  rw [AccountRows.updateWhere, hrow]
  rfl

/-- No conditional update finds a row that is not there. -/
theorem wins_of_none (hrow : rows.row = none) : rows.wins event = false := by
  obtain ⟨call, clock⟩ := event
  cases call with
  | bringForwardRecovery =>
    simp [AccountRows.wins, AccountRows.bringForwardRecovery, updateWhere_none hrow, returnsTrue]
  | openRecoveryWindow =>
    simp [AccountRows.wins, AccountRows.openRecoveryWindow, updateWhere_none hrow, returnsRow]
  | beginCanaryAttempt ref lease =>
    simp only [AccountRows.wins]
    cases hok : rows.beginCanaryAttempt ref lease clock with
    | error raised => rfl
    | ok pair =>
      rw [AccountRows.beginCanaryAttempt] at hok
      obtain ⟨-, hok⟩ := rejectIf_bind_eq_ok.mp hok
      obtain ⟨-, hok⟩ := rejectIf_bind_eq_ok.mp hok
      obtain ⟨expiresAt, -, hok⟩ := bind_eq_ok.mp hok
      rw [updateWhere_none hrow] at hok
      rw [← pure_eq_ok.mp hok]
      rfl
  | releaseCanaryLease ref =>
    simp [AccountRows.wins, AccountRows.releaseCanaryLease, updateWhere_none hrow, returnsTrue]
  | recordCanaryRefusal ref observation delay ttl =>
    simp only [AccountRows.wins]
    cases hok : rows.recordCanaryRefusal ref observation delay ttl clock with
    | error raised => rfl
    | ok pair =>
      rw [AccountRows.recordCanaryRefusal] at hok
      obtain ⟨-, hok⟩ := rejectIf_bind_eq_ok.mp hok
      obtain ⟨valid, -, hok⟩ := bind_eq_ok.mp hok
      obtain ⟨-, hok⟩ := rejectIf_bind_eq_ok.mp hok
      obtain ⟨expiresAt, -, hok⟩ := bind_eq_ok.mp hok
      obtain ⟨due, -, hok⟩ := bind_eq_ok.mp hok
      rw [updateWhere_none hrow] at hok
      rw [← pure_eq_ok.mp hok]
      rfl
  | recordRecoveryProven ref => simp [AccountRows.wins, hrow]
  | markOutageNotified =>
    simp [AccountRows.wins, AccountRows.markOutageNotified, updateWhere_none hrow, returnsTrue]
  | markReminderSent =>
    simp [AccountRows.wins, AccountRows.markReminderSent, updateWhere_none hrow, returnsTrue]
  | _ => rfl

/-- A transaction on an account without a row. -/
theorem none_of_ok (hrow : rows.row = none) (hstep : rows.step event = (transaction rows outcome).2)
    (hok : ∀ after reply, outcome = .ok (after, reply) → after.row = none ∨
      ∃ first, after.row = some first ∧ CapacityRow.First event.clock event.call first) :
    (rows.step event).row = none ∨ ∃ first, (rows.step event).row = some first ∧
        CapacityRow.First event.clock event.call first := by
  cases houtcome : outcome with
  | error raised => exact .inl (by rw [hstep, houtcome]; exact hrow)
  | ok pair =>
    have hafter : rows.step event = pair.1 := by rw [hstep, houtcome]; rfl
    rw [hafter]
    exact hok pair.1 pair.2 houtcome

theorem stepOnNone (rows : AccountRows) (event : CapacityEventAt) (hrow : rows.row = none) :
    (rows.step event).row = none ∨ ∃ first, (rows.step event).row = some first ∧
        CapacityRow.First event.clock event.call first := by
  obtain ⟨call, clock⟩ := event
  cases call with
  | recordLimitReached observation ttl =>
    refine none_of_ok hrow rfl fun after reply hok ↦ .inr ?_
    rw [AccountRows.recordLimitReached] at hok
    obtain ⟨valid, -, hok⟩ := bind_eq_ok.mp hok
    obtain ⟨expiresAt, -, hok⟩ := bind_eq_ok.mp hok
    rw [hrow] at hok
    obtain ⟨rfl, -⟩ := Prod.mk.inj (pure_eq_ok.mp hok)
    exact ⟨_, rfl, .refused (.inl rfl)⟩
  | recordHistoricalEvidence evidence ttl =>
    refine none_of_ok hrow rfl fun after reply hok ↦ ?_
    rw [AccountRows.recordHistoricalEvidence] at hok
    obtain ⟨valid, -, hok⟩ := bind_eq_ok.mp hok
    obtain ⟨expiresAt, -, hok⟩ := bind_eq_ok.mp hok
    obtain ⟨observation, -, hok⟩ := bind_eq_ok.mp hok
    simp only [hrow, Option.map_none, Option.any_none, Bool.and_false, Bool.false_eq_true,
      if_false] at hok
    split at hok
    · obtain ⟨rfl, -⟩ := Prod.mk.inj (pure_eq_ok.mp hok)
      exact .inl hrow
    · obtain ⟨rfl, -⟩ := Prod.mk.inj (pure_eq_ok.mp hok)
      refine .inr ⟨_, rfl, .refused ?_⟩
      split
      · exact .inl rfl
      · exact .inr rfl
  | recordInventoryCensus count hash =>
    refine none_of_ok hrow rfl fun after reply hok ↦ .inl ?_
    rw [AccountRows.recordInventoryCensus] at hok
    obtain ⟨-, hok⟩ := rejectIf_bind_eq_ok.mp hok
    obtain ⟨-, hok⟩ := rejectIf_bind_eq_ok.mp hok
    rw [hrow] at hok
    obtain ⟨rfl, -⟩ := Prod.mk.inj (pure_eq_ok.mp hok)
    exact hrow
  | scheduleRecovery delay =>
    refine none_of_ok hrow rfl fun after reply hok ↦ .inl ?_
    rw [AccountRows.scheduleRecovery] at hok
    obtain ⟨-, hok⟩ := rejectIf_bind_eq_ok.mp hok
    rw [hrow] at hok
    obtain ⟨rfl, -⟩ := Prod.mk.inj (pure_eq_ok.mp hok)
    exact hrow
  | beginCanaryAttempt ref lease =>
    refine none_of_ok hrow rfl fun after reply hok ↦ .inl ?_
    rw [AccountRows.beginCanaryAttempt] at hok
    obtain ⟨-, hok⟩ := rejectIf_bind_eq_ok.mp hok
    obtain ⟨-, hok⟩ := rejectIf_bind_eq_ok.mp hok
    obtain ⟨expiresAt, -, hok⟩ := bind_eq_ok.mp hok
    rw [updateWhere_none hrow] at hok
    obtain ⟨rfl, -⟩ := Prod.mk.inj (pure_eq_ok.mp hok)
    exact hrow
  | recordCanaryRefusal ref observation delay ttl =>
    refine none_of_ok hrow rfl fun after reply hok ↦ .inl ?_
    rw [AccountRows.recordCanaryRefusal] at hok
    obtain ⟨-, hok⟩ := rejectIf_bind_eq_ok.mp hok
    obtain ⟨valid, -, hok⟩ := bind_eq_ok.mp hok
    obtain ⟨-, hok⟩ := rejectIf_bind_eq_ok.mp hok
    obtain ⟨expiresAt, -, hok⟩ := bind_eq_ok.mp hok
    obtain ⟨due, -, hok⟩ := bind_eq_ok.mp hok
    rw [updateWhere_none hrow] at hok
    obtain ⟨rfl, -⟩ := Prod.mk.inj (pure_eq_ok.mp hok)
    exact hrow
  | recordRecoveryProven ref =>
    refine none_of_ok hrow rfl fun after reply hok ↦ .inl ?_
    rw [AccountRows.recordRecoveryProven] at hok
    obtain ⟨-, hok⟩ := rejectIf_bind_eq_ok.mp hok
    rw [updateWhere_none hrow] at hok
    obtain ⟨rfl, -⟩ := Prod.mk.inj (pure_eq_ok.mp hok)
    exact hrow
  | recordHealthy =>
    refine none_of_ok hrow rfl fun after reply hok ↦ .inr ?_
    rw [AccountRows.recordHealthy, hrow] at hok
    obtain ⟨rfl, -⟩ := Prod.mk.inj (Except.ok.inj hok)
    exact ⟨_, rfl, .cleared⟩
  | bringForwardRecovery =>
    refine none_of_ok hrow rfl fun after reply hok ↦ .inl ?_
    rw [AccountRows.bringForwardRecovery, updateWhere_none hrow] at hok
    obtain ⟨rfl, -⟩ := Prod.mk.inj (Except.ok.inj hok)
    exact hrow
  | openRecoveryWindow =>
    refine none_of_ok hrow rfl fun after reply hok ↦ .inl ?_
    rw [AccountRows.openRecoveryWindow, updateWhere_none hrow] at hok
    obtain ⟨rfl, -⟩ := Prod.mk.inj (Except.ok.inj hok)
    exact hrow
  | releaseCanaryLease ref =>
    refine none_of_ok hrow rfl fun after reply hok ↦ .inl ?_
    rw [AccountRows.releaseCanaryLease, updateWhere_none hrow] at hok
    obtain ⟨rfl, -⟩ := Prod.mk.inj (Except.ok.inj hok)
    exact hrow
  | markOutageNotified =>
    refine none_of_ok hrow rfl fun after reply hok ↦ .inl ?_
    rw [AccountRows.markOutageNotified, updateWhere_none hrow] at hok
    obtain ⟨rfl, -⟩ := Prod.mk.inj (Except.ok.inj hok)
    exact hrow
  | markReminderSent =>
    refine none_of_ok hrow rfl fun after reply hok ↦ .inl ?_
    rw [AccountRows.markReminderSent, updateWhere_none hrow] at hok
    obtain ⟨rfl, -⟩ := Prod.mk.inj (Except.ok.inj hok)
    exact hrow
  | settleExpired =>
    refine none_of_ok hrow rfl fun after reply hok ↦ .inl ?_
    rw [AccountRows.settleExpired, updateWhere_none hrow] at hok
    obtain ⟨rfl, -⟩ := Prod.mk.inj (Except.ok.inj hok)
    exact hrow

/-- A row after an operation on an account without one is a first row. -/
theorem first_of_stepOnNone {after : CapacityRow} (hrow : rows.row = none)
    (hafter : (rows.step event).row = some after) :
    CapacityRow.First event.clock event.call after := by
  obtain hnone | ⟨first, hfirst, hcall⟩ := stepOnNone rows event hrow
  · rw [hnone] at hafter
    cases hafter
  · rwa [← Option.some.inj (hfirst.symm.trans hafter)]

end Rows

end CloudPlatform.ProviderCapacity
