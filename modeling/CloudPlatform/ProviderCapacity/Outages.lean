import CloudPlatform.ProviderCapacity.Changes

/-!
# A new outage starts clean

A refusal of a healthy account starts an outage, and what the row remembers of an earlier one must
not steer it. A healthy row never carries attempts, a schedule or a lease (`Settled`), but neither
proof of recovery clears the inventory baseline, and the marks of the operator cards can be set on a
healthy row. The live refusal resets all of it. Historical evidence resets nothing: `cleanRun_iff`
says that a run starts its outages clean exactly if it admits no historical evidence on a healthy
row with such a residue.
-/

namespace CloudPlatform.ProviderCapacity

open Billing (addSeconds)
open Transition

/-- The row remembers nothing of an earlier outage. -/
structure CapacityRow.Clean (row : CapacityRow) : Prop where
  baselineInstanceCount : row.baselineInstanceCount = none
  baselineInstanceIdsHash : row.baselineInstanceIdsHash = none
  baselineObservedAt : row.baselineObservedAt = none
  recoveryAttempts : row.recoveryAttempts = 0
  canaryLeaseRef : row.canaryLeaseRef = none
  canaryLeaseExpiresAt : row.canaryLeaseExpiresAt = none
  nextRecoveryAttemptAt : row.nextRecoveryAttemptAt = none
  outageNotifiedAt : row.outageNotifiedAt = none
  lastReminderAt : row.lastReminderAt = none

/-- What a healthy row can still carry of an earlier outage. -/
def CapacityRow.Residue (row : CapacityRow) : Prop :=
  row.baselineInstanceCount.isSome ∨ row.baselineInstanceIdsHash.isSome ∨
    row.baselineObservedAt.isSome ∨ row.outageNotifiedAt.isSome ∨ row.lastReminderAt.isSome

namespace AccountRows

/-- No row, or a healthy one. -/
def Healthy (rows : AccountRows) : Prop :=
  ∀ row ∈ rows.row, row.state = AccountCapacityState.healthy.value

instance (rows : AccountRows) : Decidable rows.Healthy :=
  inferInstanceAs (Decidable (∀ row ∈ rows.row, _))

/-- The step moves the state from healthy to one that refuses new orders. -/
def StartsOutage (rows : AccountRows) (event : CapacityEventAt) : Prop :=
  rows.Healthy ∧ ∃ row ∈ (rows.step event).row, row.Blocked

instance (rows : AccountRows) (event : CapacityEventAt) : Decidable (rows.StartsOutage event) :=
  inferInstanceAs (Decidable (_ ∧ ∃ row ∈ (rows.step event).row, _))

/-- A step that starts an outage leaves a clean row. -/
def CleanStart (rows : AccountRows) (event : CapacityEventAt) : Prop :=
  rows.StartsOutage event → ∀ row ∈ (rows.step event).row, row.Clean

/-- A census changes the schedule of the recovery window. -/
def CensusReschedules (rows : AccountRows) (event : CapacityEventAt) (count : ℤ) : Prop :=
  (∃ hash, event.call = .recordInventoryCensus count hash) ∧
    ∃ row ∈ rows.row, ∃ after ∈ (rows.step event).row,
      after.nextRecoveryAttemptAt ≠ row.nextRecoveryAttemptAt

/-- The evidence is recorded: it is valid, it was not reconciled before, and no proof of recovery is
as late as the incident. -/
structure Admits (rows : AccountRows) (evidence : HistoricalCapacityEvidence) (ttlSeconds : ℤ)
    (clock : Clock) : Prop where
  ttl : minLimitTtlSeconds ≤ ttlSeconds
  expires : ∃ expiresAt,
    addSeconds (evidence.observedAt.getD clock.now) ttlSeconds = .ok expiresAt
  observation : ∃ observation, evidence.asObservation = .ok observation
  fresh : ∀ event ∈ rows.events, event.kind = .backfill →
    event.sourceRef ≠ some evidence.sourceRef
  notOutranked : ∀ cleared ∈ rows.clearedAt, cleared < evidence.observedAt.getD clock.now

/-- The event is no historical evidence that is recorded on a healthy row with a residue. -/
def NoResidueAdmitted (rows : AccountRows) (event : CapacityEventAt) : Prop :=
  ∀ evidence ttl, event.call = .recordHistoricalEvidence evidence ttl →
    rows.Admits evidence ttl event.clock → rows.Healthy → ∀ row ∈ rows.row, ¬ row.Residue

end AccountRows

/-- The instance counts of the censuses among the events. -/
def censuses (events : List CapacityEventAt) : List ℤ :=
  events.filterMap fun event ↦
    match event.call with
    | .recordInventoryCensus count _ => some count
    | _ => none

/-- A census reschedules the window only if instances were freed since the outage started: an earlier
census after the start counted more. -/
def FreedOnly (events : List CapacityEventAt) : Prop :=
  ∀ before start during census after count,
    events = before ++ start :: during ++ census :: after →
    (run AccountRows.step {} before).StartsOutage start →
    (run AccountRows.step {} (before ++ start :: during)).CensusReschedules census count →
    ∃ earlier ∈ censuses during, count < earlier

/-! ### Healthy rows -/

/-- A healthy row carries no attempts, no schedule and no lease. -/
def AccountRows.Settled (rows : AccountRows) : Prop :=
  ∀ row ∈ rows.row, row.state = AccountCapacityState.healthy.value →
    row.recoveryAttempts = 0 ∧ row.nextRecoveryAttemptAt = none ∧ row.canaryLeaseRef = none ∧
      row.canaryLeaseExpiresAt = none

theorem CapacityRow.Blocked.state_ne_healthy {row : CapacityRow} (h : row.Blocked) :
    row.state ≠ AccountCapacityState.healthy.value :=
  (CapacityRow.blocked_iff.mp h).1

/-- The texts of the states tell them apart. -/
theorem value_ne_healthy {state : AccountCapacityState} (h : state ≠ .healthy) :
    state.value ≠ AccountCapacityState.healthy.value := by
  intro hvalue
  have hstate := congrArg stateOf hvalue
  rw [stateOf_value, stateOf_value] at hstate
  exact h hstate

/-- Evidence that is reconciled with a record never leaves it healthy. -/
theorem withLimitReached_ne_healthy {record updated : AccountCapacity}
    {observation : CapacityObservation} {ttlSeconds observedAt now : ℤ}
    (h : record.withLimitReached observation ttlSeconds observedAt now = .ok updated) :
    updated.state ≠ .healthy := by
  rw [AccountCapacity.withLimitReached] at h
  obtain ⟨ttl, -, h⟩ := bind_eq_ok.mp h
  simp only at h
  split at h
  · rename_i holder
    rw [← pure_eq_ok.mp h]
    exact holder.2
  · obtain ⟨expiresAt, -, h⟩ := bind_eq_ok.mp h
    rw [← pure_eq_ok.mp h]
    intro h
    cases h

/-- A healthy row after a change: proof resets it, and nothing else makes it healthy. -/
theorem CapacityRow.Change.settled_of {clock : Clock} {call : CapacityCall} {row after : CapacityRow}
    (h : row.Change clock call after)
    (hrow : row.state = AccountCapacityState.healthy.value → row.recoveryAttempts = 0 ∧
      row.nextRecoveryAttemptAt = none ∧ row.canaryLeaseRef = none ∧ row.canaryLeaseExpiresAt = none)
    (hafter : after.state = AccountCapacityState.healthy.value) :
    after.recoveryAttempts = 0 ∧ after.nextRecoveryAttemptAt = none ∧ after.canaryLeaseRef = none ∧
      after.canaryLeaseExpiresAt = none := by
  have hother : ∀ state : AccountCapacityState, state ≠ .healthy → after.state ≠ state.value :=
    fun state hne hstate ↦ value_ne_healthy hne (hstate.symm.trans hafter)
  cases h with
  | refused expiresAt => exact absurd rfl (hother .limitReached nofun)
  | reconciled hupdated => exact absurd rfl (hother _ (withLimitReached_ne_healthy hupdated))
  | baseline hblocked _ _ => exact absurd hafter hblocked.state_ne_healthy
  | freed hblocked _ _ => exact absurd hafter hblocked.state_ne_healthy
  | broughtForward hblocked => exact absurd hafter hblocked.state_ne_healthy
  | scheduled hblocked _ _ => exact absurd hafter hblocked.state_ne_healthy
  | opened _ _ _ _ => exact absurd rfl (hother .recoveryCandidate nofun)
  | leased hcandidate _ _ => exact absurd hcandidate (hother .recoveryCandidate nofun)
  | released _ _ =>
    have hhealthy := hrow hafter
    exact ⟨hhealthy.1, hhealthy.2.1, rfl, rfl⟩
  | canaryRefused _ _ _ _ => exact absurd rfl (hother .limitReached nofun)
  | proven _ => exact ⟨rfl, rfl, rfl, rfl⟩
  | outageNotified _ => exact hrow hafter
  | reminderSent => exact hrow hafter
  | cleared => exact ⟨rfl, rfl, rfl, rfl⟩
  | settled _ => exact absurd rfl (hother .unknownAfterLimit nofun)

theorem CapacityRow.First.settled {clock : Clock} {call : CapacityCall} {first : CapacityRow}
    (h : CapacityRow.First clock call first) :
    first.recoveryAttempts = 0 ∧ first.nextRecoveryAttemptAt = none ∧ first.canaryLeaseRef = none ∧
      first.canaryLeaseExpiresAt = none := by
  cases h with
  | refused _ => exact ⟨rfl, rfl, rfl, rfl⟩
  | cleared => exact ⟨rfl, rfl, rfl, rfl⟩

/-- Every operation keeps healthy rows settled. -/
theorem AccountRows.Settled.step {rows : AccountRows} (h : rows.Settled) (event : CapacityEventAt) :
    (rows.step event).Settled := by
  intro after hafter
  rw [Option.mem_def] at hafter
  cases hrow : rows.row with
  | none =>
    have hcall := first_of_stepOnNone hrow hafter
    exact fun _ ↦ hcall.settled
  | some row =>
    cases stepOnRow rows row event hrow with
    | kept hkept _ =>
      obtain rfl := Option.some.inj (hkept.symm.trans hafter)
      exact h row hrow
    | changed changed hchanged hchange _ =>
      obtain rfl := Option.some.inj (hchanged.symm.trans hafter)
      exact hchange.settled_of (h row hrow)

theorem settled_run (events : List CapacityEventAt) : (run AccountRows.step {} events).Settled :=
  have hstep : ∀ (rows : AccountRows) event, rows.Settled → (rows.step event).Settled :=
    fun _ event h ↦ h.step event
  invariant_run hstep events _ fun _ hrow ↦ by cases hrow

/-! ### How an outage starts -/

section Start

variable {rows : AccountRows} {event : CapacityEventAt} {row : CapacityRow}

theorem CapacityRow.firstRefusal_clean {state : AccountCapacityState}
    {observation : CapacityObservation} {observedAt expiresAt : ℤ} :
    (AccountRows.firstRefusal state observation observedAt expiresAt).Clean :=
  ⟨rfl, rfl, rfl, rfl, rfl, rfl, rfl, rfl, rfl⟩

variable {clock : Clock} {call : CapacityCall}

theorem CapacityRow.First.baseline_none (h : CapacityRow.First clock call row) :
    row.baselineInstanceCount = none := by
  cases h with
  | refused _ => rfl
  | cleared => rfl

theorem CapacityRow.First.clean_of_blocked (h : CapacityRow.First clock call row)
    (hblocked : row.Blocked) : row.Clean := by
  cases h with
  | refused _ => exact CapacityRow.firstRefusal_clean
  | cleared => exact absurd rfl hblocked.state_ne_healthy

/-- The changes that make a healthy row refuse new orders. -/
theorem CapacityRow.Change.of_starts {after : CapacityRow} (h : row.Change clock call after)
    (hhealthy : row.state = AccountCapacityState.healthy.value) (hblocked : after.Blocked) :
    (∃ observation ttl expiresAt, call = .recordLimitReached observation ttl ∧
        after = AccountRows.refused row observation clock.now expiresAt) ∨
      ∃ evidence ttl, call = .recordHistoricalEvidence evidence ttl := by
  have hother : ∀ state : AccountCapacityState, state ≠ .healthy → row.state ≠ state.value :=
    fun state hne hstate ↦ value_ne_healthy hne (hstate.symm.trans hhealthy)
  cases h with
  | refused expiresAt => exact .inl ⟨_, _, expiresAt, rfl, rfl⟩
  | reconciled _ => exact .inr ⟨_, _, rfl⟩
  | baseline hrefuses _ _ => exact absurd hhealthy hrefuses.state_ne_healthy
  | freed hrefuses _ _ => exact absurd hhealthy hrefuses.state_ne_healthy
  | broughtForward hrefuses => exact absurd hhealthy hrefuses.state_ne_healthy
  | scheduled hrefuses _ _ => exact absurd hhealthy hrefuses.state_ne_healthy
  | opened hrefuses _ _ _ => exact absurd hhealthy hrefuses.state_ne_healthy
  | leased hcandidate _ _ => exact absurd hcandidate (hother .recoveryCandidate nofun)
  | released _ _ => exact absurd hhealthy hblocked.state_ne_healthy
  | canaryRefused _ hcandidate _ _ => exact absurd hcandidate (hother .recoveryCandidate nofun)
  | proven _ => exact absurd rfl hblocked.state_ne_healthy
  | outageNotified _ => exact absurd hhealthy hblocked.state_ne_healthy
  | reminderSent => exact absurd hhealthy hblocked.state_ne_healthy
  | cleared => exact absurd rfl hblocked.state_ne_healthy
  | settled hlimit => exact absurd hlimit (hother .limitReached nofun)

/-- The live refusal of a healthy row resets it. -/
theorem CapacityRow.refused_clean (hhealthy : row.state = AccountCapacityState.healthy.value)
    {observation : CapacityObservation} {observedAt expiresAt : ℤ} :
    (AccountRows.refused row observation observedAt expiresAt).Clean := by
  constructor <;> exact if_pos hhealthy

/-- Evidence that is reconciled keeps what the row remembers. -/
theorem CapacityRow.reconciled_clean_iff {updated : AccountCapacity}
    (hsettled : row.recoveryAttempts = 0 ∧ row.nextRecoveryAttemptAt = none ∧
      row.canaryLeaseRef = none ∧ row.canaryLeaseExpiresAt = none) :
    (AccountRows.reconciled row updated).Clean ↔ ¬ row.Residue := by
  obtain ⟨hattempts, hnext, href, hexpires⟩ := hsettled
  rw [CapacityRow.Residue]
  simp only [not_or, Bool.not_eq_true, Option.isSome_eq_false_iff, Option.isNone_iff_eq_none]
  constructor
  · intro h
    exact ⟨h.baselineInstanceCount, h.baselineInstanceIdsHash, h.baselineObservedAt,
      h.outageNotifiedAt, h.lastReminderAt⟩
  · rintro ⟨hcount, hhash, hobserved, hnotified, hreminder⟩
    exact ⟨hcount, hhash, hobserved, hattempts, href, hexpires, hnext, hnotified, hreminder⟩

/-- The evidence log refuses an event that repeats an earlier one. -/
theorem repeated_of_appendOnce {events : List CapacityEvent} {event : CapacityEvent}
    (h : AccountRows.appendOnce events event = none) :
    ∃ other ∈ events, other.kind = event.kind ∧ other.sourceRef = event.sourceRef := by
  rw [AccountRows.appendOnce] at h
  split at h
  · rename_i hrepeated
    simpa using hrepeated.2
  · cases h

/-- The evidence log takes an event of a source that no earlier one repeats. -/
theorem fresh_of_appendOnce {events longer : List CapacityEvent} {event : CapacityEvent} {ref : String}
    (h : AccountRows.appendOnce events event = some longer) (href : event.sourceRef = some ref)
    {other : CapacityEvent} (hother : other ∈ events) (hkind : other.kind = event.kind) :
    other.sourceRef ≠ some ref := by
  intro hsource
  rw [AccountRows.appendOnce, if_pos] at h
  · cases h
  · rw [href]
    exact ⟨rfl, List.any_eq_true.mpr ⟨other, hother, by simpa using ⟨hkind, hsource⟩⟩⟩

theorem validateLimitTtl_eq_ok {ttlSeconds valid : ℤ} (h : validateLimitTtl ttlSeconds = .ok valid) :
    minLimitTtlSeconds ≤ ttlSeconds ∧ valid = ttlSeconds := by
  rw [validateLimitTtl] at h
  obtain ⟨hle, h⟩ := rejectIf_bind_eq_ok.mp h
  exact ⟨by simpa using hle, (pure_eq_ok.mp h).symm⟩

/-- Evidence on a healthy record makes it a refusal, whatever its own refusal was. -/
theorem withLimitReached_healthy {record : AccountCapacity} (observation : CapacityObservation)
    {ttlSeconds observedAt expiresAt : ℤ} (now : ℤ) (hstate : record.state = .healthy)
    (httl : minLimitTtlSeconds ≤ ttlSeconds)
    (hexpires : addSeconds observedAt ttlSeconds = .ok expiresAt) :
    ∃ updated, record.withLimitReached observation ttlSeconds observedAt now = .ok updated ∧
      updated.state = .limitReached := by
  have hsettled : record.settled now = record := by
    rw [AccountCapacity.settled, if_neg (by simp [hstate])]
  rw [AccountCapacity.withLimitReached, validateLimitTtl_of_le httl, ok_bind]
  simp only [hsettled, hstate, ne_eq, not_true_eq_false, and_false, if_false, hexpires, ok_bind]
  exact ⟨_, rfl, rfl⟩

/-- Historical evidence on a healthy row: it is recorded exactly if the log admits it. -/
theorem evidence_on_healthy {evidence : HistoricalCapacityEvidence} {ttl : ℤ}
    (hcall : event.call = .recordHistoricalEvidence evidence ttl) (hrow : rows.row = some row)
    (hhealthy : row.state = AccountCapacityState.healthy.value) :
    (rows.Admits evidence ttl event.clock ∧ ∃ updated : AccountCapacity,
        (rows.step event).row = some (AccountRows.reconciled row updated) ∧
          updated.state = .limitReached) ∨
      (¬ rows.Admits evidence ttl event.clock ∧ (rows.step event).row = some row) := by
  obtain ⟨call, clock⟩ := event
  obtain rfl : call = _ := hcall
  have hcapacity : (row.capacity clock.wall).state = .healthy := by
    rw [CapacityRow.capacity, hhealthy, stateOf_value, AccountCapacity.settled, if_neg (by simp)]
  by_cases hadmits : rows.Admits evidence ttl clock
  · refine .inl ⟨hadmits, ?_⟩
    obtain ⟨httl, ⟨expiresAt, hexpires⟩, ⟨observation, hobservation⟩, hfresh, hranks⟩ := hadmits
    obtain ⟨updated, hupdated, hlimit⟩ :=
      withLimitReached_healthy observation clock.wall hcapacity httl hexpires
    have hwins : rows.clearedAt.any (evidence.observedAt.getD clock.now ≤ ·) = false := by
      cases hcleared : rows.clearedAt with
      | none => rfl
      | some cleared => simpa using hranks cleared hcleared
    refine ⟨updated, ?_, hlimit⟩
    change (transaction rows (rows.recordHistoricalEvidence evidence ttl clock)).2.row = _
    rw [AccountRows.recordHistoricalEvidence, validateLimitTtl_of_le httl, ok_bind]
    simp only [hexpires, hobservation, ok_bind, hwins, Bool.false_and, Bool.false_eq_true, if_false,
      hrow]
    split
    · rename_i hrepeated
      obtain ⟨other, hother, hkind, hsource⟩ := repeated_of_appendOnce hrepeated
      exact absurd hsource (hfresh other hother hkind)
    · rw [hupdated, ok_bind]
      rfl
  · refine .inr ⟨hadmits, ?_⟩
    change (transaction rows (rows.recordHistoricalEvidence evidence ttl clock)).2.row = _
    cases houtcome : rows.recordHistoricalEvidence evidence ttl clock with
    | error raised => exact hrow
    | ok pair =>
      rw [AccountRows.recordHistoricalEvidence] at houtcome
      obtain ⟨valid, hvalid, houtcome⟩ := bind_eq_ok.mp houtcome
      obtain ⟨expiresAt, hexpires, houtcome⟩ := bind_eq_ok.mp houtcome
      obtain ⟨observation, hobservation, houtcome⟩ := bind_eq_ok.mp houtcome
      simp only [hrow, Option.map_some, Option.any_some, hcapacity, decide_true,
        Bool.and_true] at houtcome
      split at houtcome
      · obtain rfl := pure_eq_ok.mp houtcome
        exact hrow
      · rename_i longer hlonger
        by_cases hranks : rows.clearedAt.any (evidence.observedAt.getD clock.now ≤ ·) = true
        · rw [if_pos hranks] at houtcome
          obtain rfl := pure_eq_ok.mp houtcome
          rfl
        · refine absurd ⟨(validateLimitTtl_eq_ok hvalid).1, ⟨expiresAt, ?_⟩, ⟨observation, hobservation⟩,
            fun other hother hkind ↦ fresh_of_appendOnce hlonger rfl hother hkind, fun cleared hcleared ↦ ?_⟩ hadmits
          · rw [(validateLimitTtl_eq_ok hvalid).2] at hexpires
            exact hexpires
          · rw [Option.mem_def.mp hcleared] at hranks
            simpa using hranks

/-- From a settled healthy row, an outage starts clean exactly if no residue is admitted. -/
theorem cleanStart_iff (hsettled : rows.Settled) :
    rows.CleanStart event ↔ rows.NoResidueAdmitted event := by
  constructor
  · intro hclean evidence ttl hcall hadmits hhealthy row hrow
    obtain ⟨-, updated, hafter, hlimit⟩ | ⟨hrefused, -⟩ :=
      evidence_on_healthy hcall hrow (hhealthy row hrow)
    · have hblocked : (AccountRows.reconciled row updated).Blocked :=
        blocked_of_value updated.state rfl (.inl hlimit)
      have hstart := hclean ⟨hhealthy, _, hafter, hblocked⟩ _ hafter
      exact (CapacityRow.reconciled_clean_iff (hsettled row hrow (hhealthy row hrow))).mp hstart
    · exact absurd hadmits hrefused
  · rintro hcondition ⟨hhealthy, blocked, hblocked, hrefuses⟩ after hafter
    obtain rfl := Option.some.inj (hblocked.symm.trans hafter)
    rw [Option.mem_def] at hafter
    cases hrow : rows.row with
    | none =>
      have hcall := first_of_stepOnNone hrow hafter
      exact hcall.clean_of_blocked hrefuses
    | some row =>
      have hstate := hhealthy row hrow
      cases stepOnRow rows row event hrow with
      | kept hkept _ =>
        obtain rfl := Option.some.inj (hkept.symm.trans hafter)
        exact absurd hstate hrefuses.state_ne_healthy
      | changed changed hchanged hchange _ =>
        obtain rfl := Option.some.inj (hchanged.symm.trans hafter)
        obtain ⟨observation, ttl, expiresAt, -, rfl⟩ | ⟨evidence, ttl, hcall⟩ :=
          hchange.of_starts hstate hrefuses
        · exact CapacityRow.refused_clean hstate
        · obtain ⟨hadmits, updated, hupdated, -⟩ | ⟨-, hkept⟩ := evidence_on_healthy hcall hrow hstate
          · obtain rfl := Option.some.inj (hupdated.symm.trans hafter)
            exact (CapacityRow.reconciled_clean_iff (hsettled row hrow hstate)).mpr
              (hcondition evidence ttl hcall hadmits hhealthy row hrow)
          · obtain rfl := Option.some.inj (hkept.symm.trans hafter)
            exact absurd hstate hrefuses.state_ne_healthy

end Start

/-! ### Baselines -/

/-- A change leaves the baseline, drops it, or captures it by a census. -/
theorem CapacityRow.Change.baseline_cases {clock : Clock} {call : CapacityCall}
    {row after : CapacityRow} (h : row.Change clock call after) :
    after.baselineInstanceCount = row.baselineInstanceCount ∨ after.baselineInstanceCount = none ∨
      ∃ count hash, call = .recordInventoryCensus count hash ∧ 0 ≤ count ∧
        after.baselineInstanceCount = some count.toNat := by
  cases h with
  | refused expiresAt =>
    by_cases hhealthy : row.state = AccountCapacityState.healthy.value
    · exact .inr (.inl (if_pos hhealthy))
    · exact .inl (if_neg hhealthy)
  | baseline _ hcount _ => exact .inr (.inr ⟨_, _, rfl, hcount, rfl⟩)
  | _ => exact .inl rfl

/-- The baseline of the stored row is one of the counts. -/
def AccountRows.BaselineIn (rows : AccountRows) (counts : List ℤ) : Prop :=
  ∀ row ∈ rows.row, ∀ baseline : ℕ, row.baselineInstanceCount = some baseline →
    (baseline : ℤ) ∈ counts

/-- One operation adds the count of its census, if it is one. -/
theorem AccountRows.BaselineIn.step {rows : AccountRows} {counts : List ℤ}
    (h : rows.BaselineIn counts) (event : CapacityEventAt) :
    (rows.step event).BaselineIn (counts ++ censuses [event]) := by
  intro after hafter baseline hbaseline
  rw [Option.mem_def] at hafter
  rw [List.mem_append]
  cases hrow : rows.row with
  | none =>
    have hcall := first_of_stepOnNone hrow hafter
    rw [hcall.baseline_none] at hbaseline
    cases hbaseline
  | some row =>
    cases stepOnRow rows row event hrow with
    | kept hkept _ =>
      obtain rfl := Option.some.inj (hkept.symm.trans hafter)
      exact .inl (h row hrow baseline hbaseline)
    | changed changed hchanged hchange _ =>
      obtain rfl := Option.some.inj (hchanged.symm.trans hafter)
      obtain hsame | hnone | ⟨count, hash, hcall, hcount, hcaptured⟩ := hchange.baseline_cases
      · exact .inl (h row hrow baseline (hsame.symm.trans hbaseline))
      · rw [hnone] at hbaseline
        cases hbaseline
      · obtain rfl := Option.some.inj (hcaptured.symm.trans hbaseline)
        rw [Int.toNat_of_nonneg hcount]
        exact .inr (by simp [censuses, hcall])

theorem AccountRows.BaselineIn.run (events : List CapacityEventAt) :
    ∀ {rows : AccountRows} {counts : List ℤ}, rows.BaselineIn counts →
      (run AccountRows.step rows events).BaselineIn (counts ++ censuses events) := by
  induction events with
  | nil => intro rows counts h; simpa [censuses] using h
  | cons event rest ih =>
    intro rows counts h
    have hrest := ih (h.step event)
    rw [List.append_assoc, censuses, censuses, ← List.filterMap_append] at hrest
    exact hrest

/-- In every state that is reached, a healthy row carries no attempts, no schedule and no lease, and a
baseline is what some census has counted. -/
theorem stored_consistent (events : List CapacityEventAt) :
    (run AccountRows.step {} events).Settled ∧
      (run AccountRows.step {} events).BaselineIn (censuses events) := by
  have hnone : AccountRows.BaselineIn {} [] := fun _ hrow ↦ by cases hrow
  exact ⟨settled_run events, hnone.run events⟩

/-- A census that reschedules the window counts less than the baseline. -/
theorem below_baseline_of_reschedules {rows : AccountRows} {event : CapacityEventAt} {count : ℤ}
    (h : rows.CensusReschedules event count) :
    ∃ row ∈ rows.row, ∃ baseline : ℕ, row.baselineInstanceCount = some baseline ∧ count < baseline := by
  obtain ⟨⟨hash, hcall⟩, row, hrow, after, hafter, hmoved⟩ := h
  refine ⟨row, hrow, ?_⟩
  rw [Option.mem_def] at hafter
  cases stepOnRow rows row event hrow with
  | kept hkept _ =>
    obtain rfl := Option.some.inj (hkept.symm.trans hafter)
    exact absurd rfl hmoved
  | changed changed hchanged hchange _ =>
    obtain rfl := Option.some.inj (hchanged.symm.trans hafter)
    rw [hcall] at hchange
    cases hchange with
    | baseline _ _ _ => exact absurd rfl hmoved
    | freed _ hbaseline hlower => exact ⟨_, hbaseline, hlower⟩

/-- After a clean start, a census reschedules the window only below a later census. -/
theorem freedOnly_of_cleanStart {events : List CapacityEventAt}
    (h : Along AccountRows.step AccountRows.CleanStart {} events) : FreedOnly events := by
  intro before start during census after count hevents hstart hreschedules
  obtain ⟨row, hrow, baseline, hbaseline, hlower⟩ := below_baseline_of_reschedules hreschedules
  rw [hevents, List.append_assoc, along_append, List.cons_append, along_cons] at h
  have hclean := h.2.1 hstart
  have hnone : ((run AccountRows.step {} before).step start).BaselineIn [] := by
    intro row hrow baseline hbaseline
    rw [(hclean row hrow).baselineInstanceCount] at hbaseline
    cases hbaseline
  rw [run_append, run_cons] at hrow
  exact ⟨baseline, by simpa using hnone.run during row hrow baseline hbaseline, hlower⟩

/-- In every run, each outage starts with a clean row, and each census that reschedules a window
counts less than one since the start, exactly if no step records historical evidence on a healthy
row that still carries a baseline or a mark. -/
theorem cleanRun_iff (events : List CapacityEventAt) :
    (Along AccountRows.step AccountRows.CleanStart {} events ∧ FreedOnly events) ↔
      Along AccountRows.step AccountRows.NoResidueAdmitted {} events := by
  have hstep : ∀ (rows : AccountRows) event, rows.Settled → rows.CleanStart event →
      (rows.step event).Settled := fun _ event h _ ↦ h.step event
  have hstart : ∀ (rows : AccountRows) event, rows.Settled →
      (rows.CleanStart event ↔ rows.NoResidueAdmitted event) := fun _ _ h ↦ cleanStart_iff h
  have hagree := along_congr hstart hstep events {}
    fun _ hrow ↦ by cases hrow
  rw [← hagree]
  exact and_iff_left_of_imp freedOnly_of_cleanStart

/-- Evidence of a refusal that came after the override. -/
def laterEvidence : CapacityEventAt :=
  ⟨.recordHistoricalEvidence
    { sourceRef := "server-create:1", observedAt := some 3, sourceRef_nonblank := by decide } 3600,
    ⟨4, 4⟩⟩

/-- An outage with a census of ten instances, and the operator's override. -/
def clearedOutage : List CapacityEventAt :=
  [⟨.recordLimitReached {} 3600, ⟨0, 0⟩⟩, ⟨.recordInventoryCensus 10 "abc", ⟨1, 1⟩⟩,
    ⟨.recordHealthy, ⟨2, 2⟩⟩]

/-- The override, the evidence of a later refusal, and a census of nine: the second outage starts
with the baseline of the first, and its first census brings the window forward. -/
theorem not_cleanRun_staleBaseline :
    ¬ Along AccountRows.step AccountRows.CleanStart {} (clearedOutage ++ [laterEvidence]) ∧
      ¬ FreedOnly (clearedOutage ++ [laterEvidence, ⟨.recordInventoryCensus 9 "abd", ⟨5, 5⟩⟩]) := by
  have hstart : (run AccountRows.step {} clearedOutage).StartsOutage laterEvidence := by
    decide +kernel
  constructor
  · intro h
    rw [along_append, along_cons] at h
    have hclean := h.2.1 hstart
    have hbaseline : ∃ row ∈ (run AccountRows.step {} (clearedOutage ++ [laterEvidence])).row,
        row.baselineInstanceCount = some 10 := by decide +kernel
    obtain ⟨row, hrow, hten⟩ := hbaseline
    rw [run_append] at hrow
    rw [(hclean row hrow).baselineInstanceCount] at hten
    cases hten
  · intro h
    have hmoved : ∃ row ∈ (run AccountRows.step {} (clearedOutage ++ [laterEvidence])).row,
        ∃ after ∈ ((run AccountRows.step {} (clearedOutage ++ [laterEvidence])).step
          ⟨.recordInventoryCensus 9 "abd", ⟨5, 5⟩⟩).row,
        after.nextRecoveryAttemptAt ≠ row.nextRecoveryAttemptAt := by decide +kernel
    obtain ⟨earlier, hearlier, -⟩ := h clearedOutage laterEvidence [] _ [] 9 rfl hstart
      ⟨⟨"abd", rfl⟩, hmoved⟩
    cases hearlier

end CloudPlatform.ProviderCapacity
