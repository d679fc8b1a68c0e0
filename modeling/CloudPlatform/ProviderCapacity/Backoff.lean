import CloudPlatform.ProviderCapacity.Canary

/-!
# The backoff of a refused canary

A counted refusal schedules the next window of the outage. The schedule competes with the
bring-forward of a census below the baseline, which is captured once an outage and never lowered:
a decrease that an earlier census reported brings the window forward again after every refusal.
`honoursBackoff` says that the delay is kept in every run of an outage in which a census below the
baseline is new, that is, below every census that was taken before the refusal.
-/

namespace CloudPlatform.ProviderCapacity

open Billing (addSeconds_eq_ok)
open Calendar (second)
open Transition

namespace AccountRows

/-- A refusal of a canary is counted, with its delay. -/
def BacksOff (rows : AccountRows) (event : CapacityEventAt) (delaySeconds : ℤ) : Prop :=
  (∃ ref observation ttl, event.call = .recordCanaryRefusal ref observation delaySeconds ttl) ∧
    rows.wins event = true

/-- The recovery window opens. -/
def Opens (rows : AccountRows) (event : CapacityEventAt) : Prop :=
  event.call = .openRecoveryWindow ∧ rows.wins event = true

/-- A census of a blocked account is below its stored baseline. -/
def BelowBaseline (rows : AccountRows) (event : CapacityEventAt) (count : ℤ) : Prop :=
  (∃ hash, event.call = .recordInventoryCensus count hash) ∧
    ∃ row ∈ rows.row, row.Blocked ∧ ∃ baseline ∈ row.baselineInstanceCount, count < (baseline : ℤ)

/-- The window is blocked until the instant that it is scheduled for. -/
def ScheduledFor (rows : AccountRows) (due : ℤ) : Prop :=
  ∃ row ∈ rows.row, row.Blocked ∧ row.nextRecoveryAttemptAt = some due

end AccountRows

/-- Between a counted refusal and the next opened window its delay elapses, unless a recovery was
brought forward in between, or a census was lower than every census before the refusal. -/
def HonoursBackoff (start : AccountRows) (calls : List CapacityEventAt) : Prop :=
  ∀ before refusal between opening after delay,
    calls = before ++ refusal :: between ++ opening :: after →
    (run AccountRows.step start before).BacksOff refusal delay →
    Along AccountRows.step (fun rows event ↦ ¬ rows.Opens event)
      (run AccountRows.step start (before ++ [refusal])) between →
    (run AccountRows.step start (before ++ refusal :: between)).Opens opening →
    (∃ event ∈ between, event.call = .bringForwardRecovery) ∨
      (∃ count ∈ censuses between, ∀ earlier ∈ censuses before, count < earlier) ∨
      refusal.clock.now + delay * second ≤ opening.clock.now

/-- After a counted refusal, and before the next window, every census below the baseline is below
every census before the refusal. -/
def DecreasesAreNew (start : AccountRows) (calls : List CapacityEventAt) : Prop :=
  ∀ before refusal between census after delay count,
    calls = before ++ refusal :: between ++ census :: after →
    (run AccountRows.step start before).BacksOff refusal delay →
    Along AccountRows.step (fun rows event ↦ ¬ rows.Opens event)
      (run AccountRows.step start (before ++ [refusal])) between →
    (run AccountRows.step start (before ++ refusal :: between)).BelowBaseline census count →
    ∀ earlier ∈ censuses before, count < earlier

/-! ### The schedule of a blocked row -/

section Schedule

variable {rows : AccountRows} {event : CapacityEventAt} {row : CapacityRow}

/-- Evidence that is reconciled leaves a blocked row blocked. -/
theorem CapacityRow.Blocked.reconciled {observation : CapacityObservation} {ttl observedAt wall : ℤ}
    {updated : AccountCapacity} (hblocked : row.Blocked)
    (h : (row.capacity wall).withLimitReached observation ttl observedAt wall = .ok updated) :
    (AccountRows.reconciled row updated).Blocked := by
  refine blocked_of_value updated.state rfl ?_
  obtain hsettled | hlimit := state_withLimitReached h
  · rw [hsettled, ← AccountCapacity.isLimitReached_iff _ wall,
      AccountCapacity.isLimitReached_settled, isLimitReached_capacity]
    exact hblocked
  · exact .inl hlimit

/-- A blocked row is no candidate. -/
theorem CapacityRow.Blocked.not_candidate (hblocked : row.Blocked) :
    row.state ≠ AccountCapacityState.recoveryCandidate.value :=
  (CapacityRow.blocked_iff.mp hblocked).2

/-- What can move the schedule of a blocked row. -/
theorem CapacityRow.Change.schedule_cases {clock : Clock} {call : CapacityCall} {after : CapacityRow}
    {due : ℤ} (h : row.Change clock call after) (hblocked : row.Blocked)
    (hdue : row.nextRecoveryAttemptAt = some due) :
    (after.Blocked ∧ after.nextRecoveryAttemptAt = some due) ∨ call = .bringForwardRecovery ∨
      call = .openRecoveryWindow ∨ (∃ count hash, call = .recordInventoryCensus count hash ∧
        ∃ baseline ∈ row.baselineInstanceCount, count < (baseline : ℤ)) ∨
      (∃ ref, call = .recordRecoveryProven ref ∧ row.canaryLeaseRef = some ref) ∨
      call = .recordHealthy := by
  cases h with
  | refused expiresAt =>
    refine .inl ⟨blocked_of_value .limitReached rfl (.inl rfl), ?_⟩
    exact (if_neg hblocked.state_ne_healthy).trans hdue
  | reconciled hupdated => exact .inl ⟨hblocked.reconciled hupdated, hdue⟩
  | baseline _ _ _ => exact .inl ⟨hblocked, hdue⟩
  | freed _ hbaseline hlower =>
    exact .inr (.inr (.inr (.inl ⟨_, _, rfl, _, hbaseline, hlower⟩)))
  | broughtForward _ => exact .inr (.inl rfl)
  | scheduled _ hnone _ =>
    rw [hdue] at hnone
    cases hnone
  | opened _ _ _ _ => exact .inr (.inr (.inl rfl))
  | leased hcandidate _ _ => exact absurd hcandidate hblocked.not_candidate
  | released _ _ => exact .inl ⟨hblocked, hdue⟩
  | canaryRefused _ hcandidate _ _ => exact absurd hcandidate hblocked.not_candidate
  | proven hlease => exact .inr (.inr (.inr (.inr (.inl ⟨_, rfl, hlease⟩))))
  | outageNotified _ => exact .inl ⟨hblocked, hdue⟩
  | reminderSent => exact .inl ⟨hblocked, hdue⟩
  | cleared => exact .inr (.inr (.inr (.inr (.inr rfl))))
  | settled _ => exact .inl ⟨blocked_of_value .unknownAfterLimit rfl (.inr rfl), hdue⟩

/-- An operation that does not move the schedule keeps it. -/
theorem scheduledFor_step {due : ℤ} (h : rows.ScheduledFor due)
    (hforward : event.call ≠ .bringForwardRecovery) (hopens : ¬ rows.Opens event)
    (hcensus : ∀ count, ¬ rows.BelowBaseline event count) (hproof : ¬ rows.Proves event) :
    (rows.step event).ScheduledFor due := by
  obtain ⟨row, hrow, hblocked, hdue⟩ := h
  cases stepOnRow rows row event hrow with
  | kept hkept _ => exact ⟨row, hkept, hblocked, hdue⟩
  | changed after hafter hchange hwins =>
    obtain hsame | hcall | hcall | ⟨count, hash, hcall, hlower⟩ | ⟨ref, hcall, hlease⟩ | hcall :=
      hchange.schedule_cases hblocked hdue
    · exact ⟨after, hafter, hsame⟩
    · exact absurd hcall hforward
    · exact absurd ⟨hcall, hwins (by rw [hcall]; rfl)⟩ hopens
    · exact absurd ⟨⟨hash, hcall⟩, row, hrow, hblocked, hlower⟩ (hcensus count)
    · exact absurd (.inr ⟨row, hrow, ref, hlease, hcall⟩) hproof
    · exact absurd (.inl hcall) hproof

/-- A counted refusal schedules the next window. -/
theorem scheduledFor_of_backsOff {delay : ℤ} (h : rows.BacksOff event delay) :
    (rows.step event).ScheduledFor (event.clock.now + delay * second) := by
  obtain ⟨⟨ref, observation, ttl, hcall⟩, hwins⟩ := h
  obtain ⟨row, after, hrow, hafter, hchange⟩ := change_of_wins hwins
  rw [hcall] at hchange
  cases hchange with
  | canaryRefused _ _ _ hdue =>
    refine ⟨_, hafter, blocked_of_value .limitReached rfl (.inl rfl), ?_⟩
    rw [← addSeconds_eq_ok hdue]
    rfl

/-- A window opens not before its schedule. -/
theorem due_of_opens {due : ℤ} (hscheduled : rows.ScheduledFor due) (hopens : rows.Opens event) :
    due ≤ event.clock.now := by
  obtain ⟨row, hrow, -, hdue⟩ := hscheduled
  obtain ⟨hcall, hwins⟩ := hopens
  obtain ⟨found, after, hfound, -, hchange⟩ := change_of_wins hwins
  obtain rfl := Option.some.inj (hfound.symm.trans hrow)
  rw [hcall] at hchange
  cases hchange with
  | opened _ hnext hle _ =>
    obtain rfl := Option.some.inj (hdue.symm.trans hnext)
    exact hle

end Schedule

/-- In every run of operations within one outage, whatever the clocks: if every census that comes out
below the baseline after a refusal is below every census before it, the delays are honoured. -/
theorem honoursBackoff (start : AccountRows) (calls : List CapacityEventAt)
    (houtage : Along AccountRows.step (fun rows event ↦ ¬ rows.Proves event) start calls)
    (hnew : DecreasesAreNew start calls) : HonoursBackoff start calls := by
  intro before refusal between opening after delay hcalls hrefusal hclosed hopens
  by_cases hforward : ∃ event ∈ between, event.call = .bringForwardRecovery
  · exact .inl hforward
  by_cases hlower : ∃ count ∈ censuses between, ∀ earlier ∈ censuses before, count < earlier
  · exact .inr (.inl hlower)
  refine .inr (.inr ?_)
  have hquiet : Along AccountRows.step (fun rows event ↦ event.call ≠ .bringForwardRecovery ∧
      ¬ rows.Opens event ∧ (∀ count, ¬ rows.BelowBaseline event count) ∧ ¬ rows.Proves event)
      (run AccountRows.step start (before ++ [refusal])) between := by
    rw [along_iff_forall_split]
    intro earlier event later hsplit
    have hstate : run AccountRows.step (run AccountRows.step start (before ++ [refusal])) earlier =
        run AccountRows.step start (before ++ refusal :: earlier) := by
      rw [← run_append, List.append_assoc, List.singleton_append]
    refine ⟨fun hcall ↦ hforward ⟨event, by simp [hsplit], hcall⟩, ?_, fun count hcensus ↦ ?_, ?_⟩
    · exact (along_iff_forall_split _ _ _ _).mp hclosed earlier event later hsplit
    · rw [hstate] at hcensus
      have hearlier : Along AccountRows.step (fun rows event ↦ ¬ rows.Opens event)
          (run AccountRows.step start (before ++ [refusal])) earlier := by
        rw [hsplit, along_append] at hclosed
        exact hclosed.1
      refine hlower ⟨count, ?_, hnew before refusal earlier event (later ++ opening :: after) delay
        count (by simp [hcalls, hsplit]) hrefusal hearlier hcensus⟩
      obtain ⟨⟨hash, hcall⟩, -⟩ := hcensus
      simp [hsplit, censuses, hcall]
    · rw [hstate]
      exact (along_iff_forall_split _ _ _ _).mp houtage (before ++ refusal :: earlier) event
        (later ++ opening :: after) (by simp [hcalls, hsplit])
  have hstep : ∀ (rows : AccountRows) event,
      rows.ScheduledFor (refusal.clock.now + delay * second) →
      (event.call ≠ .bringForwardRecovery ∧ ¬ rows.Opens event ∧
        (∀ count, ¬ rows.BelowBaseline event count) ∧ ¬ rows.Proves event) →
      (rows.step event).ScheduledFor (refusal.clock.now + delay * second) :=
    fun rows event h hevent ↦ scheduledFor_step h hevent.1 hevent.2.1 hevent.2.2.1 hevent.2.2.2
  have hscheduled := scheduledFor_of_backsOff hrefusal
  rw [run_append, run_cons, run_nil] at hquiet
  have hdue := invariant_run_of_along hstep between _ hscheduled hquiet
  rw [run_append, run_cons] at hopens
  exact due_of_opens hdue hopens

end CloudPlatform.ProviderCapacity
