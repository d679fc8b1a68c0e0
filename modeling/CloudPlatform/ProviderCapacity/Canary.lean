import CloudPlatform.ProviderCapacity.Outages

/-!
# At most one canary

The canary lease over any list of operations on an account, at clocks that never go back. What a
successful `begin_canary_attempt` acquires ends only by a release, a counted refusal or a proof of
recovery under it, the operator's override, or its expiry (`OneCanary.renewed`); so two references
never hold an unexpired lease together, and one lease has one verdict.
-/

namespace CloudPlatform.ProviderCapacity

open Billing (addSeconds_eq_ok)
open Calendar (second)
open Transition

namespace AccountRows

/-- The reference acquires the lease. -/
def Begins (rows : AccountRows) (event : CapacityEventAt) (ref : String) : Prop :=
  (∃ lease, event.call = .beginCanaryAttempt ref lease) ∧ rows.wins event = true

/-- The refusal of a canary that returns a row. -/
def CountsRefusal (rows : AccountRows) (event : CapacityEventAt) (ref : String) : Prop :=
  (∃ observation delay ttl, event.call = .recordCanaryRefusal ref observation delay ttl) ∧
    rows.wins event = true

/-- The acceptance of the canary that holds the lease. -/
def ProvesRecovery (rows : AccountRows) (event : CapacityEventAt) (ref : String) : Prop :=
  event.call = .recordRecoveryProven ref ∧ rows.wins event = true

/-- The lease of the reference is released. -/
def Releases (rows : AccountRows) (event : CapacityEventAt) (ref : String) : Prop :=
  (event.call = .releaseCanaryLease none ∨ event.call = .releaseCanaryLease (some ref)) ∧
    rows.wins event = true

/-- The lease of the reference is released, refused, proven or reset. -/
def EndsLease (rows : AccountRows) (event : CapacityEventAt) (ref : String) : Prop :=
  rows.Releases event ref ∨ rows.CountsRefusal event ref ∨ rows.ProvesRecovery event ref ∨
    event.call = .recordHealthy

end AccountRows

/-- The instant at which the lease that the event begins expires. -/
def CapacityEventAt.leaseExpiry (event : CapacityEventAt) : ℤ :=
  match event.call with
  | .beginCanaryAttempt _ leaseSeconds => event.clock.now + leaseSeconds * second
  | _ => event.clock.now

/-- The clock never goes back, and no operation is given an instant of the future. -/
structure Ordered (calls : List CapacityEventAt) : Prop where
  forward : calls.Pairwise fun first second ↦ first.clock.wall ≤ second.clock.wall
  past : ∀ event ∈ calls, event.clock.now ≤ event.clock.wall

/-- After the operations, the reference holds a lease that has not expired by the instant. -/
def Holds (calls : List CapacityEventAt) (ref : String) (now : ℤ) : Prop :=
  ∃ before first between, calls = before ++ first :: between ∧
    (run AccountRows.step {} before).Begins first ref ∧ now < first.leaseExpiry ∧
    Along AccountRows.step (fun rows event ↦ ¬ rows.EndsLease event ref)
      (run AccountRows.step {} (before ++ [first])) between

/-- The recovery attempts grow by one with a counted refusal, and by nothing else. -/
def CountsAttempts (rows : AccountRows) (event : CapacityEventAt) : Prop :=
  ∀ row ∈ rows.row, ∀ after ∈ (rows.step event).row,
    ((∃ ref, rows.CountsRefusal event ref) → after.recoveryAttempts = row.recoveryAttempts + 1) ∧
      ((∀ ref, ¬ rows.CountsRefusal event ref) → after.recoveryAttempts ≤ row.recoveryAttempts)

/-- What the operations on an account keep of the canary. -/
structure OneCanary (calls : List CapacityEventAt) : Prop where
  /-- Two references never hold an unexpired lease at one time. -/
  alone : ∀ ref other now, (∀ event ∈ calls, event.clock.wall ≤ now) → Holds calls ref now →
    Holds calls other now → ref = other
  /-- Between two leases of different references the first one ended, or it had expired. -/
  renewed : ∀ before first between second after ref other,
    calls = before ++ first :: between ++ second :: after → ref ≠ other →
    (run AccountRows.step {} before).Begins first ref →
    (run AccountRows.step {} (before ++ first :: between)).Begins second other →
    (∃ earlier event later, between = earlier ++ event :: later ∧
      (run AccountRows.step {} (before ++ first :: earlier)).EndsLease event ref) ∨
      first.leaseExpiry ≤ second.clock.wall
  counted : Along AccountRows.step CountsAttempts {} calls
  /-- Between two verdicts of one reference it acquired the lease anew. -/
  verdict : ∀ before first between second after ref,
    calls = before ++ first :: between ++ second :: after →
    ((run AccountRows.step {} before).CountsRefusal first ref ∨
      (run AccountRows.step {} before).ProvesRecovery first ref) →
    ((run AccountRows.step {} (before ++ first :: between)).CountsRefusal second ref ∨
      (run AccountRows.step {} (before ++ first :: between)).ProvesRecovery second ref) →
    ∃ earlier event later, between = earlier ++ event :: later ∧
      (run AccountRows.step {} (before ++ first :: earlier)).Begins event ref

/-! ### One operation and the lease -/

section Lease

variable {rows : AccountRows} {event : CapacityEventAt} {row : CapacityRow} {ref : String}

/-- The stored lease is the reference's, until the instant. -/
def AccountRows.Leased (rows : AccountRows) (ref : String) (expires : ℤ) : Prop :=
  ∃ row ∈ rows.row, row.canaryLeaseRef = some ref ∧ row.canaryLeaseExpiresAt = some expires

/-- A winning update makes its change on the stored row. -/
theorem change_of_wins (hwins : rows.wins event = true) :
    ∃ row after, rows.row = some row ∧ (rows.step event).row = some after ∧
      row.Change event.clock event.call after := by
  cases hrow : rows.row with
  | none =>
    rw [wins_of_none hrow] at hwins
    cases hwins
  | some row =>
    cases stepOnRow rows row event hrow with
    | kept _ hlost =>
      rw [hlost] at hwins
      cases hwins
    | changed after hafter hchange _ => exact ⟨row, after, rfl, hafter, hchange⟩

theorem begins_change (h : rows.Begins event ref) :
    ∃ row after expiresAt, rows.row = some row ∧ (rows.step event).row = some after ∧
      (∀ expires ∈ row.canaryLeaseExpiresAt, expires ≤ event.clock.now) ∧
      after.canaryLeaseRef = some ref ∧ after.canaryLeaseExpiresAt = some expiresAt ∧
      expiresAt = event.leaseExpiry := by
  obtain ⟨⟨lease, hcall⟩, hwins⟩ := h
  obtain ⟨row, after, hrow, hafter, hchange⟩ := change_of_wins hwins
  rw [hcall] at hchange
  cases hchange with
  | leased _ hfree hexpires =>
    refine ⟨row, _, _, hrow, hafter, hfree, rfl, rfl, ?_⟩
    rw [CapacityEventAt.leaseExpiry, hcall]
    exact addSeconds_eq_ok hexpires

/-- A verdict finds the lease of its reference. -/
theorem verdict_change (h : rows.CountsRefusal event ref ∨ rows.ProvesRecovery event ref) :
    ∃ row after, rows.row = some row ∧ (rows.step event).row = some after ∧
      row.canaryLeaseRef = some ref ∧ after.canaryLeaseRef = none := by
  obtain ⟨⟨observation, delay, ttl, hcall⟩, hwins⟩ | ⟨hcall, hwins⟩ := h
  · obtain ⟨row, after, hrow, hafter, hchange⟩ := change_of_wins hwins
    rw [hcall] at hchange
    cases hchange with
    | canaryRefused _ _ hlease _ => exact ⟨row, _, hrow, hafter, hlease, rfl⟩
  · obtain ⟨row, after, hrow, hafter, hchange⟩ := change_of_wins hwins
    rw [hcall] at hchange
    cases hchange with
    | proven hlease => exact ⟨row, _, hrow, hafter, hlease, rfl⟩

variable {clock : Clock} {call : CapacityCall} {after : CapacityRow}

/-- The changes that end a lease that is stored, or replace it. -/
theorem CapacityRow.Change.lease_cases (h : row.Change clock call after)
    (hhealthy : row.state = AccountCapacityState.healthy.value → row.canaryLeaseRef = none)
    (hlease : row.canaryLeaseRef = some ref) : (after.canaryLeaseRef = row.canaryLeaseRef ∧
        after.canaryLeaseExpiresAt = row.canaryLeaseExpiresAt) ∨
      (∀ expires ∈ row.canaryLeaseExpiresAt, expires ≤ clock.now) ∨
      (call = .releaseCanaryLease none ∨ call = .releaseCanaryLease (some ref)) ∨
      (∃ observation delay ttl, call = .recordCanaryRefusal ref observation delay ttl) ∨
      call = .recordRecoveryProven ref ∨ call = .recordHealthy := by
  cases h with
  | refused expiresAt =>
    have hstate : ¬ row.state = AccountCapacityState.healthy.value := by
      intro hstate
      rw [hhealthy hstate] at hlease
      cases hlease
    exact .inl ⟨if_neg hstate, if_neg hstate⟩
  | opened _ _ _ hfree => exact .inr (.inl hfree)
  | leased _ hfree _ => exact .inr (.inl hfree)
  | @released given holder hheld hgiven =>
    obtain rfl := Option.some.inj (hheld.symm.trans hlease)
    cases given with
    | none => exact .inr (.inr (.inl (.inl rfl)))
    | some given =>
      obtain rfl := hgiven given rfl
      exact .inr (.inr (.inl (.inr rfl)))
  | canaryRefused _ _ hheld _ =>
    obtain rfl := Option.some.inj (hheld.symm.trans hlease)
    exact .inr (.inr (.inr (.inl ⟨_, _, _, rfl⟩)))
  | proven hheld =>
    obtain rfl := Option.some.inj (hheld.symm.trans hlease)
    exact .inr (.inr (.inr (.inr (.inl rfl))))
  | cleared => exact .inr (.inr (.inr (.inr (.inr rfl))))
  | _ => exact .inl ⟨rfl, rfl⟩

/-- An operation that does not end the lease leaves it stored, unless it has expired. -/
theorem leased_step (hsettled : rows.Settled) {expires deadline : ℤ}
    (h : rows.Leased ref expires ∨ expires ≤ deadline) (hnow : event.clock.now ≤ deadline)
    (hends : ¬ rows.EndsLease event ref) :
    (rows.step event).Leased ref expires ∨ expires ≤ deadline := by
  obtain ⟨row, hrow, href, hexpires⟩ | hexpired := h
  · cases stepOnRow rows row event hrow with
    | kept hkept _ => exact .inl ⟨row, hkept, href, hexpires⟩
    | changed after hafter hchange hwins =>
      have hhealthy : row.state = AccountCapacityState.healthy.value → row.canaryLeaseRef = none :=
        fun hstate ↦ (hsettled row hrow hstate).2.2.1
      obtain ⟨hsameRef, hsameExpiry⟩ | hfree | hrelease | hrefusal | hproof | hclear :=
        hchange.lease_cases hhealthy href
      · exact .inl ⟨after, hafter, hsameRef.trans href, hsameExpiry.trans hexpires⟩
      · exact .inr (le_trans (hfree expires hexpires) hnow)
      · have hreports : event.call.reports = true := by
          obtain hcall | hcall := hrelease <;> rw [hcall] <;> rfl
        exact absurd (.inl ⟨hrelease, hwins hreports⟩) hends
      · have hreports : event.call.reports = true := by
          obtain ⟨observation, delay, ttl, hcall⟩ := hrefusal
          rw [hcall]
          rfl
        exact absurd (.inr (.inl ⟨hrefusal, hwins hreports⟩)) hends
      · have hreports : event.call.reports = true := by
          rw [hproof]
          rfl
        exact absurd (.inr (.inr (.inl ⟨hproof, hwins hreports⟩))) hends
      · exact absurd (.inr (.inr (.inr hclear))) hends
  · exact .inr hexpired

/-- The stored lease is not the reference's. -/
def AccountRows.NotHolder (rows : AccountRows) (ref : String) : Prop :=
  ∀ row ∈ rows.row, row.canaryLeaseRef ≠ some ref

/-- A change stores the lease of a reference only by its begin. -/
theorem CapacityRow.Change.holder_cases (h : row.Change clock call after) :
    after.canaryLeaseRef = row.canaryLeaseRef ∨ after.canaryLeaseRef = none ∨
      ∃ holder lease, call = .beginCanaryAttempt holder lease ∧
        after.canaryLeaseRef = some holder := by
  cases h with
  | refused expiresAt =>
    by_cases hhealthy : row.state = AccountCapacityState.healthy.value
    · exact .inr (.inl (if_pos hhealthy))
    · exact .inl (if_neg hhealthy)
  | leased _ _ _ => exact .inr (.inr ⟨_, _, rfl, rfl⟩)
  | opened _ _ _ _ => exact .inr (.inl rfl)
  | released _ _ => exact .inr (.inl rfl)
  | canaryRefused _ _ _ _ => exact .inr (.inl rfl)
  | proven _ => exact .inr (.inl rfl)
  | cleared => exact .inr (.inl rfl)
  | _ => exact .inl rfl

theorem CapacityRow.First.lease_none {first : CapacityRow} (h : CapacityRow.First clock call first) :
    first.canaryLeaseRef = none := by
  cases h with
  | refused _ => rfl
  | cleared => rfl

theorem notHolder_step (h : rows.NotHolder ref) (hbegins : ¬ rows.Begins event ref) :
    (rows.step event).NotHolder ref := by
  intro after hafter
  rw [Option.mem_def] at hafter
  cases hrow : rows.row with
  | none =>
    have hcall := first_of_stepOnNone hrow hafter
    rw [hcall.lease_none]
    exact nofun
  | some row =>
    cases stepOnRow rows row event hrow with
    | kept hkept _ =>
      obtain rfl := Option.some.inj (hkept.symm.trans hafter)
      exact h row hrow
    | changed changed hchanged hchange hwins =>
      obtain rfl := Option.some.inj (hchanged.symm.trans hafter)
      obtain hsame | hnone | ⟨holder, lease, hcall, hheld⟩ := hchange.holder_cases
      · rw [hsame]
        exact h row hrow
      · rw [hnone]
        exact nofun
      · intro hlease
        obtain rfl := Option.some.inj (hheld.symm.trans hlease)
        exact hbegins ⟨⟨lease, hcall⟩, hwins (by rw [hcall]; rfl)⟩

theorem CapacityRow.Change.attempts_refusal {observation : CapacityObservation} {delay ttl : ℤ}
    (h : row.Change clock (.recordCanaryRefusal ref observation delay ttl) after) :
    after.recoveryAttempts = row.recoveryAttempts + 1 := by
  cases h with
  | canaryRefused _ _ _ _ => rfl

/-- A change that counts no refusal adds no attempt. -/
theorem CapacityRow.Change.attempts_le (h : row.Change clock call after) :
    after.recoveryAttempts ≤ row.recoveryAttempts ∨
      ∃ holder observation delay ttl, call = .recordCanaryRefusal holder observation delay ttl := by
  cases h with
  | refused expiresAt =>
    refine .inl ?_
    change (if row.state = AccountCapacityState.healthy.value then 0 else row.recoveryAttempts) ≤ _
    split
    · exact Nat.zero_le _
    · exact le_refl _
  | canaryRefused _ _ _ _ => exact .inr ⟨_, _, _, _, rfl⟩
  | proven _ => exact .inl (Nat.zero_le _)
  | cleared => exact .inl (Nat.zero_le _)
  | _ => exact .inl (le_refl _)

theorem countsAttempts (rows : AccountRows) (event : CapacityEventAt) : CountsAttempts rows event := by
  intro row hrow after hafter
  rw [Option.mem_def] at hafter
  cases stepOnRow rows row event hrow with
  | kept hkept hlost =>
    obtain rfl := Option.some.inj (hkept.symm.trans hafter)
    refine ⟨fun hrefusal ↦ ?_, fun _ ↦ le_refl _⟩
    obtain ⟨ref, -, hwins⟩ := hrefusal
    rw [hlost] at hwins
    cases hwins
  | changed changed hchanged hchange hwins =>
    obtain rfl := Option.some.inj (hchanged.symm.trans hafter)
    constructor
    · rintro ⟨ref, ⟨observation, delay, ttl, hcall⟩, -⟩
      rw [hcall] at hchange
      exact hchange.attempts_refusal
    · intro hnone
      obtain hle | ⟨holder, observation, delay, ttl, hcall⟩ := hchange.attempts_le
      · exact hle
      · refine absurd ?_ (hnone holder)
        exact ⟨⟨observation, delay, ttl, hcall⟩, hwins (by rw [hcall]; rfl)⟩

end Lease

/-! ### Whole runs -/

section Runs

variable {calls before between after : List CapacityEventAt} {first second : CapacityEventAt}
  {ref other : String}

/-- The state before an operation of the run. -/
theorem run_cons_append (earlier : List CapacityEventAt) :
    run AccountRows.step {} (before ++ first :: earlier) =
      run AccountRows.step ((run AccountRows.step {} before).step first) earlier := by
  rw [run_append, run_cons]

/-- Operations without an end of the lease, split at any of them. -/
theorem along_of_not_ended (condition : AccountRows → CapacityEventAt → Prop)
    (h : ¬ ∃ earlier event later, between = earlier ++ event :: later ∧
      condition (run AccountRows.step {} (before ++ first :: earlier)) event) :
    Along AccountRows.step (fun rows event ↦ ¬ condition rows event)
      ((run AccountRows.step {} before).step first) between := by
  rw [along_iff_forall_split]
  intro earlier event later hsplit hcondition
  exact h ⟨earlier, event, later, hsplit, by rw [run_cons_append]; exact hcondition⟩

/-- A lease that does not end is stored until it expires. -/
theorem expired_of_not_ended (hcalls : calls = before ++ first :: between ++ second :: after)
    (hordered : Ordered calls) (hfirst : (run AccountRows.step {} before).Begins first ref)
    (hsecond : (run AccountRows.step {} (before ++ first :: between)).Begins second other)
    (hends : Along AccountRows.step (fun rows event ↦ ¬ rows.EndsLease event ref)
      ((run AccountRows.step {} before).step first) between) :
    first.leaseExpiry ≤ second.clock.wall := by
  have hpast : ∀ event ∈ between, event.clock.now ≤ second.clock.wall := by
    intro event hevent
    have hforward := hordered.forward
    rw [hcalls, List.pairwise_append] at hforward
    refine le_trans (hordered.past event ?_) (hforward.2.2 event ?_ second ?_)
    · rw [hcalls]
      simp [hevent]
    · simp [hevent]
    · simp
  have hnow : Along AccountRows.step (fun _ event ↦ event.clock.now ≤ second.clock.wall)
      ((run AccountRows.step {} before).step first) between := by
    rw [along_iff_forall_split]
    intro earlier event later hsplit
    exact hpast event (by simp [hsplit])
  obtain ⟨-, held, expiresAt, -, hheld, -, href, hexpires, hexpiry⟩ := begins_change hfirst
  have hstep : ∀ (rows : AccountRows) event,
      rows.Settled ∧ (rows.Leased ref first.leaseExpiry ∨ first.leaseExpiry ≤ second.clock.wall) →
      ¬ rows.EndsLease event ref ∧ event.clock.now ≤ second.clock.wall →
      (rows.step event).Settled ∧
        ((rows.step event).Leased ref first.leaseExpiry ∨ first.leaseExpiry ≤ second.clock.wall) :=
    fun rows event hrows hevent ↦
      ⟨hrows.1.step event, leased_step hrows.1 hrows.2 hevent.2 hevent.1⟩
  have hbegun : ((run AccountRows.step {} before).step first).Settled ∧
      (((run AccountRows.step {} before).step first).Leased ref first.leaseExpiry ∨
        first.leaseExpiry ≤ second.clock.wall) :=
    ⟨(settled_run before).step first, .inl ⟨held, hheld, href, hexpiry ▸ hexpires⟩⟩
  obtain ⟨-, ⟨row, hrow, -, hstored⟩ | hexpired⟩ :=
    invariant_run_of_along hstep between _ hbegun (hends.and hnow)
  · obtain ⟨found, -, -, hfound, -, hfree, -⟩ := begins_change hsecond
    rw [run_cons_append] at hfound
    obtain rfl := Option.some.inj (hfound.symm.trans hrow)
    refine le_trans (hfree _ hstored) (hordered.past second ?_)
    rw [hcalls]
    simp
  · exact hexpired

/-- Of two leases that are held at one time, the earlier one has expired. -/
theorem holder_of_earlier (hcalls : calls = before ++ first :: between ++ second :: after)
    (hordered : Ordered calls) {now : ℤ} (hnow : ∀ event ∈ calls, event.clock.wall ≤ now)
    (hfirst : (run AccountRows.step {} before).Begins first ref) (hexpiry : now < first.leaseExpiry)
    (hends : Along AccountRows.step (fun rows event ↦ ¬ rows.EndsLease event ref)
      ((run AccountRows.step {} before).step first) (between ++ second :: after))
    (hsecond : (run AccountRows.step {} (before ++ first :: between)).Begins second other) :
    ref = other := by
  rw [along_append] at hends
  have hexpired := expired_of_not_ended hcalls hordered hfirst hsecond hends.1
  have hwall := hnow second (by rw [hcalls]; simp)
  omega

/-- Two references never hold an unexpired lease at one time. -/
theorem holds_unique (hordered : Ordered calls) {now : ℤ}
    (hnow : ∀ event ∈ calls, event.clock.wall ≤ now) (href : Holds calls ref now)
    (hother : Holds calls other now) : ref = other := by
  obtain ⟨before, first, between, hcalls, hfirst, hexpiry, hends⟩ := href
  obtain ⟨before', second, between', hcalls', hsecond, hexpiry', hends'⟩ := hother
  rw [run_append, run_cons, run_nil] at hends hends'
  obtain ⟨middle, hbefore, hsplit⟩ | ⟨middle, hbefore, hsplit⟩ :=
    List.append_eq_append_iff.mp (hcalls.symm.trans hcalls')
  · cases middle with
    | nil =>
      obtain ⟨rfl, -⟩ := List.cons.inj hsplit
      obtain ⟨⟨lease, hcall⟩, -⟩ := hfirst
      obtain ⟨⟨lease', hcall'⟩, -⟩ := hsecond
      exact (CapacityCall.beginCanaryAttempt.inj (hcall.symm.trans hcall')).1
    | cons head middle =>
      obtain ⟨rfl, hbetween⟩ := List.cons.inj hsplit
      subst hbetween hbefore
      exact holder_of_earlier (by simp [hcalls']) hordered hnow hfirst hexpiry hends hsecond
  · cases middle with
    | nil =>
      obtain ⟨rfl, -⟩ := List.cons.inj hsplit
      obtain ⟨⟨lease, hcall⟩, -⟩ := hfirst
      obtain ⟨⟨lease', hcall'⟩, -⟩ := hsecond
      exact (CapacityCall.beginCanaryAttempt.inj (hcall.symm.trans hcall')).1
    | cons head middle =>
      obtain ⟨rfl, hbetween⟩ := List.cons.inj hsplit
      subst hbetween hbefore
      exact (holder_of_earlier (by simp [hcalls]) hordered hnow hsecond hexpiry' hends' hfirst).symm

/-- A second verdict of a reference needs a second lease. -/
theorem begun_between_verdicts (hfirst : (run AccountRows.step {} before).CountsRefusal first ref ∨
      (run AccountRows.step {} before).ProvesRecovery first ref)
    (hsecond : (run AccountRows.step {} (before ++ first :: between)).CountsRefusal second ref ∨
      (run AccountRows.step {} (before ++ first :: between)).ProvesRecovery second ref) :
    ∃ earlier event later, between = earlier ++ event :: later ∧
      (run AccountRows.step {} (before ++ first :: earlier)).Begins event ref := by
  by_contra hnone
  have halong := along_of_not_ended (fun rows event ↦ rows.Begins event ref) hnone
  obtain ⟨-, freed, -, hfreed, -, hfree⟩ := verdict_change hfirst
  have hstart : ((run AccountRows.step {} before).step first).NotHolder ref := by
    intro row hrow
    obtain rfl := Option.some.inj (hfreed.symm.trans hrow)
    rw [hfree]
    exact nofun
  have hstep : ∀ (rows : AccountRows) event, rows.NotHolder ref → ¬ rows.Begins event ref →
      (rows.step event).NotHolder ref := fun _ _ ↦ notHolder_step
  have hheld := invariant_run_of_along hstep between _ hstart halong
  obtain ⟨row, -, hrow, -, hlease, -⟩ := verdict_change hsecond
  rw [run_cons_append] at hrow
  exact hheld row hrow hlease

/-- Over any operations at clocks that never go back, there is one canary. -/
theorem oneCanary (hordered : Ordered calls) : OneCanary calls where
  alone _ _ _ hnow href hother := holds_unique hordered hnow href hother
  renewed _ _ _ _ _ _ _ hcalls _ hfirst hsecond := by
    by_contra hneither
    rw [not_or] at hneither
    have halong := along_of_not_ended (fun rows event ↦ rows.EndsLease event _) hneither.1
    exact hneither.2 (expired_of_not_ended hcalls hordered hfirst hsecond halong)
  counted := along_of_forall countsAttempts calls {}
  verdict _ _ _ _ _ _ _ hfirst hsecond := begun_between_verdicts hfirst hsecond

end Runs

end CloudPlatform.ProviderCapacity
