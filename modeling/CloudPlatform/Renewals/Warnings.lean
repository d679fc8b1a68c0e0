import CloudPlatform.Renewals.Notices

/-!
# Warnings before expiry

A warning of a period is logged by its kind, and the kind is all that the log has of the threshold:
168 and 72 hours have kinds of their own, every other threshold is filed as the 24-hour warning. So
two other thresholds share one entry of the log, and `warnedOnce_iff` says that they are the only
ones to lose a warning.
-/

namespace CloudPlatform.Renewals

open Transition

/-- The kinds that thresholds are filed under. -/
def RenewalKind.IsWarning (kind : RenewalKind) : Prop :=
  ∃ hours, kind = .forWarningHours hours

theorem isWarning_iff {kind : RenewalKind} :
    kind.IsWarning ↔ kind = .warn168h ∨ kind = .warn72h ∨ kind = .warn24h := by
  constructor
  · intro ⟨hours, hkind⟩
    rw [hkind, RenewalKind.forWarningHours]
    split_ifs <;> simp
  · intro h
    rcases h with h | h | h
    · exact ⟨168, h⟩
    · exact ⟨72, h⟩
    · exact ⟨24, h⟩

/-- Two thresholds have one kind when neither is filed under a kind of its own. -/
theorem forWarningHours_eq_iff {first second : ℕ} :
    RenewalKind.forWarningHours first = .forWarningHours second ↔
      first = second ∨ (first ≠ 168 ∧ first ≠ 72) ∧ second ≠ 168 ∧ second ≠ 72 := by
  unfold RenewalKind.forWarningHours
  split_ifs <;> simp <;> omega

/-- The warning is the one for a threshold in a period. -/
def Warning.IsFor (hours : ℕ) (period : ℤ) (warning : Warning) : Prop :=
  warning.hours = hours ∧ warning.key = (RenewalKind.forWarningHours hours, period)

instance (hours : ℕ) (period : ℤ) : DecidablePred (Warning.IsFor hours period) :=
  fun _ ↦ inferInstanceAs (Decidable (_ ∧ _))

/-! ### The log and the warnings -/

/-- The log and the warnings agree: no two warnings have one key, each is logged, and a logged
threshold kind was warned for a threshold that the policy has. -/
structure Accounted (policy : WarningPolicy) (rows : ServiceRows) : Prop where
  nodup : (rows.warnings.map Warning.key).Nodup
  logged : ∀ warning ∈ rows.warnings, warning.key ∈ rows.log
  warned : ∀ key ∈ rows.log, key.1.IsWarning → ∃ warning ∈ rows.warnings, warning.key = key
  due : ∀ warning ∈ rows.warnings, warning.kind.IsWarning →
    warning.kind = .forWarningHours warning.hours ∧
      warning.hours ∈ policy.warningBeforeExpiryHours ∧ 0 < warning.hours

section Steps

variable {policy : WarningPolicy} {facts : PassFacts} {rows : ServiceRows} {kind : RenewalKind}
  {renewalAt period : ℤ} {hours : ℕ}

/-- A notice that is no threshold warning, and of a new key when it is a warning at all. -/
theorem Accounted.once {notice : Notice} (h : Accounted policy rows)
    (hnotice : ∀ warning ∈ notice.warning, warning.key = (kind, period) ∧
      (kind.IsWarning → kind = .forWarningHours warning.hours ∧
        warning.hours ∈ policy.warningBeforeExpiryHours ∧ 0 < warning.hours))
    (hkind : kind.IsWarning → notice.warning.isSome) :
    Accounted policy (rows.once kind period notice) := by
  unfold ServiceRows.once
  by_cases hlogged : (kind, period) ∈ rows.log
  · rw [if_pos hlogged]
    exact h
  · rw [if_neg hlogged]
    have hsent : ServiceRows.warnings { rows with
        log := (kind, period) :: rows.log, notices := rows.notices ++ [notice] } =
        rows.warnings ++ notice.warning.toList := by
      unfold ServiceRows.warnings
      rw [List.filterMap_append]
      congr 1
    refine ⟨?_, ?_, ?_, ?_⟩
    · rw [hsent, List.map_append]
      cases hwarning : notice.warning with
      | none => simpa using h.nodup
      | some warning =>
        refine h.nodup.append (by simp) ?_
        intro key hkey hlast
        obtain ⟨other, hother, rfl⟩ := List.mem_map.mp hkey
        have hsame : other.key = warning.key := by simpa using hlast
        rw [(hnotice warning hwarning).1] at hsame
        exact hlogged (hsame ▸ h.logged other hother)
    · intro warning hmem
      rw [hsent, List.mem_append, Option.mem_toList] at hmem
      rcases hmem with hold | hnew
      · exact List.mem_cons_of_mem _ (h.logged warning hold)
      · rw [(hnotice warning hnew).1]
        exact List.mem_cons_self
    · intro key hkey hthreshold
      rw [hsent]
      rcases List.mem_cons.mp hkey with hnew | hold
      · subst hnew
        obtain ⟨warning, hwarning⟩ := Option.isSome_iff_exists.mp (hkind hthreshold)
        refine ⟨warning, ?_, (hnotice warning hwarning).1⟩
        rw [hwarning]
        simp
      · obtain ⟨warning, hwarning, hsame⟩ := h.warned key hold hthreshold
        exact ⟨warning, List.mem_append_left _ hwarning, hsame⟩
    · intro warning hmem hthreshold
      rw [hsent, List.mem_append, Option.mem_toList] at hmem
      rcases hmem with hold | hnew
      · exact h.due warning hold hthreshold
      · obtain ⟨hkey, hdue⟩ := hnotice warning hnew
        have hsame : warning.kind = kind := congrArg Prod.fst hkey
        rw [hsame] at hthreshold ⊢
        exact hdue hthreshold

/-- The record does not matter. -/
theorem Accounted.withRecord (h : Accounted policy rows) (record : RenewalRecord) :
    Accounted policy { rows with record := record } :=
  ⟨h.nodup, h.logged, h.warned, h.due⟩

/-- A warning to the customer. -/
theorem Accounted.raiseCustomer (h : Accounted policy rows)
    (hkind : kind.IsWarning → kind = .forWarningHours hours ∧
      hours ∈ policy.warningBeforeExpiryHours ∧ 0 < hours) :
    Accounted policy (rows.raiseCustomer facts kind hours renewalAt) := by
  refine h.once ?_ fun _ ↦ rfl
  rintro warning ⟨⟩
  exact ⟨rfl, hkind⟩

theorem not_isWarning_renewalDue : ¬ RenewalKind.renewalDue.IsWarning := by
  simp [isWarning_iff]

theorem Accounted.adminAlert {deadline : ℤ} {reason : String} (h : Accounted policy rows) :
    Accounted policy (rows.adminAlert deadline reason) := by
  refine h.once (fun warning hwarning ↦ ?_) fun hthreshold ↦ ?_
  · cases hwarning
  · simp [isWarning_iff] at hthreshold

theorem Accounted.settle (h : Accounted policy rows) :
    Accounted policy (rows.settle facts renewalAt) := by
  unfold ServiceRows.settle
  split_ifs
  · refine (h.withRecord _).once (fun warning hwarning ↦ ?_) fun hthreshold ↦ ?_
    · cases hwarning
    · simp [isWarning_iff] at hthreshold
  · exact h

theorem Accounted.markDue (h : Accounted policy rows) :
    Accounted policy (rows.markDue policy facts renewalAt) := by
  unfold ServiceRows.markDue
  dsimp only
  split_ifs
  · exact h.withRecord _
  · exact h
  · exact (h.withRecord _).raiseCustomer fun hthreshold ↦
      absurd hthreshold not_isWarning_renewalDue
  · exact h

/-- A key of the log that no warning stands for. -/
theorem Accounted.log (h : Accounted policy rows) (hkind : ¬ kind.IsWarning) :
    Accounted policy { rows with log := (kind, period) :: rows.log } := by
  refine ⟨h.nodup, fun warning hwarning ↦ List.mem_cons_of_mem _ (h.logged warning hwarning), ?_,
    h.due⟩
  intro key hkey hthreshold
  rcases List.mem_cons.mp hkey with hnew | hold
  · subst hnew
    exact absurd hthreshold hkind
  · exact h.warned key hold hthreshold

theorem Accounted.suspend {graceEnd : ℤ} (h : Accounted policy rows) :
    Accounted policy (rows.suspend facts graceEnd renewalAt) := by
  have hlog : Accounted policy
      { rows with log := (.graceExpired, periodOf renewalAt) :: rows.log } :=
    h.log (by simp [isWarning_iff])
  have hraise {next : ServiceRows} (hnext : Accounted policy next) :
      Accounted policy (next.raiseCustomer facts .suspended 0 renewalAt) :=
    hnext.raiseCustomer fun hthreshold ↦ by simp [isWarning_iff] at hthreshold
  unfold ServiceRows.suspend
  dsimp only
  split_ifs
  · exact h
  · exact h.withRecord _
  · exact (hraise hlog).adminAlert
  · exact (hraise (hlog.withRecord _)).adminAlert

theorem Accounted.warnFunds (h : Accounted policy rows) :
    Accounted policy (rows.warnFunds policy facts renewalAt) := by
  unfold ServiceRows.warnFunds
  split_ifs
  · exact h
  · exact h.adminAlert

/-- The thresholds that are due are thresholds of the policy, and above zero before expiry. -/
theorem Accounted.warnCrossedThresholds (h : Accounted policy rows) (hnow : facts.now < renewalAt) :
    Accounted policy (rows.warnCrossedThresholds policy facts renewalAt) := by
  have hdue : ∀ hours ∈ policy.warningsDue (renewalAt - facts.now),
      hours ∈ policy.warningBeforeExpiryHours ∧ 0 < hours := by
    intro hours hmem
    obtain ⟨hthreshold, hreached⟩ := List.mem_filter.mp hmem
    have hle := of_decide_eq_true hreached
    refine ⟨hthreshold, Nat.pos_of_ne_zero fun hzero ↦ ?_⟩
    subst hzero
    simp at hle
    omega
  unfold ServiceRows.warnCrossedThresholds
  generalize policy.warningsDue (renewalAt - facts.now) = due at hdue
  induction due generalizing rows with
  | nil => exact h
  | cons hours due ih =>
    obtain ⟨hfirst, hlater⟩ := List.forall_mem_cons.mp hdue
    exact ih (h.raiseCustomer fun _ ↦ ⟨rfl, hfirst⟩) hlater

/-- A pass keeps the log and the warnings in agreement. -/
theorem Accounted.pass (h : Accounted policy rows) : Accounted policy (rows.pass policy facts) := by
  unfold ServiceRows.pass
  split_ifs
  · unfold ServiceRows.check
    split
    · exact h
    · rename_i renewalAt _
      split_ifs with hfound hbefore
      · exact h
      · have hwarned := h.warnCrossedThresholds hbefore
        unfold ServiceRows.checkBefore
        dsimp only
        split_ifs
        · exact hwarned.settle
        · exact hwarned.warnFunds
        · exact hwarned
      · have hmarked : Accounted policy (rows.markDue policy facts renewalAt) := h.markDue
        unfold ServiceRows.checkEnded
        dsimp only
        split_ifs
        · exact hmarked.suspend
        · exact hmarked.settle
        · exact hmarked.raiseCustomer fun hthreshold ↦ absurd hthreshold not_isWarning_renewalDue
        · exact hmarked.adminAlert
  · exact h

end Steps

/-! ### The log only grows -/

section Growth

variable (policy : WarningPolicy) (facts : PassFacts) (rows : ServiceRows) (renewalAt : ℤ)

theorem log_once (kind : RenewalKind) (period : ℤ) (notice : Notice) :
    (kind, period) ∈ (rows.once kind period notice).log ∧
      rows.log ⊆ (rows.once kind period notice).log := by
  unfold ServiceRows.once
  by_cases hlogged : (kind, period) ∈ rows.log
  · rw [if_pos hlogged]
    exact ⟨hlogged, List.Subset.refl _⟩
  · rw [if_neg hlogged]
    exact ⟨List.mem_cons_self, List.subset_cons_self _ _⟩

theorem log_raiseCustomer (kind : RenewalKind) (hours : ℕ) :
    (kind, periodOf renewalAt) ∈ (rows.raiseCustomer facts kind hours renewalAt).log ∧
      rows.log ⊆ (rows.raiseCustomer facts kind hours renewalAt).log :=
  log_once _ _ _ _

theorem log_settle : rows.log ⊆ (rows.settle facts renewalAt).log := by
  unfold ServiceRows.settle
  split_ifs
  · exact fun key hkey ↦ (log_once _ _ _ _).2 hkey
  · exact List.Subset.refl _

theorem log_warnFunds : rows.log ⊆ (rows.warnFunds policy facts renewalAt).log := by
  unfold ServiceRows.warnFunds
  split_ifs
  · exact List.Subset.refl _
  · exact (log_once _ _ _ _).2

/-- Every threshold that is due is in the log afterwards, and what was logged stays. -/
theorem log_warnCrossedThresholds :
    (∀ hours ∈ policy.warningsDue (renewalAt - facts.now), (RenewalKind.forWarningHours hours,
      periodOf renewalAt) ∈ (rows.warnCrossedThresholds policy facts renewalAt).log) ∧
        rows.log ⊆ (rows.warnCrossedThresholds policy facts renewalAt).log := by
  unfold ServiceRows.warnCrossedThresholds
  generalize policy.warningsDue (renewalAt - facts.now) = due
  induction due generalizing rows with
  | nil => exact ⟨fun _ hmem ↦ absurd hmem List.not_mem_nil, List.Subset.refl _⟩
  | cons hours due ih =>
    obtain ⟨hlogged, hgrows⟩ :=
      log_raiseCustomer facts rows renewalAt (.forWarningHours hours) hours
    obtain ⟨hlater, hrest⟩ := ih (rows.raiseCustomer facts (.forWarningHours hours) hours renewalAt)
    refine ⟨fun other hother ↦ ?_, fun key hkey ↦ hrest (hgrows hkey)⟩
    rcases List.mem_cons.mp hother with hsame | hmem
    · rw [hsame]
      exact hrest hlogged
    · exact hlater other hmem

theorem log_checkBefore :
    (∀ hours ∈ policy.warningsDue (renewalAt - facts.now), (RenewalKind.forWarningHours hours,
      periodOf renewalAt) ∈ (rows.checkBefore policy facts renewalAt).log) ∧
        rows.log ⊆ (rows.checkBefore policy facts renewalAt).log := by
  obtain ⟨hdue, hgrows⟩ := log_warnCrossedThresholds policy facts rows renewalAt
  have hafter : (rows.warnCrossedThresholds policy facts renewalAt).log ⊆
      (rows.checkBefore policy facts renewalAt).log := by
    unfold ServiceRows.checkBefore
    dsimp only
    split_ifs
    · exact log_settle _ _ _
    · exact log_warnFunds _ _ _ _
    · exact List.Subset.refl _
  exact ⟨fun hours hmem ↦ hafter (hdue hours hmem), fun key hkey ↦ hafter (hgrows hkey)⟩

theorem log_markDue : rows.log ⊆ (rows.markDue policy facts renewalAt).log := by
  unfold ServiceRows.markDue
  dsimp only
  split_ifs
  · exact List.Subset.refl _
  · exact List.Subset.refl _
  · exact fun key hkey ↦ (log_raiseCustomer _ _ _ _ _).2 hkey
  · exact List.Subset.refl _

theorem log_suspend (graceEnd : ℤ) : rows.log ⊆ (rows.suspend facts graceEnd renewalAt).log := by
  unfold ServiceRows.suspend
  dsimp only
  split_ifs
  · exact List.Subset.refl _
  · exact List.Subset.refl _
  · intro key hkey
    exact (log_once _ _ _ _).2 ((log_raiseCustomer _ _ _ _ _).2 (List.mem_cons_of_mem _ hkey))
  · intro key hkey
    exact (log_once _ _ _ _).2 ((log_raiseCustomer _ _ _ _ _).2 (List.mem_cons_of_mem _ hkey))

theorem log_pass : rows.log ⊆ (rows.pass policy facts).log := by
  unfold ServiceRows.pass
  split_ifs
  · unfold ServiceRows.check
    split
    · exact List.Subset.refl _
    · rename_i renewalAt _
      split_ifs
      · exact List.Subset.refl _
      · exact (log_checkBefore _ _ _ _).2
      · have hmarked := log_markDue policy facts rows renewalAt
        unfold ServiceRows.checkEnded
        dsimp only
        split_ifs
        · exact fun key hkey ↦ log_suspend _ _ _ _ (hmarked hkey)
        · exact fun key hkey ↦ log_settle _ _ _ (hmarked hkey)
        · exact fun key hkey ↦ (log_raiseCustomer _ _ _ _ _).2 (hmarked hkey)
        · exact fun key hkey ↦ (log_once _ _ _ _).2 (hmarked hkey)
  · exact List.Subset.refl _

end Growth

/-! ### Passes that reach a threshold -/

section Passes

variable (policy : WarningPolicy)

/-- The pass checks the service before the end of the period, within the threshold. -/
def Reaches (hours : ℕ) (renewalAt : ℤ) (rows : ServiceRows) (facts : PassFacts) : Prop :=
  (policy.enabled = true ∧ rows.record.status ≠ .cancelled ∧ facts.found = true) ∧
    rows.record.providerRenewalAt = some renewalAt ∧ facts.now < renewalAt ∧
      renewalAt - facts.now ≤ hours * Calendar.hour

/-- One of the passes reaches the threshold. -/
def Crossed (hours : ℕ) (renewalAt : ℤ) (start : ServiceRows) (passes : List PassFacts) : Prop :=
  ∃ before facts after, passes = before ++ facts :: after ∧
    Reaches policy hours renewalAt
      (afterPasses policy start before) facts

/-- Whatever the record and the passes, a threshold that the passes reach is warned for exactly once
in its period. -/
def WarnedOnce : Prop :=
  ∀ (record : RenewalRecord) (passes : List PassFacts) (hours : ℕ) (renewalAt : ℤ),
    hours ∈ policy.warningBeforeExpiryHours →
      Crossed policy hours renewalAt ⟨record, [], []⟩ passes →
      (afterPasses policy ⟨record, [], []⟩ passes).warnings.countP
        (Warning.IsFor hours (periodOf renewalAt)) = 1

theorem accounted_run (record : RenewalRecord) (passes : List PassFacts) :
    Accounted policy (afterPasses policy ⟨record, [], []⟩ passes) := by
  refine invariant_run (fun rows facts h ↦ h.pass) passes _ ⟨?_, ?_, ?_, ?_⟩
  · exact List.nodup_nil
  · intro warning hwarning
    cases hwarning
  · intro key hkey
    cases hkey
  · intro warning hwarning
    cases hwarning

variable {policy}

/-- A pass that reaches a threshold leaves its kind in the log. -/
theorem logged_of_reaches {hours : ℕ} {renewalAt : ℤ} {rows : ServiceRows} {facts : PassFacts}
    (hhours : hours ∈ policy.warningBeforeExpiryHours)
    (h : Reaches policy hours renewalAt rows facts) :
    (RenewalKind.forWarningHours hours, periodOf renewalAt) ∈ (rows.pass policy facts).log := by
  obtain ⟨⟨henabled, hcancelled, hfound⟩, hdue, hbefore, hreached⟩ := h
  rw [ServiceRows.pass, if_pos ⟨henabled, hcancelled⟩, ServiceRows.check, hdue]
  dsimp only
  rw [if_neg (by simp [hfound]), if_pos hbefore]
  exact (log_checkBefore policy facts rows renewalAt).1 hours
    (List.mem_filter.mpr ⟨hhours, decide_eq_true hreached⟩)

/-- A threshold that was reached stays in the log. -/
theorem logged_of_crossed {record : RenewalRecord} {passes : List PassFacts} {hours : ℕ}
    {renewalAt : ℤ} (hhours : hours ∈ policy.warningBeforeExpiryHours)
    (h : Crossed policy hours renewalAt ⟨record, [], []⟩ passes) :
    (RenewalKind.forWarningHours hours, periodOf renewalAt) ∈
      (afterPasses policy ⟨record, [], []⟩ passes).log := by
  obtain ⟨before, facts, after, rfl, hreaches⟩ := h
  rw [afterPasses, run_append, run_cons]
  exact invariant_run (fun rows facts hmem ↦ log_pass policy facts rows hmem) after _
    (logged_of_reaches hhours hreaches)

/-- Whatever passes come later, what is logged stays, no two warnings share a kind and a period, and
each is logged and, if it is for a threshold, for one of the policy. -/
theorem warnings_logged (policy : WarningPolicy) (record : RenewalRecord)
    (earlier later : List PassFacts) :
    let before := afterPasses policy ⟨record, [], []⟩ earlier
    let after := afterPasses policy before later
    before.log ⊆ after.log ∧ (after.warnings.map Warning.key).Nodup ∧
      ∀ warning ∈ after.warnings, warning.key ∈ after.log ∧
        (warning.kind.IsWarning → warning.hours ∈ policy.warningBeforeExpiryHours) := by
  intro before after
  have hlog : ∀ key ∈ before.log, key ∈ after.log := fun key hkey ↦
    invariant_run (fun rows facts hmem ↦ log_pass policy facts rows hmem) later before hkey
  have hafter : Accounted policy after :=
    invariant_run (fun rows facts h ↦ h.pass) later before (accounted_run policy record earlier)
  exact ⟨hlog, hafter.nodup, fun warning hmem ↦
    ⟨hafter.logged warning hmem, fun hwarns ↦ (hafter.due warning hmem hwarns).2.1⟩⟩

/-- Of one key there is at most one warning. -/
theorem countP_isFor_le {rows : ServiceRows} (h : Accounted policy rows) (hours : ℕ) (period : ℤ) :
    rows.warnings.countP (Warning.IsFor hours period) ≤ 1 := by
  calc rows.warnings.countP (Warning.IsFor hours period)
      ≤ rows.warnings.countP
          (fun warning ↦ warning.key = (RenewalKind.forWarningHours hours, period)) := by
        refine List.countP_mono_left fun warning _ hfor ↦ decide_eq_true ?_
        exact (of_decide_eq_true hfor : Warning.IsFor hours period warning).2
    _ = (rows.warnings.map Warning.key).count (RenewalKind.forWarningHours hours, period) := by
        rw [List.count, List.countP_map]
        exact List.countP_congr fun warning _ ↦ by simp
    _ ≤ 1 := List.nodup_iff_count_le_one.mp h.nodup _

/-- At most one threshold that can be reached before expiry has no kind of its own. -/
def OneShared (policy : WarningPolicy) : Prop :=
  ∀ first ∈ policy.warningBeforeExpiryHours, ∀ second ∈ policy.warningBeforeExpiryHours,
    (0 < first ∧ first ≠ 168 ∧ first ≠ 72) → (0 < second ∧ second ≠ 168 ∧ second ≠ 72) →
      first = second

/-- A threshold that was reached is warned for, when no other shares its kind. -/
theorem warnedOnce_of_oneShared (h : OneShared policy) : WarnedOnce policy := by
  intro record passes hours renewalAt hhours hcrossed
  have haccounted := accounted_run policy record passes
  have hlogged := logged_of_crossed hhours hcrossed
  obtain ⟨_, facts, _, -, -, -, hbefore, hreached⟩ := hcrossed
  have hpos : 0 < hours := by
    refine Nat.pos_of_ne_zero fun hzero ↦ ?_
    subst hzero
    simp at hreached
    omega
  obtain ⟨warning, hwarning, hkey⟩ := haccounted.warned _ hlogged ⟨hours, rfl⟩
  have hkind : warning.kind = .forWarningHours hours := congrArg Prod.fst hkey
  obtain ⟨hfiled, hmem, hwarned⟩ := haccounted.due warning hwarning ⟨hours, hkind⟩
  have hsame : warning.hours = hours := by
    rcases forWarningHours_eq_iff.mp (hfiled.symm.trans hkind) with hequal | ⟨hfirst, hsecond⟩
    · exact hequal
    · exact h _ hmem _ hhours ⟨hwarned, hfirst⟩ ⟨hpos, hsecond⟩
  refine le_antisymm (countP_isFor_le haccounted hours _) (List.countP_pos_iff.mpr ?_)
  exact ⟨warning, hwarning, decide_eq_true ⟨hsame, hkey⟩⟩

/-- A pass one microsecond before the epoch, with an empty wallet. -/
def lastMoment : PassFacts where
  now := -1
  checkedAt := -1
  found := true
  balance := 0
  charged := false

/-- A pass at the last moment reaches every threshold above zero. -/
theorem crossed_lastMoment (henabled : policy.enabled = true) {hours : ℕ} (hpos : 0 < hours) :
    Crossed policy hours 0 ⟨dueAtEpoch, [], []⟩ [lastMoment] := by
  have hactive : dueAtEpoch.status ≠ .cancelled := by decide
  refine ⟨[], lastMoment, [], rfl, ⟨henabled, hactive, rfl⟩, rfl, by decide, ?_⟩
  have hhours : (1 : ℤ) ≤ hours := by exact_mod_cast hpos
  simp only [lastMoment, Calendar.hour, Calendar.second]
  omega

/-- Two thresholds that share a kind are not both warned for at the last moment. -/
theorem oneShared_of_warnedOnce (henabled : policy.enabled = true) (h : WarnedOnce policy) :
    OneShared policy := by
  intro first hfirst second hsecond ⟨hpos, hshared⟩ ⟨hpos', hshared'⟩
  have hkinds := forWarningHours_eq_iff.mpr (Or.inr ⟨hshared, hshared'⟩)
  have haccounted := accounted_run policy dueAtEpoch [lastMoment]
  have hone := h dueAtEpoch [lastMoment] first 0 hfirst (crossed_lastMoment henabled hpos)
  have htwo := h dueAtEpoch [lastMoment] second 0 hsecond (crossed_lastMoment henabled hpos')
  obtain ⟨warning, hwarning, hfor⟩ := List.countP_pos_iff.mp (hone ▸ Nat.one_pos)
  obtain ⟨other, hother, hfor'⟩ := List.countP_pos_iff.mp (htwo ▸ Nat.one_pos)
  obtain ⟨rfl, hkey⟩ := (of_decide_eq_true hfor : Warning.IsFor _ _ warning)
  obtain ⟨rfl, hkey'⟩ := (of_decide_eq_true hfor' : Warning.IsFor _ _ other)
  have hsame := List.inj_on_of_nodup_map haccounted.nodup hwarning hother
    (hkey.trans (hkinds ▸ hkey'.symm))
  rw [hsame]

/-- Every threshold that is reached is warned for exactly once in its period, exactly when at most
one threshold of the policy that can be reached is neither 168 nor 72. -/
theorem warnedOnce_iff (policy : WarningPolicy) :
    WarnedOnce policy ↔ (policy.enabled = true → OneShared policy) := by
  constructor
  · intro h henabled
    exact oneShared_of_warnedOnce henabled h
  · intro h
    by_cases henabled : policy.enabled = true
    · exact warnedOnce_of_oneShared (h henabled)
    · intro record passes hours renewalAt _ hcrossed
      obtain ⟨_, _, _, -, ⟨hchecks, -⟩, -⟩ := hcrossed
      exact absurd hchecks henabled

/-- With a warning two days and one day before expiry, the second is never sent. -/
theorem not_warnedOnce_48_24 : ¬ WarnedOnce { warningBeforeExpiryHours := [48, 24] } := by
  intro h
  have hshared := oneShared_of_warnedOnce rfl h 48 (by simp) 24 (by simp) (by decide) (by decide)
  exact absurd hshared (by decide)

end Passes

end CloudPlatform.Renewals
