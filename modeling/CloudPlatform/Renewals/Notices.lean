import CloudPlatform.Renewals.Checker
import CloudPlatform.Transition.Evaluation

/-!
# Passes and their notices

One pass of the checker over one service, notices included: what it makes of the record, of the log
that lets each notice of a period through once, and whom it tells what. A pass meets its clock, the
server and the wallet of the moment; whether the charge of the period succeeds is one of these
facts. `runPass_record` says that the checker, run alone, leaves the record of such a pass.
-/

namespace CloudPlatform.Renewals

open Compute (CloudServer)
open Transition
open Wallets (HoldCall)

/-- The kinds of notices; the log holds each once for a period. -/
inductive RenewalKind
  | warn7d
  | warn3d
  | warn1d
  | warn168h
  | warn72h
  | warn24h
  | adminInsufficient
  | manualCancellation
  | charged
  | graceStarted
  | graceExpired
  | suspended
  | renewalDue
  deriving DecidableEq

/-- `RenewalKind.for_warning_hours`. -/
def RenewalKind.forWarningHours (hours : ℕ) : RenewalKind :=
  if hours = 168 then .warn168h
  else if hours = 72 then .warn72h
  else .warn24h

/-- The collection policy with its warning thresholds, in hours before expiry. -/
structure WarningPolicy extends CommerceRenewalPolicy where
  warningBeforeExpiryHours : List ℕ := [168, 72, 24]

/-- `warnings_due`, over the time that remains. -/
def WarningPolicy.warningsDue (policy : WarningPolicy) (remaining : ℤ) : List ℕ :=
  policy.warningBeforeExpiryHours.filter fun hours ↦ remaining ≤ hours * Calendar.hour

/-! ### Notices -/

/-- One call of the customer notifier's `warn`; `hours` is the threshold that it is raised for. -/
structure Warning where
  kind : RenewalKind
  hours : ℕ
  daysLeft : ℕ
  renewalAt : ℤ
  priceMinor : ℤ
  currency : String
  balanceMinor : ℤ

/-- What the log knows a warning by: its kind and its period. -/
def Warning.key (warning : Warning) : RenewalKind × ℤ :=
  (warning.kind, periodOf warning.renewalAt)

/-- The calls of the notifiers. -/
inductive Notice
  | warn (warning : Warning)
  | charged (renewalAt : ℤ)
  | alert (reason : String) (deadline : ℤ)

/-- The warning of a notice to the customer. -/
def Notice.warning : Notice → Option Warning
  | .warn warning => some warning
  | .charged _ => none
  | .alert .. => none

/-- What a pass meets: its clock, whether the server is there, the balance of its owner, and whether
the charge of the period succeeds. -/
structure PassFacts where
  now : ℤ
  checkedAt : ℤ
  found : Bool
  balance : ℤ
  charged : Bool

/-- The record of a service, its notification log and the notices that were sent. -/
structure ServiceRows where
  record : RenewalRecord
  log : List (RenewalKind × ℤ) := []
  notices : List Notice := []

namespace ServiceRows

/-- The calls of `warn` so far. -/
def warnings (rows : ServiceRows) : List Warning :=
  rows.notices.filterMap Notice.warning

variable (policy : WarningPolicy) (facts : PassFacts) (rows : ServiceRows)

/-- A notice that the log lets through once for its kind and period. -/
def once (kind : RenewalKind) (period : ℤ) (notice : Notice) : ServiceRows :=
  if (kind, period) ∈ rows.log then rows
  else { rows with log := (kind, period) :: rows.log, notices := rows.notices ++ [notice] }

/-- `_raise_customer`. -/
def raiseCustomer (kind : RenewalKind) (hours : ℕ) (renewalAt : ℤ) : ServiceRows :=
  rows.once kind (periodOf renewalAt) (.warn {
    kind := kind
    hours := hours
    daysLeft := (hours + 23) / 24
    renewalAt := renewalAt
    priceMinor := rows.record.customerPriceMinor
    currency := rows.record.currency
    balanceMinor := facts.balance })

/-- `_admin_alert`, as `_alert_insufficient` and `_suspend` call it. -/
def adminAlert (deadline : ℤ) (reason : String) : ServiceRows :=
  rows.once .adminInsufficient (periodOf deadline) (.alert reason deadline)

/-- `_warn_crossed_thresholds`. -/
def warnCrossedThresholds (renewalAt : ℤ) : ServiceRows :=
  (policy.warningsDue (renewalAt - facts.now)).foldl
    (fun rows hours ↦ rows.raiseCustomer facts (.forWarningHours hours) hours renewalAt) rows

/-- `_warn_funds`. -/
def warnFunds (renewalAt : ℤ) : ServiceRows :=
  if policy.warningsDue (renewalAt - facts.now) = [] then rows
  else rows.adminAlert renewalAt "insufficient_funds"

/-- `_mark_due`. -/
def markDue (renewalAt : ℤ) : ServiceRows :=
  let graceUntil := some (policy.graceEnd renewalAt)
  if rows.record.status = .paymentDue ∨ rows.record.status = .gracePeriod then
    if rows.record.graceUntil = none then
      { rows with record := { rows.record with
        graceUntil := graceUntil
        lastCheckedAt := some facts.checkedAt } }
    else rows
  else if rows.record.status = .active then
    let marked := { rows with record := { rows.record with
      status := .paymentDue
      graceUntil := graceUntil
      lastCheckedAt := some facts.checkedAt } }
    marked.raiseCustomer facts .renewalDue 0 renewalAt
  else rows

/-- `_suspend`. -/
def suspend (graceEnd renewalAt : ℤ) : ServiceRows :=
  let first := (RenewalKind.graceExpired, periodOf renewalAt) ∉ rows.log
  let logged : ServiceRows :=
    if first then { rows with log := (.graceExpired, periodOf renewalAt) :: rows.log } else rows
  let suspended : ServiceRows :=
    if rows.record.status = .suspended then logged
    else { logged with record := { rows.record with
      status := .suspended
      lastCheckedAt := some facts.checkedAt } }
  if first then
    (suspended.raiseCustomer facts .suspended 0 renewalAt).adminAlert graceEnd "grace_expired"
  else suspended

/-- `_settle`. -/
def settle (renewalAt : ℤ) : ServiceRows :=
  if facts.charged then
    { rows with record := advanced rows.record renewalAt facts.checkedAt }.once .charged
      (periodOf renewalAt) (.charged (renewalAt + monthPeriod))
  else rows

/-- `_check` before the period ends. -/
def checkBefore (renewalAt : ℤ) : ServiceRows :=
  let warned := rows.warnCrossedThresholds policy facts renewalAt
  if rows.record.autoChargeEnabled ∧ policy.chargeWindowOpen (renewalAt - facts.now) ∧
      rows.record.customerPriceMinor ≤ facts.balance then
    warned.settle facts renewalAt
  else if rows.record.status = .active ∧ facts.balance < rows.record.customerPriceMinor then
    warned.warnFunds policy facts renewalAt
  else warned

/-- `_check` of a service whose period has ended. -/
def checkEnded (renewalAt : ℤ) : ServiceRows :=
  let marked := rows.markDue policy facts renewalAt
  let graceEnd := marked.record.graceUntil.getD (policy.graceEnd renewalAt)
  if graceEnd ≤ facts.now then marked.suspend facts graceEnd renewalAt
  else if marked.record.autoChargeEnabled ∧ marked.record.customerPriceMinor ≤ facts.balance then
    marked.settle facts renewalAt
  else if marked.record.autoChargeEnabled = false then
    marked.raiseCustomer facts .renewalDue 0 renewalAt
  else marked.adminAlert graceEnd "insufficient_funds"

/-- `_check`. -/
def check : ServiceRows :=
  match rows.record.providerRenewalAt with
  | none => rows
  | some renewalAt =>
    if facts.found = false then rows
    else if facts.now < renewalAt then rows.checkBefore policy facts renewalAt
    else rows.checkEnded policy facts renewalAt

/-- `RenewalChecker.run`, as it treats one service. -/
def pass : ServiceRows :=
  if policy.enabled ∧ rows.record.status ≠ .cancelled then rows.check policy facts else rows

end ServiceRows

/-- The rows after a sequence of passes. -/
abbrev afterPasses (policy : WarningPolicy) : ServiceRows → List PassFacts → ServiceRows :=
  run fun rows facts ↦ rows.pass policy facts

/-- Any record, due at the epoch. -/
def dueAtEpoch : RenewalRecord where
  serverId := ⟨"00000000-0000-0000-0000-000000000000", .refl true⟩
  purchasedAt := 0
  customerPriceMinor := 1000
  currency := "EUR"
  providerRenewalAt := some 0
  price_pos := by decide
  currency_length := length_eur

/-! ### The records of passes -/

section Records

variable (policy : WarningPolicy) (facts : PassFacts) (rows : ServiceRows)

@[simp] theorem record_once (kind : RenewalKind) (period : ℤ) (notice : Notice) :
    (rows.once kind period notice).record = rows.record := by
  unfold ServiceRows.once
  split_ifs <;> rfl

@[simp] theorem record_raiseCustomer (kind : RenewalKind) (hours : ℕ) (renewalAt : ℤ) :
    (rows.raiseCustomer facts kind hours renewalAt).record = rows.record :=
  record_once _ _ _ _

@[simp] theorem record_adminAlert (deadline : ℤ) (reason : String) :
    (rows.adminAlert deadline reason).record = rows.record :=
  record_once _ _ _ _

@[simp] theorem record_warnCrossedThresholds (renewalAt : ℤ) :
    (rows.warnCrossedThresholds policy facts renewalAt).record = rows.record := by
  unfold ServiceRows.warnCrossedThresholds
  generalize policy.warningsDue (renewalAt - facts.now) = due
  induction due generalizing rows with
  | nil => rfl
  | cons hours due ih =>
    rw [List.foldl_cons, ih, record_raiseCustomer]

@[simp] theorem record_warnFunds (renewalAt : ℤ) :
    (rows.warnFunds policy facts renewalAt).record = rows.record := by
  unfold ServiceRows.warnFunds
  split_ifs
  · rfl
  · exact record_adminAlert _ _ _

/-- What `_mark_due` makes of the record. -/
theorem record_markDue (renewalAt : ℤ) : (rows.markDue policy facts renewalAt).record =
      if rows.record.status = .paymentDue ∨ rows.record.status = .gracePeriod then
        if rows.record.graceUntil = none then { rows.record with
            graceUntil := some (policy.graceEnd renewalAt)
            lastCheckedAt := some facts.checkedAt }
        else rows.record
      else if rows.record.status = .active then
        { rows.record with
          status := .paymentDue
          graceUntil := some (policy.graceEnd renewalAt)
          lastCheckedAt := some facts.checkedAt }
      else rows.record := by
  unfold ServiceRows.markDue
  dsimp only
  split_ifs <;> simp

/-- What `_suspend` makes of the record. -/
theorem record_suspend (graceEnd renewalAt : ℤ) : (rows.suspend facts graceEnd renewalAt).record =
      if rows.record.status = .suspended then rows.record
      else { rows.record with status := .suspended, lastCheckedAt := some facts.checkedAt } := by
  unfold ServiceRows.suspend
  dsimp only
  split_ifs <;> simp

/-- What `_settle` makes of the record. -/
theorem record_settle (renewalAt : ℤ) : (rows.settle facts renewalAt).record =
      if facts.charged then advanced rows.record renewalAt facts.checkedAt else rows.record := by
  unfold ServiceRows.settle
  split_ifs <;> simp

end Records

/-! ### Passes of the checker -/

section Alone

variable {oracles : ℕ → HoldCall.Chance} {rows : RenewalRows} {policy : WarningPolicy}
  {record : RenewalRecord} {server : CloudServer}

/-- The calls that touch neither the record nor the server. -/
def ReadsOrHolds : RenewalCall → Prop
  | .now => True
  | .wallet _ => True
  | .hold _ => True
  | _ => False

theorem only_charge (period : ℤ) : (charge record server period).Only ReadsOrHolds := by
  refine only_bind (fun wallet ↦ ?_) (only_perform trivial)
  cases wallet with
  | none => exact only_pure _
  | some wallet =>
    refine only_bind (fun existing ↦ ?_) (only_perform trivial)
    split_ifs
    · exact only_pure _
    · refine only_bind (fun hold ↦ ?_) ?_
      · cases hold with
        | none => exact only_pure _
        | some hold =>
          refine only_tryCatch (fun raised ↦ only_pure _) ?_
          exact only_bind (fun _ ↦ only_pure _) (only_lift (fun _ ↦ trivial) _)
      · unfold holdOfPeriod
        split
        · exact only_pure _
        · refine only_tryCatch (fun raised ↦ ?_) ?_
          · split_ifs
            · exact only_pure _
            · exact only_perform trivial
            · exact only_throw _
          · exact only_bind (fun _ ↦ only_pure _) (only_perform trivial)

/-- The charge keeps the record and the server. -/
theorem ends_charge (period : ℤ) :
    Ends RenewalCall.handle (fun _ _ after ↦ after.record = rows.record ∧
      after.server = rows.server) (charge record server period) oracles rows := by
  refine ends_of_only ?_ (only_charge period) ⟨rfl, rfl⟩
  intro request hcalls chance after hafter
  cases request with
  | now => exact hafter
  | wallet userId => exact hafter
  | hold request => exact hafter
  | _ => exact hcalls.elim

/-- `settle`, as a pass sees it. -/
theorem ends_settle {balance renewalAt : ℤ} (hrecord : rows.record = some record) :
    Ends RenewalCall.handle (fun _ _ after ↦ ∃ charged checkedAt, after.record =
      some (if charged = true then advanced record renewalAt checkedAt else record))
      (settle record server balance renewalAt) oracles rows := by
  refine ends_bind ((ends_charge _).mono fun outcome oracles after hafter ↦ ?_)
  cases outcome with
  | error raised => exact ⟨false, 0, hafter.1.trans hrecord⟩
  | ok charged =>
    cases charged with
    | false => exact ends_pure ⟨false, 0, hafter.1.trans hrecord⟩
    | true =>
      refine ends_perform (ends_perform (ends_pure ⟨true, (oracles 0).now, ?_⟩))
      change some (upsert after.record _) = _
      rw [hafter.1, hrecord]
      rfl

variable {service : ServiceRows}

/-- `markDue`, as a pass sees it. -/
theorem ends_markDue {renewalAt : ℤ} (facts : PassFacts) (hservice : service.record = record)
    (hrecord : rows.record = some record) :
    Ends RenewalCall.handle (fun outcome _ after ↦ ∃ checkedAt, outcome =
        .ok (service.markDue policy { facts with checkedAt := checkedAt } renewalAt).record ∧
      after.record = some (service.markDue policy { facts with checkedAt := checkedAt }
        renewalAt).record)
      (markDue policy.toCommerceRenewalPolicy record renewalAt) oracles rows := by
  subst hservice
  simp only [record_markDue]
  unfold markDue
  split_ifs
  · refine ends_perform (ends_perform (ends_pure ⟨(oracles 0).now, rfl, ?_⟩))
    change some (upsert rows.record _) = _
    rw [hrecord]
    rfl
  · exact ends_pure ⟨0, rfl, hrecord⟩
  · refine ends_perform (ends_perform (ends_pure ⟨(oracles 0).now, rfl, ?_⟩))
    change some (upsert rows.record _) = _
    rw [hrecord]
    rfl
  · exact ends_pure ⟨0, rfl, hrecord⟩

/-- What a pass makes of a record whose period has ended. -/
theorem record_checkEnded (service : ServiceRows) (facts : PassFacts) (renewalAt : ℤ) :
    (service.checkEnded policy facts renewalAt).record =
      let marked := (service.markDue policy facts renewalAt).record
      if marked.graceUntil.getD (policy.graceEnd renewalAt) ≤ facts.now then
        if marked.status = .suspended then marked
        else { marked with status := .suspended, lastCheckedAt := some facts.checkedAt }
      else if marked.autoChargeEnabled ∧ marked.customerPriceMinor ≤ facts.balance then
        if facts.charged then advanced marked renewalAt facts.checkedAt else marked
      else marked := by
  unfold ServiceRows.checkEnded
  dsimp only
  split_ifs <;> simp_all [record_suspend, record_settle]

/-- The clock reading of a marked record is its only trace of it. -/
theorem markDue_checkedAt (service : ServiceRows) (facts : PassFacts) (charged : Bool)
    (checkedAt renewalAt : ℤ) : ∃ seen, (service.markDue policy facts renewalAt).record =
        { (service.markDue policy { facts with charged := charged, checkedAt := checkedAt }
          renewalAt).record with lastCheckedAt := seen } := by
  refine ⟨(service.markDue policy facts renewalAt).record.lastCheckedAt, ?_⟩
  rw [record_markDue, record_markDue]
  split_ifs <;> rfl

/-- `checkEnded`, as a pass sees it. -/
theorem ends_checkEnded (policy : WarningPolicy) {balance renewalAt now : ℤ}
    (hservice : service.record = record) (hrecord : rows.record = some record) :
    Ends RenewalCall.handle (fun _ _ after ↦ ∃ charged checkedAt, after.record =
        some (service.checkEnded policy ⟨now, checkedAt, true, balance, charged⟩ renewalAt).record)
      (checkEnded policy.toCommerceRenewalPolicy record server balance renewalAt now) oracles
        rows := by
  refine ends_bind ((ends_markDue ⟨now, 0, true, balance, false⟩ hservice hrecord).mono
    fun outcome oracles after hmarked ↦ ?_)
  obtain ⟨first, rfl, hafter⟩ := hmarked
  dsimp only
  generalize hmark : (service.markDue policy ⟨now, first, true, balance, false⟩ renewalAt).record =
    marked at hafter ⊢
  have hsame (checkedAt : ℤ) (charged : Bool) : ∃ seen,
      marked = { (service.markDue policy ⟨now, checkedAt, true, balance, charged⟩
        renewalAt).record with lastCheckedAt := seen } := by
    rw [← hmark]
    exact markDue_checkedAt _ _ _ _ _
  by_cases hended : marked.graceUntil.getD (policy.graceEnd renewalAt) ≤ now
  · rw [if_pos hended]
    unfold suspend
    by_cases hsuspended : marked.status = .suspended
    · rw [if_pos hsuspended]
      refine ends_pure ⟨false, first, ?_⟩
      rw [record_checkEnded, hafter]
      dsimp only
      rw [hmark, if_pos hended, if_pos hsuspended]
    · rw [if_neg hsuspended]
      refine ends_perform (ends_perform (ends_pure ⟨false, (oracles 0).now, ?_⟩))
      change some (upsert after.record _) = _
      obtain ⟨seen, hseen⟩ := hsame (oracles 0).now false
      rw [record_checkEnded, hafter]
      dsimp only
      rw [hseen] at hended hsuspended ⊢
      rw [if_pos hended, if_neg hsuspended]
      rfl
  · rw [if_neg hended]
    by_cases hcovered : marked.autoChargeEnabled = true ∧ marked.customerPriceMinor ≤ balance
    · rw [if_pos hcovered]
      refine (ends_settle hafter).mono fun outcome _ last hlast ↦ ?_
      obtain ⟨charged, checkedAt, hlast⟩ := hlast
      cases charged with
      | true =>
        obtain ⟨seen, hseen⟩ := hsame checkedAt true
        refine ⟨true, checkedAt, ?_⟩
        rw [record_checkEnded, hlast, if_pos rfl]
        dsimp only
        rw [hseen] at hended hcovered ⊢
        rw [if_neg hended, if_pos hcovered, if_pos rfl]
        rfl
      | false =>
        refine ⟨false, first, ?_⟩
        rw [record_checkEnded, hlast]
        dsimp only
        rw [hmark, if_neg hended, if_pos hcovered]
        rfl
    · rw [if_neg hcovered]
      refine ends_pure ⟨false, first, ?_⟩
      rw [record_checkEnded, hafter]
      dsimp only
      rw [hmark, if_neg hended, if_neg hcovered]

/-- What the rows say to a pass: the server of the record, and the balance of its owner. -/
def balanceOf (rows : RenewalRows) (record : RenewalRecord) : Option ℤ :=
  (rows.server.filter (·.id = record.serverId)).map fun server ↦
    if rows.books.wallet.userId = server.userId then rows.books.wallet.balance else 0

theorem ends_walletBalance (server : CloudServer) : Ends RenewalCall.handle (fun outcome _ after ↦
    outcome = .ok (if rows.books.wallet.userId = server.userId then rows.books.wallet.balance
      else 0) ∧ after = rows) (walletBalance server) oracles rows := by
  refine ends_perform (ends_pure ⟨?_, rfl⟩)
  split_ifs <;> rfl

/-- `check`, as a pass sees it. -/
theorem ends_check (hrecord : rows.record = some service.record) :
    Ends RenewalCall.handle (fun _ _ after ↦ ∃ charged checkedAt, after.record =
        some (service.check policy ⟨(oracles 0).now, checkedAt,
          (balanceOf rows service.record).isSome, (balanceOf rows service.record).getD 0,
          charged⟩).record) (check policy.toCommerceRenewalPolicy service.record) oracles rows := by
  unfold check
  refine ends_perform ?_
  change Ends _ _ _ (rest oracles) rows
  cases hdue : service.record.providerRenewalAt with
  | none =>
    refine ends_pure ⟨false, 0, ?_⟩
    rw [ServiceRows.check, hdue]
    exact hrecord
  | some renewalAt =>
    refine ends_perform ?_
    rw [show RenewalCall.handle (.server service.record.serverId) (rest oracles 0) rows =
      (.ok (rows.server.filter (·.id = service.record.serverId)), rows) from rfl]
    dsimp only
    cases hserver : rows.server.filter (·.id = service.record.serverId) with
    | none =>
      refine ends_pure ⟨false, 0, ?_⟩
      rw [ServiceRows.check, hdue, balanceOf, hserver]
      exact hrecord
    | some server =>
      have hbalance : balanceOf rows service.record =
          some (if rows.books.wallet.userId = server.userId then rows.books.wallet.balance
            else 0) := by
        rw [balanceOf, hserver]
        rfl
      rw [hbalance, Option.isSome_some, Option.getD_some]
      generalize hamount : (if rows.books.wallet.userId = server.userId then
        rows.books.wallet.balance else 0) = balance
      dsimp only
      refine ends_bind ((ends_walletBalance server).mono fun outcome _ after hread ↦ ?_)
      obtain ⟨rfl, rfl⟩ := hread
      dsimp only
      rw [hamount]
      by_cases hbefore : (oracles 0).now < renewalAt
      · rw [if_pos hbefore]
        have hcheck (facts : PassFacts) (hfound : facts.found = true)
            (hnow : facts.now = (oracles 0).now) :
            service.check policy facts = service.checkBefore policy facts renewalAt := by
          rw [ServiceRows.check, hdue]
          dsimp only
          rw [if_neg (by simp [hfound]), if_pos (hnow ▸ hbefore)]
        by_cases hcovered : service.record.autoChargeEnabled = true ∧
            policy.chargeWindowOpen (renewalAt - (oracles 0).now) = true ∧
              service.record.customerPriceMinor ≤ balance
        · rw [if_pos hcovered]
          refine (ends_settle hrecord).mono fun _ _ last hlast ↦ ?_
          obtain ⟨charged, checkedAt, hlast⟩ := hlast
          refine ⟨charged, checkedAt, ?_⟩
          rw [hcheck _ rfl rfl, ServiceRows.checkBefore, if_pos hcovered, record_settle, hlast]
          simp
        · rw [if_neg hcovered]
          refine ends_pure ⟨false, 0, ?_⟩
          rw [hcheck _ rfl rfl, ServiceRows.checkBefore, if_neg hcovered, hrecord]
          dsimp only
          split_ifs <;> simp
      · rw [if_neg hbefore]
        refine (ends_checkEnded policy rfl hrecord).mono fun _ _ last hlast ↦ ?_
        obtain ⟨charged, checkedAt, hlast⟩ := hlast
        refine ⟨charged, checkedAt, ?_⟩
        rw [hlast, ServiceRows.check, hdue]
        dsimp only
        rw [if_neg (by simp), if_neg hbefore]

end Alone

end CloudPlatform.Renewals
