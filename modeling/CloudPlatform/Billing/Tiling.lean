import Mathlib.Tactic.Ring
import CloudPlatform.Billing.Settlement
import CloudPlatform.Wallets.HoldLedger

/-!
# The hourly periods of a server

An hourly server whose creation hold pays its first period is billed by runs of the accrual job at
clock values that never go back, each of which may stop after any of its writes. The wallet is
debited exactly once for each of the first `n` periods from the activation on, and for no other, and
a run that returns leaves the server paid through the end of the last of them (`tiles_of_activated`).

A run stops with at most one period debited ahead of the watermark (`Tiled`). The next run finds the
charge, or the captured hold, and only records it and moves the watermark.
-/

namespace CloudPlatform.Billing

open AccrualJob
open Calendar (second)
open Compute (CloudServer)
open Transition
open Wallets

/-- An hourly server at its activation: its price has no monthly cap, its creation hold is CREATED
over exactly the price, and nothing is charged yet. -/
structure Activated (start : BillingRows) (server : CloudServer) (snapshot : ServerPriceSnapshot)
    (hold : Hold) (anchor : ℤ) : Prop where
  server_eq : start.server server.id = some server
  hourly : server.isPrepaidMonthly = false ∧ server.isPrepaidHourlyIrt = false
  anchor_eq : server.billingStartedAt = some anchor
  unbilled : server.lastAccruedAt = none
  quantum : 1 ≤ server.quantumSeconds
  key : truthy server.idempotencyKey
  snapshot_eq : start.snapshot server.id = some snapshot
  uncapped : snapshot.rule.monthlyCapMinor = none
  hold_key : start.books.holdByKey start.books.wallet.id
    (createHoldKey (server.idempotencyKey.getD "")) = some hold
  hold_ids : (start.books.holds.map (·.id)).Nodup
  created : hold.status = .created
  amount : hold.amount = snapshot.sellingMinor
  uncaptured : start.books.entry
    (HoldService.captureKey (createHoldKey (server.idempotencyKey.getD ""))) = none
  uncharged : ∀ k : ℕ, start.books.entry (accrualChargeKey server.id
    (anchor + k * (server.quantumSeconds * second))) = none
  clock : anchor ≤ start.clock

/-- One event of the job's runs over a server. -/
abbrev accrualStep (serverId : Uuid) :
    Solo Raised BillingCall BillingCall.Out BillingRows Unit →
      SoloEvent Unit BillingCall.Chance → Solo Raised BillingCall BillingCall.Out BillingRows Unit :=
  Solo.step BillingCall.handle fun _ ↦ AccrualJob.accrue serverId

section Grid

variable (server : CloudServer) (anchor : ℤ)

/-- The start of a period. -/
def periodStart (k : ℕ) : ℤ :=
  anchor + k * (server.quantumSeconds * second)

/-- The ledger has the charge of a period. -/
def Charged (books : Books) (k : ℕ) : Prop :=
  ∃ entry, books.entry (accrualChargeKey server.id (periodStart server anchor k)) = some entry ∧
    entry.description = usageDescription (periodStart server anchor k)
      (periodStart server anchor (k + 1))

/-- The creation hold of the server is captured. -/
def HoldCaptured (books : Books) : Prop :=
  ∃ hold, books.holdByKey books.wallet.id (createHoldKey (server.idempotencyKey.getD "")) =
    some hold ∧ hold.status = .captured

/-- The wallet was debited for a period: through the creation hold, which only pays the first, or
under the charge key of the period. -/
def Debited (books : Books) (k : ℕ) : Prop :=
  (k = 0 ∧ HoldCaptured server books) ∨ Charged server anchor books k

/-- The wallet is debited once for each of the first `n` periods and for no other. -/
structure Tiles (price : ℤ) (start rows : BillingRows) (n : ℕ) : Prop where
  debited : ∀ k, Debited server anchor rows.books k ↔ k < n
  balance : rows.books.wallet.balance = start.books.wallet.balance - n * price
  captured : (rows.books.entry (captureKey server)).isSome → HoldCaptured server rows.books
  once : ¬ (HoldCaptured server rows.books ∧ Charged server anchor rows.books 0)

/-- The server is paid through the period that the clock is in, and no further. -/
structure PaidThrough (rows : BillingRows) (n : ℕ) : Prop where
  watermark : ∃ row, rows.server server.id = some row ∧
    row.lastAccruedAt = some (periodStart server anchor n)
  reaches : rows.clock < periodStart server anchor n
  ahead : periodStart server anchor n ≤ rows.clock + server.quantumSeconds * second

end Grid

/-! ### The invariant -/

section Progress

variable (start : BillingRows) (server : CloudServer) (price anchor : ℤ)

/-- A row of the server, or a copy of it, with the first `m` periods behind its watermark. -/
structure Copy (m : ℕ) (copy : CloudServer) : Prop where
  id_eq : copy.id = server.id
  userId_eq : copy.userId = server.userId
  key_eq : copy.idempotencyKey = server.idempotencyKey
  model_eq : copy.billingModel = server.billingModel
  quantum_eq : copy.quantumSeconds = server.quantumSeconds
  anchor_eq : copy.billingStartedAt = some anchor
  watermark : copy.lastAccruedAt = if m = 0 then none else some (periodStart server anchor m)

/-- The watermark is past `m` periods, and `n` are debited: no more than one ahead. -/
structure Progress (m n : ℕ) (rows : BillingRows) : Prop where
  order : m ≤ n ∧ n ≤ m + 1
  row : ∃ row, rows.server server.id = some row ∧ Copy server anchor m row
  snapshots : rows.snapshots = start.snapshots
  wallet : rows.books.wallet =
    { start.books.wallet with balance := start.books.wallet.balance - n * price }
  hold : ∃ hold, rows.books.holdByKey start.books.wallet.id
      (createHoldKey (server.idempotencyKey.getD "")) = some hold ∧
    hold.amount = price ∧ hold.status = if n = 0 then .created else .captured
  holdIds : (rows.books.holds.map (·.id)).Nodup
  charged : ∀ k, Charged server anchor rows.books k ↔ 1 ≤ k ∧ k < n
  captured : (rows.books.entry (captureKey server)).isSome → 1 ≤ n
  started : ∀ k < n, periodStart server anchor k ≤ rows.clock
  activated : anchor ≤ rows.clock

/-- Every write of the job leaves the server somewhere on its way. -/
def OnTheWay (rows : BillingRows) : Prop :=
  ∃ m n, Progress start server price anchor m n rows

end Progress

section Steps

variable {start rows : BillingRows} {server : CloudServer} {price anchor : ℤ} {m n : ℕ}

theorem periodStart_zero (server : CloudServer) (anchor : ℤ) :
    periodStart server anchor 0 = anchor := by
  simp [periodStart]

theorem periodStart_add (server : CloudServer) (anchor : ℤ) (m k : ℕ) :
    periodStart server anchor (m + k) =
      periodStart server anchor m + server.quantumSeconds * k * second := by
  unfold periodStart
  push_cast
  ring

/-- Distinct periods start at least a second apart. -/
theorem second_le_of_lt (anchor : ℤ) (hquantum : 1 ≤ server.quantumSeconds) {j k : ℕ} (h : j < k) :
    second ≤ periodStart server anchor k - periodStart server anchor j := by
  obtain ⟨d, rfl⟩ := Nat.exists_eq_add_of_lt h
  have hstep : periodStart server anchor (j + d + 1) - periodStart server anchor j =
      server.quantumSeconds * (d + 1) * second := by
    rw [Nat.add_assoc, periodStart_add]
    push_cast
    ring
  have hle : (1 : ℤ) ≤ server.quantumSeconds * (d + 1) := by
    calc (1 : ℤ) = 1 * 1 := by ring
      _ ≤ server.quantumSeconds * (d + 1) := by
        apply Int.mul_le_mul hquantum (by omega) (by omega) (by omega)
  rw [hstep]
  simp only [second]
  omega

/-- The charges of distinct periods are told apart by key and description. -/
theorem charge_period_unique (hquantum : 1 ≤ server.quantumSeconds) {j k : ℕ} {finish finish' : ℤ}
    (hkey : accrualChargeKey server.id (periodStart server anchor j) =
      accrualChargeKey server.id (periodStart server anchor k))
    (hdescription : usageDescription (periodStart server anchor j) finish =
      usageDescription (periodStart server anchor k) finish') : j = k := by
  obtain ⟨-, hbefore, hafter⟩ := charge_determines hkey hdescription
  rcases Nat.lt_trichotomy j k with hlt | heq | hgt
  · have hapart := second_le_of_lt anchor hquantum hlt
    omega
  · exact heq
  · have hapart := second_le_of_lt anchor hquantum hgt
    omega

/-- The rows a server is billed from do not include the accrual records. -/
theorem Progress.withAccruals (h : Progress start server price anchor m n rows)
    (accruals : List AccrualPeriod) :
    Progress start server price anchor m n { rows with accruals := accruals } :=
  ⟨h.order, h.row, h.snapshots, h.wallet, h.hold, h.holdIds, h.charged, h.captured, h.started,
    h.activated⟩

theorem Progress.tick (h : Progress start server price anchor m n rows) (tick : ℕ) :
    Progress start server price anchor m n { rows with clock := rows.clock + tick } := by
  refine ⟨h.order, h.row, h.snapshots, h.wallet, h.hold, h.holdIds, h.charged, h.captured,
    fun k hk ↦ ?_, ?_⟩
  · have hstarted := h.started k hk
    change _ ≤ rows.clock + tick
    omega
  · have hactivated := h.activated
    change anchor ≤ rows.clock + tick
    omega

/-- The charges in the ledger depend on the entries of the charge keys only. -/
theorem charged_congr {books after : Books} (h : ∀ t, after.entry (accrualChargeKey server.id t) =
    books.entry (accrualChargeKey server.id t)) (k : ℕ) :
    Charged server anchor after k ↔ Charged server anchor books k := by
  rw [Charged, Charged, h]

/-- A charged period that is recorded moves the watermark past it. -/
theorem Progress.advance (h : Progress start server price anchor m (m + 1) rows)
    {copy : CloudServer} (hcopy : Copy server anchor m copy) {after : BillingRows}
    (hsaved : Saved rows (moved copy (periodStart server anchor (m + 1))) after)
    (hquantum : 1 ≤ server.quantumSeconds) :
    Progress start server price anchor (m + 1) (m + 1) after ∧ after.clock = rows.clock ∧
      ∀ version, Copy server anchor (m + 1)
        { moved copy (periodStart server anchor (m + 1)) with updatedAt := version } := by
  have hmoved : (moved copy (periodStart server anchor (m + 1))).lastAccruedAt =
      some (periodStart server anchor (m + 1)) := by
    rw [moved, hcopy.watermark]
    split
    · rfl
    · have hapart := second_le_of_lt anchor hquantum (Nat.lt_add_one m)
      simp only [second] at hapart
      simp only [Option.map_some, Option.getD_some]
      rw [max_eq_right (by omega)]
  obtain ⟨hframe, row, hrow, hafter⟩ := hsaved.spec
  have hid : (moved copy (periodStart server anchor (m + 1))).id = server.id :=
    hcopy.id_eq
  rw [hid] at hrow hafter
  obtain ⟨row', hrow', hcontract⟩ := h.row
  obtain rfl := Option.some.inj (hrow.symm.trans hrow')
  rw [hframe]
  refine ⟨⟨⟨le_refl _, Nat.le_succ _⟩, ⟨_, hafter, ?_⟩, h.snapshots, h.wallet, h.hold, h.holdIds,
    h.charged, h.captured, h.started, h.activated⟩, rfl, fun version ↦ ?_⟩
  · exact ⟨hcontract.id_eq, hcontract.userId_eq, hcontract.key_eq, hcontract.model_eq,
      hcontract.quantum_eq, hcopy.anchor_eq, hmoved⟩
  · exact ⟨hcopy.id_eq, hcopy.userId_eq, hcopy.key_eq, hcopy.model_eq, hcopy.quantum_eq,
      hcopy.anchor_eq, hmoved⟩

/-- The charge of a later period. -/
theorem Progress.charge (h : Progress start server price anchor m m rows) (hm : 1 ≤ m)
    (hquantum : 1 ≤ server.quantumSeconds)
    (hreached : periodStart server anchor m ≤ rows.clock) {call : AdjustCall}
    (hkey : call.idempotencyKey = accrualChargeKey server.id (periodStart server anchor m))
    (hdelta : call.delta = -price)
    (hdescription : call.description = usageDescription (periodStart server anchor m)
      (periodStart server anchor (m + 1)))
    (hunpaid : rows.books.entry (accrualChargeKey server.id (periodStart server anchor m)) = none)
    {books : Books} {wallet : Wallet} {applied : Bool}
    (hadjust : adjust rows.books call = .ok (books, wallet, applied)) :
    Progress start server price anchor m (m + 1) { rows with books := books } := by
  have hstrip : strip call.idempotencyKey =
      accrualChargeKey server.id (periodStart server anchor m) := by
    rw [hkey, strip_accrualChargeKey]
  rcases adjust_eq_ok hadjust with ⟨-, -, prior, hprior⟩ | ⟨-, -, -, -, reference, -, hposted⟩
  · have hstored := hprior.stored
    rw [hstrip, hunpaid] at hstored
    cases hstored
  · rw [hstrip] at hposted
    have hentry := Books.entry_of_ledger hposted.ledger
    refine ⟨⟨Nat.le_succ _, le_refl _⟩, h.row, h.snapshots, ?_, ?_, ?_, fun k ↦ ?_, fun _ ↦ ?_,
      fun k hk ↦ ?_, h.activated⟩
    · change books.wallet = _
      rw [hposted.wallet, h.wallet, hdelta]
      push_cast
      congr 1
      ring
    · have hholds : ∀ key, books.holdByKey start.books.wallet.id key =
          rows.books.holdByKey start.books.wallet.id key := by
        intro key
        rw [Books.holdByKey, hposted.holds]
        rfl
      obtain ⟨hold, hhold, hamount, hstatus⟩ := h.hold
      refine ⟨hold, (hholds _).trans hhold, hamount, ?_⟩
      rw [hstatus, if_neg (by omega), if_neg (by omega)]
    · change (books.holds.map (·.id)).Nodup
      rw [hposted.holds]
      exact h.holdIds
    · constructor
      · rintro ⟨entry, hsome, htext⟩
        rcases Books.entry_posted hposted.ledger hsome with hbefore | ⟨hsame, rfl⟩
        · obtain ⟨hone, hlt⟩ := (h.charged k).mp ⟨entry, hbefore, htext⟩
          omega
        · obtain rfl := charge_period_unique hquantum hsame (hdescription.symm.trans htext)
          omega
      · rintro ⟨hone, hlt⟩
        by_cases hlast : k = m
        · subst hlast
          have hnew := hentry (accrualChargeKey server.id (periodStart server anchor k))
          rw [hunpaid, Option.none_or, if_pos hposted.key_eq] at hnew
          exact ⟨_, hnew, hdescription⟩
        · obtain ⟨entry, hsome, htext⟩ := (h.charged k).mpr ⟨hone, by omega⟩
          refine ⟨entry, ?_, htext⟩
          rw [hentry, hsome, Option.some_or]
    · omega
    · by_cases hlast : k = m
      · rw [hlast]
        exact hreached
      · exact h.started k (by omega)

/-- The capture of the creation hold is the charge of the first period. -/
theorem Progress.capture (h : Progress start server price anchor 0 n rows)
    (hreached : periodStart server anchor 0 ≤ rows.clock) {hold : Hold} {mid : Books}
    (hhold : rows.books.holdByKey start.books.wallet.id
      (createHoldKey (server.idempotencyKey.getD "")) = some hold)
    (hmid : Captured rows.books hold mid) :
    Progress start server price anchor 0 1 { rows with books := mid } := by
  obtain ⟨own, hown, hamount, hstatus⟩ := h.hold
  obtain rfl := Option.some.inj (hown.symm.trans hhold)
  cases hmid with
  | already hcaptured =>
    rw [hcaptured] at hstatus
    have hn : n = 1 := by
      have horder := h.order
      by_contra hne
      rw [if_pos (by omega)] at hstatus
      cases hstatus
    subst hn
    exact h
  | debited now hcreated hcovered =>
    rw [hcreated] at hstatus
    have hn : n = 0 := by
      by_contra hne
      rw [if_neg hne] at hstatus
      cases hstatus
    subst hn
    have hmem : own ∈ rows.books.holds := List.mem_of_find?_eq_some hown
    refine ⟨⟨Nat.zero_le _, le_refl _⟩, h.row, h.snapshots, ?_, ?_, ?_, fun k ↦ ?_,
      fun _ ↦ le_refl _, fun k hk ↦ ?_, h.activated⟩
    · change { rows.books.wallet with balance := rows.books.wallet.balance - own.amount } = _
      rw [h.wallet, hamount]
      simp
    · refine ⟨{ own with status := .captured, capturedAt := some now }, ?_, hamount, rfl⟩
      have hset := Books.holdByKey_setHold
        (rows.books.withBalance (rows.books.wallet.balance - own.amount))
        { own with status := .captured, capturedAt := some now } h.holdIds hmem rfl rfl rfl
      refine (hset _ _).trans ?_
      rw [Books.holdByKey, Books.withBalance_holds, ← Books.holdByKey, hown, Option.map_some,
        if_pos rfl]
    · change (((rows.books.withBalance _).setHold _).holds.map (·.id)).Nodup
      rw [Books.setHold_ids]
      exact h.holdIds
    · have hcharged := h.charged k
      constructor
      · intro hk
        have hrange := hcharged.mp hk
        omega
      · rintro ⟨hone, hlt⟩
        omega
    · have hk : k = 0 := by omega
      rw [hk]
      exact hreached

/-- The posting of the capture. -/
theorem Progress.post (h : Progress start server price anchor 0 1 rows) (walletId : Uuid)
    (hold : Hold) (key : String) : Progress start server price anchor 0 1
      { rows with books := (postEntry rows.books (captureEntry walletId hold key)).1 } := by
  rcases postEntry_cases rows.books (captureEntry walletId hold key) with
    ⟨raised, hraised, -⟩ | ⟨-, reference, -, hposted⟩
  · rw [hraised]
    exact h
  · rw [hposted]
    refine ⟨h.order, h.row, h.snapshots, h.wallet, h.hold, h.holdIds, fun k ↦ ?_, fun _ ↦ le_refl _,
      h.started, h.activated⟩
    rw [← h.charged k]
    refine charged_congr (fun t ↦ ?_) k
    rw [Books.entry_of_ledger rfl]
    have hother : ((captureEntry walletId hold key).row reference).idempotencyKey ≠
        accrualChargeKey server.id t := captureKey_ne_accrualChargeKey key server.id t
    rw [if_neg hother, Option.or_none]

end Steps

/-! ### One period -/

section Period

variable {start rows : BillingRows} {server copy : CloudServer} {snapshot : ServerPriceSnapshot}
  {hold : Hold} {anchor : ℤ} {m n : ℕ}

/-- What the settlement of period `m` establishes when it returns. -/
def Settled (start : BillingRows) (server : CloudServer) (price anchor : ℤ) (m : ℕ)
    (rows : BillingRows) (copy : CloudServer) (after : BillingRows) : Prop :=
  Copy server anchor (m + 1) copy ∧ Progress start server price anchor (m + 1) (m + 1) after ∧
    after.clock = rows.clock

/-- A program of the job over the server, under the invariant. -/
abbrev PeriodSafe (start : BillingRows) (server : CloudServer) (price anchor : ℤ) {α : Type}
    (P : α → BillingRows → Prop) (program : AccrualProgram α) (rows : BillingRows) : Prop :=
  JobSafe (OnTheWay start server price anchor) (fun _ _ ↦ True) P program rows

variable {price : ℤ} {facts : Settlement}

/-- A debited period is recorded, and the watermark moves past it. -/
theorem safe_finish (hquantum : 1 ≤ server.quantumSeconds) {key : String} {clock : ℤ}
    (h : Progress start server price anchor m (m + 1) rows) (hclock : rows.clock = clock)
    (hcopy : Copy server anchor m copy) (hserver : facts.server = copy)
    (hend : facts.periodEnd = periodStart server anchor (m + 1)) :
    PeriodSafe start server price anchor (fun advanced after ↦ Copy server anchor (m + 1) advanced ∧
        Progress start server price anchor (m + 1) (m + 1) after ∧ after.clock = clock)
      (finish facts key) rows := by
  rw [← hclock]
  refine jobSafe_finish fun accruals _ ↦ ?_
  have hrecorded := h.withAccruals accruals
  refine ⟨⟨m, m + 1, hrecorded⟩, fun after hsaved ↦ ?_⟩
  rw [hserver, hend] at hsaved ⊢
  obtain ⟨hafter, hsame, hadvanced⟩ := hrecorded.advance hcopy hsaved hquantum
  exact ⟨⟨m + 1, m + 1, hafter⟩, hadvanced _, hafter, hsame⟩

/-- The first period is the one that starts at the activation. -/
theorem isFirstPeriod_iff (hquantum : 1 ≤ server.quantumSeconds) (hcopy : Copy server anchor m copy)
    (hserver : facts.server = copy) (hstart : facts.periodStart = periodStart server anchor m) :
    facts.isFirstPeriod = true ↔ m = 0 := by
  rw [Settlement.isFirstPeriod, decide_eq_true_eq, hserver, hstart, hcopy.anchor_eq,
    Option.some.injEq]
  constructor
  · intro heq
    by_contra hne
    have hapart := second_le_of_lt anchor hquantum (Nat.pos_of_ne_zero hne)
    rw [periodStart_zero, ← heq] at hapart
    simp only [second] at hapart
    omega
  · rintro rfl
    exact (periodStart_zero server anchor).symm

/-- What the activation fixes for the whole life of the server. -/
structure Fixed (start : BillingRows) (server : CloudServer) (snapshot : ServerPriceSnapshot) :
    Prop where
  quantum : 1 ≤ server.quantumSeconds
  key : truthy server.idempotencyKey
  snapshot_eq : start.snapshot server.id = some snapshot
  uncapped : snapshot.rule.monthlyCapMinor = none

/-- The price and the keys of a loaded period are those of the server. -/
theorem loaded_spec (hfixed : Fixed start server snapshot)
    (h : Progress start server price anchor m n rows) (hcopy : Copy server anchor m copy)
    {finish : ℤ} (hloaded : Loaded rows copy (periodStart server anchor m) finish facts) :
    facts.snapshot = snapshot ∧ facts.server.id = server.id ∧
      facts.holdKey = createHoldKey (server.idempotencyKey.getD "") ∧
      facts.wallet.id = start.books.wallet.id ∧ rows.books.wallet.id = start.books.wallet.id ∧
      (facts.isFirstPeriod = true ↔ m = 0) := by
  have hsnapshot : rows.snapshot copy.id = start.snapshot server.id := by
    rw [hcopy.id_eq, BillingRows.snapshot, h.snapshots]
    rfl
  have hwallet : rows.books.wallet.id = start.books.wallet.id := by rw [h.wallet]
  refine ⟨?_, ?_, ?_, ?_, hwallet,
    isFirstPeriod_iff hfixed.quantum hcopy hloaded.server_eq hloaded.periodStart_eq⟩
  · have hfound := hloaded.snapshot_eq
    rw [hsnapshot, hfixed.snapshot_eq] at hfound
    exact (Option.some.inj hfound).symm
  · rw [hloaded.server_eq, hcopy.id_eq]
  · rw [Settlement.holdKey, hloaded.server_eq, hcopy.key_eq]
  · rw [hloaded.wallet_eq, hwallet]

/-- An entry that the replay check accepts is there because the period is debited. -/
theorem debited_of_settledBy (hfixed : Fixed start server snapshot)
    (h : Progress start server price anchor m n rows) (hcopy : Copy server anchor m copy)
    (hloaded : Loaded rows copy (periodStart server anchor m)
      (periodStart server anchor (m + 1)) facts) {key : String} (hkey : key ∈ facts.candidateKeys)
    {entry : LedgerEntry} (hentry : rows.books.entry key = some entry)
    (hsettled : facts.settledBy key entry = true) : n = m + 1 := by
  obtain ⟨-, hid, hholdKey, -, -, hfirst⟩ := loaded_spec hfixed h hcopy hloaded
  have horder := h.order
  rw [Settlement.candidateKeys, List.mem_append, List.mem_singleton] at hkey
  rcases hkey with hcapture | hcharge
  · split at hcapture
    · rename_i hboth
      have hzero : m = 0 := hfirst.mp (Bool.and_eq_true_iff.mp hboth).1
      rw [List.mem_singleton, hholdKey] at hcapture
      have hsome : (rows.books.entry (captureKey server)).isSome := by
        rw [captureKey, ← hcapture, hentry]
        rfl
      have hone := h.captured hsome
      omega
    · cases hcapture
  · have hprefix : "capture-".toList.isPrefixOf key.toList = false := by
      rw [hcharge]
      simp [accrualChargeKey, List.isPrefixOf]
    rw [Settlement.settledBy, decide_eq_true_eq, hprefix] at hsettled
    simp only [Bool.false_eq_true, if_false, decide_eq_true_eq] at hsettled
    obtain ⟨-, -, -, -, -, hdescription⟩ := hsettled
    rw [hloaded.periodStart_eq, hloaded.periodEnd_eq] at hdescription
    rw [hcharge, hid, hloaded.periodStart_eq] at hentry
    have hrange := (h.charged m).mp ⟨entry, hentry, hdescription⟩
    omega

/-- A period is settled: replayed if it is debited already, and else debited now. -/
theorem safe_settlePeriod (hfixed : Fixed start server snapshot)
    (h : Progress start server snapshot.sellingMinor anchor m n rows)
    (hcopy : Copy server anchor m copy) (hreached : periodStart server anchor m ≤ rows.clock) :
    PeriodSafe start server snapshot.sellingMinor anchor
      (Settled start server snapshot.sellingMinor anchor m rows)
      (settlePeriod copy (periodStart server anchor m) (periodStart server anchor (m + 1)))
      rows := by
  refine jobSafe_settlePeriod ?_ ?_ ?_
  · intro facts hloaded key hkey entry hentry hsettled
    obtain rfl := debited_of_settledBy hfixed h hcopy hloaded hkey hentry hsettled
    exact safe_finish hfixed.quantum h rfl hcopy hloaded.server_eq hloaded.periodEnd_eq
  · intro facts hloaded hunpaid _
    obtain ⟨hsnapshot, hid, hholdKey, hwallet, hbooks, hfirst⟩ := loaded_spec hfixed h hcopy hloaded
    have hkey : truthy copy.idempotencyKey = true := by
      rw [hcopy.key_eq]
      exact hfixed.key
    have hheld := hloaded.hold_eq
    rw [hkey, Bool.and_true, hholdKey, hbooks] at hheld
    refine jobSafe_settleFresh ?_ ?_
    · intro found hfound _ _ _ unconfirmed
      by_cases hzero : m = 0
      · subst hzero
        rw [if_pos (hfirst.mpr rfl)] at hheld
        have hown := hheld.symm.trans hfound
        have hmem : found ∈ rows.books.holds := List.mem_of_find?_eq_some hown
        have hmid : ∀ mid, Captured rows.books found mid → Progress start server
            snapshot.sellingMinor anchor 0 1 { rows with books := mid } :=
          fun mid ↦ h.capture hreached hown
        have hpost : ∀ mid, Captured rows.books found mid → Progress start server
            snapshot.sellingMinor anchor 0 1 (afterCapture rows facts found mid) :=
          fun mid hcaptured ↦ (hmid mid hcaptured).post _ _ _
        refine jobSafe_settleByCapture (hwallet.trans hbooks.symm)
          (Books.hold_of_mem h.holdIds hmem)
          (fun _ _ mid hcaptured ↦ ⟨0, 1, hmid mid hcaptured⟩)
          (fun mid hcaptured _ ↦ ⟨0, 1, hpost mid hcaptured⟩) fun mid hcaptured _ ↦ ?_
        exact safe_finish hfixed.quantum (hpost mid hcaptured) rfl hcopy hloaded.server_eq
          hloaded.periodEnd_eq
      · rw [if_neg (fun hboth ↦ hzero (hfirst.mp hboth)), hfound] at hheld
        cases hheld
    · intro hnone _ books wallet applied hadjust
      have hlater : 1 ≤ m := by
        by_contra hlt
        obtain ⟨own, hown, -⟩ := h.hold
        rw [if_pos (hfirst.mpr (by omega)), hown, hnone] at hheld
        cases hheld
      have hunpaid : rows.books.entry
          (accrualChargeKey server.id (periodStart server anchor m)) = none := by
        rw [← hid, ← hloaded.periodStart_eq]
        exact hunpaid _ (List.mem_append_right _ (List.mem_singleton_self _))
      have hfresh : n = m := by
        have horder := h.order
        by_contra hne
        obtain ⟨entry, hentry, -⟩ := (h.charged m).mpr ⟨hlater, by omega⟩
        rw [hunpaid] at hentry
        cases hentry
      subst hfresh
      have hcharged := h.charge hlater hfixed.quantum hreached
        (by rw [Settlement.charge, hid, hloaded.periodStart_eq])
        (by rw [Settlement.charge, hsnapshot])
        (by rw [Settlement.charge, hloaded.periodStart_eq, hloaded.periodEnd_eq]) hunpaid hadjust
      exact ⟨⟨_, _, hcharged⟩, safe_finish hfixed.quantum hcharged rfl hcopy hloaded.server_eq
        hloaded.periodEnd_eq⟩
  · intro facts hloaded _ cap hcap
    obtain ⟨hsnapshot, -⟩ := loaded_spec hfixed h hcopy hloaded
    rw [hsnapshot, hfixed.uncapped] at hcap
    cases hcap

end Period

/-! ### Runs -/

section Runs

variable {start rows : BillingRows} {server copy : CloudServer} {snapshot : ServerPriceSnapshot}
  {hold : Hold} {anchor : ℤ} {m n : ℕ}

/-- The loop over the due periods, by induction on how many remain. -/
theorem safe_settlePeriods (hfixed : Fixed start server snapshot) (remaining : ℕ) :
    ∀ (k : ℕ) {n : ℕ} {rows : BillingRows} {copy : CloudServer},
      Progress start server snapshot.sellingMinor anchor (m + k) n rows →
      Copy server anchor (m + k) copy → (remaining = 0 → n = m + k) →
      (∀ j < remaining, periodStart server anchor (m + k + j) ≤ rows.clock) →
      PeriodSafe start server snapshot.sellingMinor anchor
        (fun _ after ↦ Progress start server snapshot.sellingMinor anchor (m + k + remaining)
          (m + k + remaining) after ∧ after.clock = rows.clock)
        (settlePeriods settlePeriod (periodStart server anchor m) server.quantumSeconds k remaining
          copy) rows := by
  induction remaining with
  | zero =>
    intro k n rows copy h _ hdone _
    obtain rfl := hdone rfl
    exact ⟨h, rfl⟩
  | succ remaining ih =>
    intro k n rows copy h hcopy _ hreached
    refine safe_returns_lift fun first hfirst ↦ safe_returns_lift fun last hlast ↦ ?_
    have hfirst : first = periodStart server anchor (m + k) := by
      rw [addSeconds_eq_ok hfirst, periodStart_add]
    have hlast : last = periodStart server anchor (m + k + 1) := by
      rw [addSeconds_eq_ok hlast, hfirst, periodStart_add server anchor (m + k) 1]
      simp
    rw [hfirst, hlast]
    refine safe_returns_bind (safe_settlePeriod hfixed h hcopy (hreached 0 (by omega))) ?_
    rintro advanced after ⟨hadvanced, hafter, hclock⟩
    have hrest := ih (k + 1) hafter hadvanced (fun _ ↦ rfl) (fun j hj ↦ by
      rw [hclock, ← Nat.add_assoc, Nat.add_assoc (m + k) 1 j, Nat.add_comm 1 j]
      exact hreached (j + 1) (by omega))
    rw [hclock] at hrest
    have hcount : m + (k + 1) + remaining = m + k + (remaining + 1) := by omega
    rw [hcount] at hrest
    exact hrest

/-- What a run of the job over the server establishes when it returns. -/
def Done (start : BillingRows) (server : CloudServer) (price anchor : ℤ) (rows : BillingRows) :
    Prop :=
  ∃ n, Progress start server price anchor n n rows ∧ rows.clock < periodStart server anchor n ∧
    periodStart server anchor n ≤ rows.clock + server.quantumSeconds * second

/-- The number of due periods brings the watermark just past the clock. -/
theorem due_spec {last now length : ℤ} (hlength : 0 < length) (hlast : last ≤ now) :
    now < last + length * ((now - last) / length + 1) ∧
      last + length * ((now - last) / length + 1) ≤ now + length ∧ 0 ≤ (now - last) / length := by
  have hdiv := Int.mul_ediv_add_emod (now - last) length
  have hmod := Int.emod_nonneg (now - last) (ne_of_gt hlength)
  have hlt := Int.emod_lt_of_pos (now - last) hlength
  have hdist : length * ((now - last) / length + 1) =
      length * ((now - last) / length) + length := by ring
  refine ⟨by omega, by omega, Int.ediv_nonneg (by omega) (le_of_lt hlength)⟩

theorem safe_accrueServer (hfixed : Fixed start server snapshot)
    (hhourly : server.isPrepaidMonthly = false ∧ server.isPrepaidHourlyIrt = false)
    (h : Progress start server snapshot.sellingMinor anchor m n rows)
    (hcopy : Copy server anchor m copy) : PeriodSafe start server snapshot.sellingMinor anchor
      (fun _ after ↦ Done start server snapshot.sellingMinor anchor after)
      (accrueServer settlePeriod copy rows.clock) rows := by
  have hlength : 0 < server.quantumSeconds * second := by
    have hquantum := hfixed.quantum
    simp only [second]
    omega
  have hlast : copy.lastAccruedAt.getD anchor = periodStart server anchor m := by
    rw [hcopy.watermark]
    split
    · rename_i hzero
      rw [hzero, periodStart_zero]
      rfl
    · rfl
  unfold accrueServer
  rw [CloudServer.isPrepaidMonthly, CloudServer.isPrepaidHourlyIrt, hcopy.model_eq,
    ← CloudServer.isPrepaidMonthly, ← CloudServer.isPrepaidHourlyIrt, hhourly.1, hhourly.2,
    hcopy.anchor_eq]
  simp only [Bool.or_false, Bool.false_eq_true, if_false]
  rw [hlast]
  refine safe_returns_lift fun _ _ ↦ ?_
  by_cases hahead : rows.clock < periodStart server anchor m
  · rw [if_pos hahead]
    have horder := h.order
    have hdone : n = m := by
      by_contra hne
      have hstarted := h.started m (by omega)
      omega
    subst hdone
    cases n with
    | zero =>
      have hactivated := h.activated
      rw [periodStart_zero] at hahead
      omega
    | succ k =>
      have hstarted := h.started k (Nat.lt_add_one k)
      refine ⟨k + 1, h, hahead, ?_⟩
      rw [periodStart_add server anchor k 1]
      simp only [Nat.cast_one, mul_one]
      omega
  · rw [if_neg hahead]
    refine safe_returns_lift fun _ _ ↦ ?_
    rw [hcopy.quantum_eq]
    obtain ⟨hpast, hnear, hnonneg⟩ := due_spec hlength (not_lt.mp hahead)
    have hgrid (k : ℕ) : periodStart server anchor (m + k) =
        periodStart server anchor m + server.quantumSeconds * second * k := by
      rw [periodStart_add]
      ring
    obtain ⟨due, hdue⟩ := Int.eq_ofNat_of_zero_le hnonneg
    have hcount : ((rows.clock - periodStart server anchor m) /
        (server.quantumSeconds * second) + 1).toNat = due + 1 := by
      rw [hdue]
      rfl
    rw [hdue] at hpast hnear
    rw [hcount]
    have hloop := safe_settlePeriods hfixed (due + 1) 0 h hcopy (fun hzero ↦ by omega)
      (fun j hj ↦ by
        have hle : server.quantumSeconds * second * j ≤ server.quantumSeconds * second * due :=
          Int.mul_le_mul_of_nonneg_left (by omega) (le_of_lt hlength)
        have hdist : server.quantumSeconds * second * ((due : ℤ) + 1) =
          server.quantumSeconds * second * due + server.quantumSeconds * second := by ring
        rw [Nat.add_zero, hgrid]
        omega)
    refine hloop.mono ?_
    rintro (_ | _) after hafter
    · trivial
    · obtain ⟨hprogress, hclock⟩ := hafter
      refine ⟨_, hprogress, ?_, ?_⟩
      · rw [Nat.add_zero, hgrid, hclock]
        push_cast
        exact hpast
      · rw [Nat.add_zero, hgrid, hclock]
        push_cast
        exact hnear

/-- A run of the job, from any state that a run may have stopped in. -/
theorem safe_accrue (hfixed : Fixed start server snapshot)
    (hhourly : server.isPrepaidMonthly = false ∧ server.isPrepaidHourlyIrt = false)
    (h : OnTheWay start server snapshot.sellingMinor anchor rows) :
    PeriodSafe start server snapshot.sellingMinor anchor
      (fun _ after ↦ Done start server snapshot.sellingMinor anchor after) (accrue server.id)
      rows := by
  obtain ⟨m, n, hway⟩ := h
  refine Solo.safe_perform fun _ _ chance ↦ ?_
  have hticked := hway.tick chance.tick
  refine ⟨⟨m, n, hticked⟩, fun now hnow ↦ ?_⟩
  obtain rfl := Except.ok.inj hnow
  refine Solo.safe_perform fun _ _ _ ↦ ⟨⟨m, n, hticked⟩, fun found hfound ↦ ?_⟩
  obtain rfl := Except.ok.inj hfound
  obtain ⟨row, hrow, hcopy⟩ := hticked.row
  have hread : (BillingCall.now.handle chance rows).2.server server.id = some row := hrow
  rw [hread]
  exact safe_returns_bind (safe_accrueServer hfixed hhourly hticked hcopy)
    fun _ after hafter ↦ hafter

end Runs

/-! ### The tiling -/

section Tiling

variable {start rows : BillingRows} {server : CloudServer} {snapshot : ServerPriceSnapshot}
  {hold : Hold} {price anchor : ℤ} {m n : ℕ}

/-- The creation hold is captured once the first period is debited. -/
theorem Progress.holdCaptured_iff (h : Progress start server price anchor m n rows) :
    HoldCaptured server rows.books ↔ 1 ≤ n := by
  obtain ⟨own, hown, -, hstatus⟩ := h.hold
  have hwallet : rows.books.wallet.id = start.books.wallet.id := by rw [h.wallet]
  rw [HoldCaptured, hwallet]
  constructor
  · rintro ⟨hold, hfound, hcaptured⟩
    obtain rfl := Option.some.inj (hown.symm.trans hfound)
    by_contra hzero
    rw [if_pos (by omega), hcaptured] at hstatus
    cases hstatus
  · intro hone
    rw [if_neg (by omega)] at hstatus
    exact ⟨own, hown, hstatus⟩

theorem Progress.tiles (h : Progress start server price anchor m n rows) :
    Tiles server anchor price start rows n := by
  have hcaptured := h.holdCaptured_iff
  refine ⟨fun k ↦ ?_, ?_, fun hentry ↦ hcaptured.mpr (h.captured hentry), ?_⟩
  · rw [Debited, hcaptured, h.charged k]
    omega
  · rw [h.wallet]
  · rintro ⟨-, hcharged⟩
    have hone := (h.charged 0).mp hcharged
    omega

theorem Done.paidThrough (h : Done start server price anchor rows) :
    ∃ n, Tiles server anchor price start rows n ∧ PaidThrough server anchor rows n := by
  obtain ⟨n, hprogress, hreaches, hahead⟩ := h
  refine ⟨n, hprogress.tiles, ?_, hreaches, hahead⟩
  obtain ⟨row, hrow, hcopy⟩ := hprogress.row
  refine ⟨row, hrow, ?_⟩
  rw [hcopy.watermark]
  by_cases hzero : n = 0
  · -- no period is paid only before the activation
    have hactivated := hprogress.activated
    rw [hzero, periodStart_zero] at hreaches
    omega
  · rw [if_neg hzero]

/-- At the activation nothing is debited. -/
theorem Activated.progress (h : Activated start server snapshot hold anchor) :
    Progress start server snapshot.sellingMinor anchor 0 0 start := by
  refine ⟨⟨le_refl _, Nat.zero_le _⟩, ⟨server, h.server_eq, rfl, rfl, rfl, rfl, rfl, h.anchor_eq,
    h.unbilled⟩, rfl, ?_, ⟨hold, h.hold_key, h.amount, h.created⟩, h.hold_ids, fun k ↦ ?_,
    fun hentry ↦ ?_, fun k hk ↦ by omega, h.clock⟩
  · simp
  · constructor
    · rintro ⟨entry, hentry, -⟩
      rw [periodStart, h.uncharged k] at hentry
      cases hentry
    · rintro ⟨hone, hlt⟩
      omega
  · rw [captureKey, h.uncaptured] at hentry
    cases hentry

/-- Over all runs of the job from the activation on, each of which may stop after any write, the
wallet is debited exactly once for each of the first periods and for no other, the first either
through the creation hold or under its charge key, and a run that returns leaves the server paid
through the period of the clock. -/
theorem tiles_of_activated (h : Activated start server snapshot hold anchor)
    (events : List (SoloEvent Unit BillingCall.Chance)) :
    Throughout (accrualStep server.id)
      (fun solo ↦ (∃ n, Tiles server anchor snapshot.sellingMinor start solo.shared n) ∧
        (solo.current = some (.done (.ok ())) →
          ∃ n, Tiles server anchor snapshot.sellingMinor start solo.shared n ∧
            PaidThrough server anchor solo.shared n))
      ⟨start, none⟩ events := by
  have hfixed : Fixed start server snapshot := ⟨h.quantum, h.key, h.snapshot_eq, h.uncapped⟩
  have hsound := Solo.throughout_sound
    (fun (_ : Unit) rows hrows ↦ safe_accrue hfixed h.hourly hrows) events start
    ⟨0, 0, h.progress⟩ (Solo.along_allowed_true events _)
  refine hsound.mono fun solo hsolo ↦ ?_
  obtain ⟨⟨m, n, hprogress⟩, hreturned⟩ := hsolo
  exact ⟨⟨n, hprogress.tiles⟩, fun hdone ↦ (hreturned () hdone).paidThrough⟩

end Tiling

namespace AccrualRuns

def serverId : Uuid :=
  ⟨"00000000-0000-4000-8000-000000000011", .refl true⟩

/-- 2025-01-01 00:00 UTC. -/
def anchor : ℤ :=
  1735689600 * second

def server : CloudServer where
  id := serverId
  userId := HoldRuns.books.wallet.userId
  providerKey := "hetzner"
  state := .running
  providerServerId := some "77"
  idempotencyKey := some "order"
  billingStartedAt := some anchor

def snapshot : ServerPriceSnapshot where
  serverId := serverId
  offer := { costMinor := 90, currency := "EUR" }
  sellingMinor := 100
  rule := { provider := "hetzner", plan := "cx11", location := "fsn1" }
  sellingCurrency := "EUR"

def hold : Hold where
  id := HoldRuns.holdId
  walletId := HoldRuns.books.wallet.id
  amount := 100
  currency := "EUR"
  idempotencyKey := createHoldKey "order"

/-- The rows at the activation. -/
def start : BillingRows where
  books := { HoldRuns.books with holds := [hold] }
  servers := [server]
  snapshots := [snapshot]
  clock := anchor

def chance (tick : ℕ) : BillingCall.Chance :=
  ⟨tick, HoldRuns.holdId⟩

/-- A run stops before the posting of the capture; half an hour into the second period another run
returns. -/
def resumed : List (SoloEvent Unit BillingCall.Chance) :=
  [.start (), .advance (chance 0)] ++ List.replicate 8 (.advance (chance 0)) ++
    [.start (), .advance (chance (5400 * 1000000))] ++ List.replicate 22 (.advance (chance 0))

end AccrualRuns

/-- Nothing is charged in an empty ledger. -/
theorem activated_start :
    Activated AccrualRuns.start AccrualRuns.server AccrualRuns.snapshot AccrualRuns.hold
      AccrualRuns.anchor where
  server_eq := by decide
  hourly := by decide
  anchor_eq := rfl
  unbilled := rfl
  quantum := by decide
  key := by decide
  snapshot_eq := by decide
  uncapped := rfl
  hold_key := by decide
  hold_ids := by decide
  created := rfl
  amount := rfl
  uncaptured := rfl
  uncharged := fun _ ↦ rfl
  clock := le_refl _

theorem tiles_of_activated_resumed :
    ((run (accrualStep AccrualRuns.server.id) ⟨AccrualRuns.start, none⟩
      AccrualRuns.resumed).shared.books.wallet.balance = 800) ∧
    Throughout (accrualStep AccrualRuns.server.id)
      (fun solo ↦ (∃ n, Tiles AccrualRuns.server AccrualRuns.anchor 100 AccrualRuns.start
          solo.shared n) ∧
        (solo.current = some (.done (.ok ())) →
          ∃ n, Tiles AccrualRuns.server AccrualRuns.anchor 100 AccrualRuns.start solo.shared n ∧
            PaidThrough AccrualRuns.server AccrualRuns.anchor solo.shared n))
      ⟨AccrualRuns.start, none⟩ AccrualRuns.resumed :=
  ⟨by decide +kernel, tiles_of_activated activated_start AccrualRuns.resumed⟩

end CloudPlatform.Billing
