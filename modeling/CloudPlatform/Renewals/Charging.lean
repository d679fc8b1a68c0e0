import CloudPlatform.Renewals.Checker
import CloudPlatform.Wallets.HoldLedger
import CloudPlatform.Wallets.HoldServiceAlone

/-!
# The charge of one period

`_charge` is executed for one period again and again, each execution stopped after any of its repository
calls, until one returns true. The debit and its ledger entry are two transactions, and an execution
that finds the hold CAPTURED posts nothing, so the ledger has the charge in every run in which no
execution comes upon a captured hold without its entry (`chargedOnce_of_posted`).
-/

namespace CloudPlatform.Renewals

open Compute (CloudServer)
open Transition
open Wallets (Books Captured Hold HoldCall HoldProgram Kept Unused captureEntry debit postEntry)
open Wallets.HoldService (captureKey)

/-- The wallet was debited once by the held amount, and the ledger has exactly one entry under the
capture key, the charge of this amount. -/
def ChargedOnce (start : Books) (key : String) (books : Books) : Prop :=
  ∃ hold entry, books.holdByKey start.wallet.id key = some hold ∧ hold.status = .captured ∧
    books.wallet.balance = start.wallet.balance - hold.amount ∧
    books.ledger.filter (·.idempotencyKey = captureKey key) = [entry] ∧
    entry.entryType = .charge ∧ entry.amount = hold.amount

/-- The call does not come upon a captured hold of the key without its entry. -/
def ChargePosted (key : String) (rows : RenewalRows) : RenewalCall → Prop
  | .hold (.getByIdempotency walletId other) => other = key →
    (rows.books.holdByKey walletId key).any (·.status = .captured) →
      (rows.books.entry (captureKey key)).isSome
  | _ => True

instance (key : String) (rows : RenewalRows) : DecidablePred (ChargePosted key rows)
  | .hold (.getByIdempotency walletId other) =>
    inferInstanceAs (Decidable (other = key →
      (rows.books.holdByKey walletId key).any (·.status = .captured) →
        (rows.books.entry (captureKey key)).isSome))
  | .hold (.create ..) => .isTrue trivial
  | .hold (.get _) => .isTrue trivial
  | .hold (.release _) => .isTrue trivial
  | .hold (.capture _) => .isTrue trivial
  | .hold (.post _) => .isTrue trivial
  | .now => .isTrue trivial
  | .listActive => .isTrue trivial
  | .lockForUpdate _ => .isTrue trivial
  | .upsert _ => .isTrue trivial
  | .setAutoRenew .. => .isTrue trivial
  | .server _ => .isTrue trivial
  | .wallet _ => .isTrue trivial

/-- One event of the executions for a period: an execution starts, which stops the one before, or makes
its next call. -/
abbrev chargeStep (server : CloudServer) (period : ℤ) :
    Solo Raised RenewalCall RenewalCall.Out RenewalRows Bool →
      SoloEvent RenewalRecord HoldCall.Chance →
      Solo Raised RenewalCall RenewalCall.Out RenewalRows Bool :=
  Solo.step RenewalCall.handle fun record ↦ charge record server period

/-! ### The books of the executions -/

/-- The rows of a wallet whose hold under the key is `own`, with at most one entry under the capture key,
which is a charge. -/
structure Charging (start : Books) (key : String) (own : Option Hold) (books : Books) : Prop
    extends Kept start key own books where
  entries : books.ledger.filter (·.idempotencyKey = captureKey key) =
    (books.entry (captureKey key)).toList
  kind : ∀ entry, books.entry (captureKey key) = some entry → entry.entryType = .charge

/-- The invariant of the rows. -/
def Executed (start : Books) (key : String) (rows : RenewalRows) : Prop :=
  ∃ own, Charging start key own rows.books

section Rows

variable {start books : Books} {key : String} {own : Option Hold}

theorem Charging.wallet_id (h : Charging start key own books) : books.wallet.id = start.wallet.id := by
  rw [h.wallet]

/-- The entry makes the charge complete. -/
theorem Charging.chargedOnce (hunused : Unused start key) (h : Charging start key own books)
    (hposted : (books.entry (captureKey key)).isSome) : ChargedOnce start key books := by
  obtain ⟨entry, hentry⟩ := Option.isSome_iff_exists.mp hposted
  obtain ⟨hold, rfl, hcaptured, hamount⟩ := h.charge entry hentry
  refine ⟨hold, entry, h.holdByKey hunused, hcaptured, ?_, ?_, h.kind entry hentry, hamount⟩
  · rw [h.wallet]
    simp [debit, hcaptured]
  · rw [h.entries, hentry, Option.toList_some]

/-- The ledger is the same. -/
theorem Charging.withKept {after : Books} {other : Option Hold} (h : Charging start key own books)
    (hkept : Kept start key other after) (hledger : after.ledger = books.ledger) :
    Charging start key other after where
  toKept := hkept
  entries := by
    rw [Books.entry, hledger]
    exact h.entries
  kind entry hentry := by
    rw [Books.entry, hledger] at hentry
    exact h.kind entry hentry

/-- The hold as an execution leaves it after its capture. -/
theorem Charging.captured {hold : Hold} {mid : Books} (hunused : Unused start key)
    (h : Charging start key (some hold) books) (hcaptured : Captured books hold mid) :
    ∃ last, last.status = .captured ∧ last.amount = hold.amount ∧ Charging start key (some last) mid := by
  cases hcaptured with
  | already hstatus => exact ⟨hold, hstatus, rfl, h⟩
  | debited now hstatus hcovered =>
    let last : Hold := { hold with status := .captured, capturedAt := some now }
    have hbalance : books.wallet.balance - hold.amount = books.wallet.balance - debit (some last) := by
      simp [last, debit]
    refine ⟨last, rfl, rfl, ?_⟩
    exact h.withKept (h.toKept.close hunused last _ hstatus rfl rfl rfl rfl hbalance).1 rfl

/-- The posting of the charge. -/
theorem Charging.post {hold : Hold} {walletId : Uuid} (h : Charging start key (some hold) books)
    (hstatus : hold.status = .captured) {resolved : Hold} (hamount : hold.amount = resolved.amount) :
    Charging start key (some hold) (postEntry books (captureEntry walletId resolved key)).1 := by
  let call := captureEntry walletId resolved key
  have hkey : call.idempotencyKey = captureKey key := rfl
  have hkept : Kept start key (some hold) (postEntry books call).1 :=
    (h.toKept.post (fun _ ↦ ⟨hold, rfl, hstatus, hamount.symm⟩) fun hrelease ↦
      absurd hrelease (Wallets.HoldService.captureKey_ne_releaseKey key key)).1
  rcases Wallets.postEntry_cases books call with ⟨raised, hraised, -⟩ | ⟨hnone, referenceId, -, hposted⟩
  · rw [hraised]
    exact h
  · rw [hposted] at hkept ⊢
    rw [hkey] at hnone
    let after : Books := { books with ledger := books.ledger ++ [call.row referenceId] }
    have hledger : after.ledger = books.ledger ++ [call.row referenceId] := rfl
    have hentry := Books.entry_of_ledger hledger (captureKey key)
    have hrow : (call.row referenceId).idempotencyKey = captureKey key := rfl
    rw [hnone, Option.none_or, if_pos hrow] at hentry
    have hentries := h.entries
    rw [hnone, Option.toList_none] at hentries
    refine ⟨hkept, ?_, fun entry hfound ↦ ?_⟩
    · rw [List.filter_append, hentries, hentry, List.nil_append, List.filter_singleton,
        decide_eq_true hrow]
      rfl
    · rw [hentry] at hfound
      obtain rfl := Option.some.inj hfound
      rfl

end Rows

/-! ### One execution -/

section Executions

variable {start : Books} {key : String} {rows : RenewalRows} {α β : Type}

/-- A program of an execution that no one interrupts, in a run whose reads find what is posted. -/
abbrev ChargeSafe (start : Books) (key : String) (P : α → RenewalRows → Prop)
    (p : RenewalProgram α) (rows : RenewalRows) : Prop :=
  Solo.Safe RenewalCall.handle (Executed start key) (fun rows request ↦ ChargePosted key rows request)
    P p rows

/-- A method of the hold service sees and changes the books only. -/
theorem chargeSafe_onHolds {p : HoldProgram α} {R : α → Books → Prop}
    (h : Solo.Safe HoldCall.handle (fun books ↦ Executed start key { rows with books := books })
      (fun books request ↦ ChargePosted key { rows with books := books } (.hold request)) R p
      rows.books) :
    ChargeSafe start key (fun value after ↦ ∃ books, after = { rows with books := books } ∧
      R value books) (onHolds p) rows := by
  refine Solo.safe_lift (fun books ↦ { rows with books := books }) ?_ p rows.books h
  intro request chance books
  refine ⟨chance, ?_, rfl⟩
  change Except.map (fun reply ↦ reply) (request.handle chance books).1 = _
  cases (request.handle chance books).1 <;> rfl

/-- The capture of the hold ends with the charge in the ledger. -/
theorem chargeSafe_capture {hold : Hold} (hunused : Unused start key)
    (h : Charging start key (some hold) rows.books) :
    ChargeSafe start key (fun _ after ↦ ChargedOnce start key after.books)
      (onHolds (Wallets.HoldService.captureHold start.wallet.id hold.id key)) rows := by
  refine (chargeSafe_onHolds (Wallets.alone_captureHold h.toKept.hold_own ?_ ?_)).mono ?_
  · intro _ _ mid hcaptured
    obtain ⟨last, -, -, hlast⟩ := h.captured hunused hcaptured
    exact ⟨some last, hlast⟩
  · intro mid hcaptured _
    obtain ⟨last, hstatus, hamount, hlast⟩ := h.captured hunused hcaptured
    exact ⟨some last, hlast.post hstatus hamount⟩
  · intro outcome after hreturned
    cases outcome with
    | error raised => trivial
    | ok value =>
      obtain ⟨books, rfl, -, mid, hcaptured, -, rfl⟩ := hreturned
      obtain ⟨last, hstatus, hamount, hlast⟩ := h.captured hunused hcaptured
      refine (hlast.post hstatus hamount).chargedOnce hunused ?_
      exact Wallets.isSome_entry_postEntry (optionalUuid_text hold.id) hlast.wallet_id

/-- The hold of the period, if there is one, is the hold of the key. -/
theorem chargeSafe_holdOfPeriod {own : Option Hold} (hunused : Unused start key)
    (h : Charging start key own rows.books) (record : RenewalRecord) :
    ChargeSafe start key (fun found after ↦ ∀ hold ∈ found, Charging start key (some hold) after.books)
      (holdOfPeriod record start.wallet.id key own) rows := by
  unfold holdOfPeriod
  split
  · rename_i hold hhold
    rw [(Option.filter_eq_some_iff.mp hhold).1] at h
    refine safe_pure fun found hfound ↦ ?_
    obtain rfl := Option.some.inj hfound
    exact h
  · refine safe_tryCatch (safe_perform fun s hrely _ _ chance ↦ ?_)
    obtain rfl := hrely rfl
    have hreply : RenewalCall.handle (.hold (.create start.wallet.id record.customerPriceMinor
        record.currency key)) chance rows =
      ((transaction rows.books (Wallets.createHold rows.books start.wallet.id record.customerPriceMinor
        record.currency key chance.newId)).1, { rows with books :=
        (transaction rows.books (Wallets.createHold rows.books start.wallet.id
          record.customerPriceMinor record.currency key chance.newId)).2 }) := rfl
    rw [hreply]
    cases hdone : Wallets.createHold rows.books start.wallet.id record.customerPriceMinor
        record.currency key chance.newId with
    | ok result =>
      obtain ⟨after, hold⟩ := result
      have hledger : after.ledger = rows.books.ledger := by
        rcases Wallets.createHold_eq_ok hdone with ⟨rfl, -⟩ | ⟨-, -, -, -, -, -, rfl⟩
        · rfl
        · rfl
      have hcharging := h.withKept (h.toKept.create hunused hdone).1 hledger
      refine ⟨⟨⟨some hold, hcharging⟩, fun other hother hzero ↦ absurd hzero hother⟩, ?_⟩
      intro found hfound
      obtain rfl := Option.some.inj hfound
      exact hcharging
    | error raised =>
      refine ⟨⟨⟨own, h⟩, fun other hother hzero ↦ absurd hzero hother⟩, ?_⟩
      show Solo.Safe _ _ _ _ (if raised.kind = .insufficientHoldBalance then pure none
        else if raised.kind = .integrityError then
          perform (.hold (.getByIdempotency start.wallet.id key)) else throw raised) rows
      by_cases hinsufficient : raised.kind = .insufficientHoldBalance
      · rw [if_pos hinsufficient]
        exact safe_pure fun hold hhold ↦ nomatch hhold
      · rw [if_neg hinsufficient]
        by_cases hintegrity : raised.kind = .integrityError
        · rw [if_pos hintegrity]
          intro s hrely hinv _ chance
          obtain rfl := hrely rfl
          refine ⟨⟨hinv, fun other hother hzero ↦ absurd hzero hother⟩, fun hold hhold ↦ ?_⟩
          rw [h.toKept.holdByKey hunused] at hhold
          rw [Option.mem_def.mp hhold] at h
          exact h
        · rw [if_neg hintegrity]
          trivial

/-- An execution that returns true leaves the period charged once. -/
theorem chargeSafe_charge (server : CloudServer) (period : ℤ)
    (hunused : Unused start (renewalChargeKey server.id period)) (record : RenewalRecord)
    (h : Executed start (renewalChargeKey server.id period) rows) :
    ChargeSafe start (renewalChargeKey server.id period) (fun charged after ↦ charged = true →
        ChargedOnce start (renewalChargeKey server.id period) after.books)
      (charge record server period) rows := by
  obtain ⟨own, hown⟩ := h
  refine Solo.safe_perform fun hinv _ chance ↦ ⟨hinv, ?_⟩
  have hsame : (RenewalCall.handle (.wallet server.userId) chance rows).2 = rows := rfl
  rw [hsame]
  intro found hfound
  cases found with
  | none => exact safe_pure fun h ↦ nomatch h
  | some wallet =>
    have hwallet : wallet.id = start.wallet.id := by
      have hreply : (if rows.books.wallet.userId = server.userId then some rows.books.wallet else none) =
        some wallet := Except.ok.inj hfound
      split at hreply
      · rw [← Option.some.inj hreply]
        exact hown.wallet_id
      · cases hreply
    dsimp only
    rw [hwallet]
    refine Solo.safe_perform fun hinv hposted chance ↦ ⟨hinv, ?_⟩
    have hread : (RenewalCall.handle (.hold (.getByIdempotency start.wallet.id
      (renewalChargeKey server.id period))) chance rows).2 = rows := rfl
    rw [hread]
    rintro _ ⟨⟩
    have hfound := hown.toKept.holdByKey hunused
    by_cases hcaptured : (rows.books.holdByKey start.wallet.id
        (renewalChargeKey server.id period)).any (·.status = .captured) = true
    · simp only [if_pos hcaptured]
      exact safe_pure fun _ ↦ hown.chargedOnce hunused (hposted rfl hcaptured)
    · simp only [if_neg hcaptured]
      rw [hfound]
      refine safe_returns_bind (chargeSafe_holdOfPeriod hunused hown record) fun found after hheld ↦ ?_
      cases found with
      | none => exact safe_pure fun h ↦ nomatch h
      | some hold =>
        refine safe_returns_tryCatch ?_ fun raised s ↦ safe_pure fun h ↦ nomatch h
        refine safe_returns_bind (chargeSafe_capture hunused (hheld hold rfl)) fun _ last hcharged ↦ ?_
        exact safe_pure fun _ ↦ hcharged

end Executions

/-- In every run of executions for a period that has not been charged, each stopped after any of its
calls, whenever an execution has returned true the wallet was debited once and the ledger has exactly
one charge, if no execution comes upon a captured hold without its entry. -/
theorem chargedOnce_of_posted (server : CloudServer) (period : ℤ) (rows : RenewalRows)
    (hunused : Unused rows.books (renewalChargeKey server.id period))
    (events : List (SoloEvent RenewalRecord HoldCall.Chance))
    (hposted : Along (chargeStep server period)
      (Solo.Allowed fun rows request ↦ ChargePosted (renewalChargeKey server.id period) rows request)
      ⟨rows, none⟩ events) :
    Throughout (chargeStep server period)
      (fun solo ↦ solo.current = some (.done (.ok true)) →
        ChargedOnce rows.books (renewalChargeKey server.id period) solo.shared.books)
      ⟨rows, none⟩ events := by
  have hstart : Executed rows.books (renewalChargeKey server.id period) rows := by
    have hentry : rows.books.entry (captureKey (renewalChargeKey server.id period)) = none :=
      hunused.charge
    refine ⟨none, ⟨by simp, by simp [debit], fun _ h ↦ (nomatch h), fun entry h ↦ ?_, fun entry h ↦ ?_⟩,
      ?_, fun entry h ↦ ?_⟩
    · rw [hentry] at h
      cases h
    · rw [hunused.release] at h
      cases h
    · rw [hentry, Option.toList_none, List.filter_eq_nil_iff]
      exact fun entry hmem ↦ by simpa using Books.entry_eq_none.mp hentry entry hmem
    · rw [hentry] at h
      cases h
  refine (Solo.throughout_sound (fun record s hs ↦ chargeSafe_charge server period hunused record hs)
    events rows hstart hposted).mono fun solo hsolo hreturned ↦ hsolo.2 true hreturned rfl

namespace ChargeRuns

def account : Uuid :=
  ⟨"0d4c8b7a-0000-4000-8000-000000000001", .refl true⟩

def server : CloudServer where
  id := account
  userId := account
  providerKey := "hetzner"
  state := .running

def record : RenewalRecord where
  serverId := account
  purchasedAt := 0
  customerPriceMinor := 500
  currency := "EUR"
  price_pos := fiveHundred_pos
  currency_length := length_eur

/-- A wallet that covers the price, and nothing under the key of the period. -/
def rows : RenewalRows where
  books := { wallet := ⟨account, account, 1000, "EUR"⟩ }
  record := some record
  server := some server

def chance : HoldCall.Chance :=
  ⟨0, account⟩

/-- An execution is stopped at its capture, the next one runs to its end. -/
def resumed : List (SoloEvent RenewalRecord HoldCall.Chance) :=
  .start record :: List.replicate 4 (.advance chance) ++
    .start record :: List.replicate 5 (.advance chance)

/-- An execution is stopped between its capture and its posting, the next one runs to its end. -/
def crashed : List (SoloEvent RenewalRecord HoldCall.Chance) :=
  .start record :: List.replicate 5 (.advance chance) ++
    .start record :: List.replicate 2 (.advance chance)

end ChargeRuns

theorem unused_rows : Unused ChargeRuns.rows.books (renewalChargeKey ChargeRuns.server.id 0) :=
  ⟨rfl, rfl, rfl⟩

/-- Whether the program that was started last has returned true. -/
def returnedTrue (solo : Solo Raised RenewalCall RenewalCall.Out RenewalRows Bool) : Bool :=
  match solo.current with
  | some (.done (.ok true)) => true
  | _ => false

theorem current_of_returnedTrue {solo : Solo Raised RenewalCall RenewalCall.Out RenewalRows Bool}
    (h : returnedTrue solo = true) : solo.current = some (.done (.ok true)) := by
  unfold returnedTrue at h
  split at h
  · assumption
  · cases h

theorem chargedOnce_of_posted_resumed :
    returnedTrue (run (chargeStep ChargeRuns.server 0) ⟨ChargeRuns.rows, none⟩ ChargeRuns.resumed) ∧
    Throughout (chargeStep ChargeRuns.server 0)
      (fun solo ↦ solo.current = some (.done (.ok true)) →
        ChargedOnce ChargeRuns.rows.books (renewalChargeKey ChargeRuns.server.id 0) solo.shared.books)
      ⟨ChargeRuns.rows, none⟩ ChargeRuns.resumed := by
  refine ⟨by decide +kernel, ?_⟩
  exact chargedOnce_of_posted ChargeRuns.server 0 ChargeRuns.rows unused_rows ChargeRuns.resumed
    (by decide +kernel)

/-- An execution that comes upon the hold of one that was stopped between its capture and its posting
returns true, and the charge never reaches the ledger. -/
theorem not_chargedOnce_of_crashed :
    ¬ ∀ (server : CloudServer) (period : ℤ) (rows : RenewalRows),
      Unused rows.books (renewalChargeKey server.id period) →
      ∀ events : List (SoloEvent RenewalRecord HoldCall.Chance),
        Throughout (chargeStep server period)
          (fun solo ↦ solo.current = some (.done (.ok true)) →
            ChargedOnce rows.books (renewalChargeKey server.id period) solo.shared.books)
          ⟨rows, none⟩ events := by
  intro h
  have hrun := h ChargeRuns.server 0 ChargeRuns.rows unused_rows ChargeRuns.crashed
  rw [throughout_iff_forall_take] at hrun
  have hreturned : returnedTrue (run (chargeStep ChargeRuns.server 0) ⟨ChargeRuns.rows, none⟩
      (ChargeRuns.crashed.take 9)) := by decide +kernel
  obtain ⟨_, entry, -, -, -, hentries, -⟩ := hrun 9 (current_of_returnedTrue hreturned)
  have hempty : (run (chargeStep ChargeRuns.server 0) ⟨ChargeRuns.rows, none⟩
      (ChargeRuns.crashed.take 9)).shared.books.ledger = [] := by decide +kernel
  rw [hempty] at hentries
  cases hentries

end CloudPlatform.Renewals
