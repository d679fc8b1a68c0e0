import CloudPlatform.Billing.AccrualJob
import CloudPlatform.Wallets.HoldServiceAlone

/-!
# The parts of a settlement

The job runs under a lock, so each part of `settlePeriod` meets the rows as the last one left them.
The rules here say what each part reads and leaves, for any invariant that its writes keep; the
reading parts leave the rows as they are.
-/

namespace CloudPlatform.Billing

open Calendar (monthStart)
open Compute (CloudServer)
open Transition
open Wallets

/-- A program of the job is safe, and what it establishes when it returns. -/
abbrev JobSafe (inv : BillingRows → Prop) (allowed : BillingRows → BillingCall → Prop) {α : Type}
    (P : α → BillingRows → Prop) (program : AccrualProgram α) (rows : BillingRows) : Prop :=
  Solo.Safe BillingCall.handle inv allowed P program rows

namespace AccrualJob

section Rules

variable {inv : BillingRows → Prop} {allowed : BillingRows → BillingCall → Prop}
  {rows : BillingRows} {α β : Type} {P : α → BillingRows → Prop} {Q : β → BillingRows → Prop}

/-- A call that reads. -/
theorem jobSafe_read {request : BillingCall} {f : request.Out → AccrualProgram β}
    (hread : ∀ chance, (request.handle chance rows).2 = rows)
    (h : ∀ chance value, (request.handle chance rows).1 = .ok value →
      JobSafe inv allowed Q (f value) rows) :
    JobSafe inv allowed Q (perform request >>= f) rows := by
  refine Solo.safe_perform fun hinv _ chance ↦ ?_
  rw [hread chance]
  exact ⟨hinv, h chance⟩

/-- A method of the hold service sees and changes the books only. -/
theorem jobSafe_holds {p : HoldProgram α} {R : α → Books → Prop}
    (h : Solo.Safe HoldCall.handle (fun books ↦ inv { rows with books := books })
      (fun books request ↦ allowed { rows with books := books } (.hold request)) R p rows.books) :
    JobSafe inv allowed (fun value after ↦ ∃ books, after = { rows with books := books } ∧
      R value books) (holds p) rows := by
  refine Solo.safe_lift (fun books ↦ { rows with books := books }) ?_ p rows.books h
  intro request chance books
  refine ⟨⟨rows.clock, chance.newId⟩, ?_, rfl⟩
  change Except.map (fun reply ↦ reply) (request.handle ⟨rows.clock, chance.newId⟩ books).1 = _
  cases (request.handle ⟨rows.clock, chance.newId⟩ books).1 <;> rfl

/-- What `loadPeriod` returns. -/
structure Loaded (rows : BillingRows) (server : CloudServer) (periodStart periodEnd : ℤ)
    (facts : Settlement) : Prop where
  server_eq : facts.server = server
  periodStart_eq : facts.periodStart = periodStart
  periodEnd_eq : facts.periodEnd = periodEnd
  wallet_eq : facts.wallet = rows.books.wallet
  owner : rows.books.wallet.userId = server.userId
  snapshot_eq : rows.snapshot server.id = some facts.snapshot
  currency : rows.books.wallet.currency = facts.snapshot.sellingCurrency
  hold_eq : facts.hold = if facts.isFirstPeriod && truthy server.idempotencyKey then
    rows.books.holdByKey rows.books.wallet.id facts.holdKey else none

theorem jobSafe_loadPeriod (server : CloudServer) (periodStart periodEnd : ℤ) : JobSafe inv allowed
      (fun facts after ↦ after = rows ∧ Loaded rows server periodStart periodEnd facts)
      (loadPeriod server periodStart periodEnd) rows := by
  refine jobSafe_read (fun _ ↦ rfl) ?_
  rintro _ _ ⟨⟩
  split
  · trivial
  · rename_i wallet hwallet
    obtain ⟨hsome, howner⟩ := Option.filter_eq_some_iff.mp hwallet
    obtain rfl := Option.some.inj hsome
    refine jobSafe_read (fun _ ↦ rfl) ?_
    rintro _ _ ⟨⟩
    split
    · trivial
    · rename_i snapshot hsnapshot
      refine safe_returns_lift fun _ hcurrency ↦ safe_returns_lift fun exactCost _ ↦ ?_
      have hsame : rows.books.wallet.currency = snapshot.sellingCurrency := by
        simpa using rejectIf_eq_ok.mp hcurrency
      have howner : rows.books.wallet.userId = server.userId := by simpa using howner
      simp only
      split
      · rename_i hfirst
        refine jobSafe_read (fun _ ↦ rfl) ?_
        rintro _ _ ⟨⟩
        refine ⟨rfl, rfl, rfl, rfl, rfl, howner, hsnapshot, hsame, ?_⟩
        exact (if_pos hfirst).symm
      · rename_i hlater
        refine ⟨rfl, rfl, rfl, rfl, rfl, howner, hsnapshot, hsame, ?_⟩
        exact (if_neg hlater).symm

/-- Reading a ledger entry of the wallet. -/
theorem jobSafe_ledgerEntry {key : String} {f : Option LedgerEntry → AccrualProgram β}
    (h : JobSafe inv allowed Q (f (rows.books.entry key)) rows) :
    JobSafe inv allowed Q (perform (.ledgerEntry rows.books.wallet.id key) >>= f) rows := by
  refine jobSafe_read (fun _ ↦ rfl) fun chance value hvalue ↦ ?_
  change ledgerEntry rows.books rows.books.wallet.id key = .ok value at hvalue
  rw [ledgerEntry, if_pos rfl] at hvalue
  obtain ⟨-, hdone⟩ := rejectIf_bind_eq_ok.mp hvalue
  rw [← pure_eq_ok.mp hdone]
  exact h

variable {facts : Settlement} {R : CloudServer → BillingRows → Prop}

/-- Every key that `replayMatches` returns has an entry that agrees with the period, and every other
candidate has none. -/
theorem jobSafe_replayMatches (hwallet : facts.wallet = rows.books.wallet)
    (candidates : List String) : JobSafe inv allowed (fun keys after ↦ after = rows ∧
        (∀ key ∈ keys, key ∈ candidates ∧
          ∃ entry, rows.books.entry key = some entry ∧ facts.settledBy key entry) ∧
        ∀ key ∈ candidates, key ∉ keys → rows.books.entry key = none)
      (replayMatches facts candidates) rows := by
  induction candidates with
  | nil => exact ⟨rfl, by simp, by simp⟩
  | cons key rest ih =>
    unfold replayMatches
    rw [hwallet]
    refine jobSafe_ledgerEntry ?_
    split
    · rename_i hnone
      refine Safe.mono ?_ ih
      rintro (_ | keys) after h
      · trivial
      · obtain ⟨rfl, hkeys, hothers⟩ := h
        refine ⟨rfl, fun other hother ↦ ?_, fun other hother hmissing ↦ ?_⟩
        · exact ⟨List.mem_cons_of_mem _ (hkeys other hother).1, (hkeys other hother).2⟩
        · rcases List.mem_cons.mp hother with rfl | hrest
          · exact hnone
          · exact hothers other hrest hmissing
    · rename_i entry hentry
      refine safe_returns_lift fun _ hsettled ↦ ?_
      have hsettled : facts.settledBy key entry = true := by
        simpa using rejectIf_eq_ok.mp hsettled
      refine safe_returns_bind ih ?_
      rintro keys after ⟨rfl, hkeys, hothers⟩
      refine ⟨rfl, fun other hother ↦ ?_, fun other hother hmissing ↦ ?_⟩
      · rcases List.mem_cons.mp hother with rfl | hrest
        · exact ⟨List.mem_cons_self, entry, hentry, hsettled⟩
        · exact ⟨List.mem_cons_of_mem _ (hkeys other hrest).1, (hkeys other hrest).2⟩
      · rcases List.mem_cons.mp hother with rfl | hrest
        · exact absurd List.mem_cons_self hmissing
        · exact hothers other hrest fun h ↦ hmissing (List.mem_cons_of_mem _ h)

/-- The accrual record of a period is there, or is added. -/
theorem jobSafe_persist {period : AccrualPeriod}
    (hadd : inv { rows with accruals := rows.accruals ++ [period] }) :
    JobSafe inv allowed
      (fun _ after ↦ after = rows ∨
        after = { rows with accruals := rows.accruals ++ [period] })
      (persistAccrualRecord period) rows := by
  refine jobSafe_read (fun _ ↦ rfl) ?_
  rintro _ _ ⟨⟩
  split
  · exact safe_returns_lift fun _ _ ↦ Or.inl rfl
  · rename_i hnone
    refine safe_tryCatch fun s hrely hinv _ chance ↦ ?_
    obtain rfl := hrely rfl
    have hreply : BillingCall.handle (.addAccrual period) chance rows =
        (.ok period, { rows with accruals := rows.accruals ++ [period] }) := by
      have hnone : rows.accrual period.idempotencyKey = none := hnone
      simp [BillingCall.handle, transaction, Billing.addAccrual, hnone, rejectIf, bind,
        Except.bind, pure, Except.pure]
    rw [hreply]
    exact ⟨⟨hadd, fun other hother hzero ↦ absurd hzero hother⟩, Or.inr rfl⟩

/-- The rows after a copy of a server is saved. -/
structure Saved (rows : BillingRows) (copy : CloudServer) (after : BillingRows) : Prop where
  saves : ∃ row, rows.server copy.id = some row ∧
    after = rows.setServer (row.saved copy rows.clock)

/-- A save changes the row of the copy and nothing else. -/
theorem Saved.spec {copy : CloudServer} {after : BillingRows} (h : Saved rows copy after) :
    after = { rows with servers := after.servers } ∧ ∃ row, rows.server copy.id = some row ∧
      after.server copy.id = some (row.saved copy rows.clock) := by
  obtain ⟨row, hrow, rfl⟩ := h.saves
  refine ⟨rfl, row, hrow, ?_⟩
  have hid : row.id = copy.id := by simpa using List.find?_some hrow
  exact Rows.find?_replace_self (row.saved copy rows.clock) hrow hid

theorem jobSafe_saveServer {copy : CloudServer} {f : CloudServer → AccrualProgram β}
    (h : ∀ after, Saved rows copy after → inv after ∧ ∀ row : CloudServer,
      row.updatedAt = some rows.clock → JobSafe inv allowed Q (f row) after) :
    JobSafe inv allowed Q (perform (.saveServer copy) >>= f) rows := by
  refine Solo.safe_perform fun hinv _ chance ↦ ?_
  have hreply : BillingCall.handle (.saveServer copy) chance rows =
    transaction rows (saveServer rows copy) := rfl
  rw [hreply, saveServer]
  cases hrow : rows.server copy.id with
  | none => exact ⟨hinv, by rintro _ ⟨⟩⟩
  | some row =>
    obtain ⟨hafter, hnext⟩ := h _ ⟨row, hrow, rfl⟩
    refine ⟨hafter, ?_⟩
    rintro _ ⟨⟩
    exact hnext (row.saved copy rows.clock) rfl

/-- The watermark of a server moves. -/
theorem jobSafe_advance {server : CloudServer} {periodEnd : ℤ}
    (h : ∀ after, Saved rows (moved server periodEnd) after →
      inv after ∧ R { moved server periodEnd with updatedAt := some rows.clock } after) :
    JobSafe inv allowed R (advance server periodEnd) rows := by
  refine jobSafe_saveServer fun after hsaved ↦ ⟨(h after hsaved).1, fun row hversion ↦ ?_⟩
  rw [hversion]
  exact (h after hsaved).2

/-- The accruals once a period is recorded under its key: it was before, or it is added now. -/
def Records (rows : BillingRows) (facts : Settlement) (key : String)
    (accruals : List AccrualPeriod) : Prop :=
  accruals = rows.accruals ∨ ∃ period, (facts.record key).validated = .ok period ∧
    accruals = rows.accruals ++ [period]

/-- A paid period is recorded, and the watermark of its server moves. -/
theorem jobSafe_finish {key : String}
    (h : ∀ accruals, Records rows facts key accruals → inv { rows with accruals := accruals } ∧
      ∀ after, Saved { rows with accruals := accruals } (moved facts.server facts.periodEnd) after →
        inv after ∧
          R { moved facts.server facts.periodEnd with updatedAt := some rows.clock } after) :
    JobSafe inv allowed R (finish facts key) rows := by
  refine safe_returns_lift fun period hperiod ↦ ?_
  have hadded : Records rows facts key (rows.accruals ++ [period]) :=
    Or.inr ⟨period, hperiod, rfl⟩
  refine safe_returns_bind (jobSafe_persist (h _ hadded).1) ?_
  rintro _ _ (rfl | rfl)
  · exact jobSafe_advance (h _ (Or.inl rfl)).2
  · exact jobSafe_advance (h _ hadded).2

/-- The ledger entry of a capture is read. -/
theorem jobSafe_assertCaptureLedger {hold : Hold} (hwallet : facts.wallet.id = rows.books.wallet.id) :
     JobSafe inv allowed (fun _ after ↦ after = rows) (assertCaptureLedger facts hold) rows := by
  unfold assertCaptureLedger
  simp only
  rw [hwallet]
  refine jobSafe_ledgerEntry ?_
  split
  · trivial
  · cases hfacts : rejectIf _ _ _ with
    | error raised => trivial
    | ok _ => rfl

/-- The rows after the creation hold of a period is captured and its charge posted. -/
def afterCapture (rows : BillingRows) (facts : Settlement) (hold : Hold) (mid : Books) :
    BillingRows :=
  { rows with
    books := (postEntry mid (captureEntry facts.wallet.id hold facts.holdKey)).1 }

/-- A period that its creation hold pays. -/
theorem jobSafe_settleByCapture {hold : Hold} {unconfirmed : String}
    (hwallet : facts.wallet.id = rows.books.wallet.id) (hhold : rows.books.hold hold.id = some hold)
    (hcapture : hold.status = .created → allowed rows (.hold (.capture hold.id)) →
      ∀ mid, Captured rows.books hold mid → inv { rows with books := mid })
    (hpost : ∀ mid, Captured rows.books hold mid → inv { rows with books := mid } →
      inv (afterCapture rows facts hold mid))
    (hfinish : ∀ mid, Captured rows.books hold mid → inv (afterCapture rows facts hold mid) →
      JobSafe inv allowed R (finish facts (HoldService.captureKey facts.holdKey))
        (afterCapture rows facts hold mid)) :
    JobSafe inv allowed R (settleByCapture facts hold unconfirmed) rows := by
  refine safe_returns_bind (jobSafe_holds (alone_captureHold hhold hcapture hpost)) ?_
  rintro captured _ ⟨_, rfl, -, mid, hmid, hkept, rfl⟩
  refine safe_returns_lift fun _ _ ↦ ?_
  have hid : facts.wallet.id = (afterCapture rows facts hold mid).books.wallet.id := by
    rw [hwallet]
    have hpost : ∀ call, (postEntry mid call).1.wallet = mid.wallet := by
      intro call
      rcases postEntry_cases mid call with ⟨_, h, -⟩ | ⟨-, _, -, h⟩ <;> rw [h]
    rw [afterCapture, hpost]
    cases hmid <;> rfl
  refine safe_returns_bind (jobSafe_assertCaptureLedger hid) ?_
  rintro _ _ rfl
  exact hfinish mid hmid (hpost mid hmid hkept)

/-- A period that is to be paid now: by its creation hold, or by an adjustment of the wallet. -/
theorem jobSafe_settleFresh (hhold : ∀ hold, facts.hold = some hold → hold.status ≠ .released →
      hold.currency = facts.snapshot.sellingCurrency → hold.amount = facts.snapshot.sellingMinor →
      ∀ unconfirmed, JobSafe inv allowed R (settleByCapture facts hold unconfirmed) rows)
    (hcharge : facts.hold = none → allowed rows (.adjust facts.charge) →
      ∀ books wallet applied, adjust rows.books facts.charge = .ok (books, wallet, applied) →
        inv { rows with books := books } ∧
          JobSafe inv allowed R
            (finish facts (accrualChargeKey facts.server.id facts.periodStart))
            { rows with books := books }) : JobSafe inv allowed R (settleFresh facts) rows := by
  unfold settleFresh
  split
  · rename_i hold hsome
    refine safe_returns_lift fun _ hreleased ↦ safe_returns_lift fun _ hagrees ↦ ?_
    have hopen : hold.status ≠ .released := of_decide_eq_false (rejectIf_eq_ok.mp hreleased)
    have hsame := rejectIf_eq_ok.mp hagrees
    simp only [Bool.or_eq_false_iff, decide_eq_false_iff_not, not_not] at hsame
    exact hhold hold hsome hopen hsame.1 hsame.2 _
  · rename_i hnone
    refine Solo.safe_perform fun hinv hallowed chance ↦ ?_
    have hreply : BillingCall.handle (.adjust facts.charge) chance rows =
      transaction rows ((adjust rows.books facts.charge).map fun result ↦
        ({ rows with books := result.1 }, result.2)) := rfl
    rw [hreply]
    cases hadjust : adjust rows.books facts.charge with
    | error raised => exact ⟨hinv, by rintro _ ⟨⟩⟩
    | ok result =>
      obtain ⟨books, wallet, applied⟩ := result
      obtain ⟨hkept, hnext⟩ := hcharge hnone hallowed books wallet applied hadjust
      refine ⟨hkept, ?_⟩
      rintro _ ⟨⟩
      exact hnext

/-- No candidate key of a period is in the ledger. -/
def Unpaid (rows : BillingRows) (facts : Settlement) : Prop :=
  ∀ key ∈ facts.candidateKeys, rows.books.entry key = none

/-- A period is replayed when the ledger has its charge, and else paid if the cap allows. -/
theorem jobSafe_settlePeriod {server : CloudServer} {periodStart periodEnd : ℤ}
    (hreplay : ∀ facts, Loaded rows server periodStart periodEnd facts →
      ∀ key ∈ facts.candidateKeys, ∀ entry, rows.books.entry key = some entry →
        facts.settledBy key entry → JobSafe inv allowed R (finish facts key) rows)
    (huncapped : ∀ facts, Loaded rows server periodStart periodEnd facts → Unpaid rows facts →
      facts.snapshot.rule.monthlyCapMinor = none → JobSafe inv allowed R (settleFresh facts) rows)
    (hcapped : ∀ facts, Loaded rows server periodStart periodEnd facts → Unpaid rows facts →
      ∀ cap, facts.snapshot.rule.monthlyCapMinor = some cap → ∀ billed,
        monthTotal rows facts.wallet.id (monthStart periodStart) facts.snapshot.sellingCurrency
          (ruleKey facts.snapshot.rule) = .ok billed →
        JobSafe inv allowed R (if billed + facts.snapshot.sellingMinor > cap
          then settleCapped facts else settleFresh facts) rows) :
    JobSafe inv allowed R (settlePeriod server periodStart periodEnd) rows := by
  refine safe_returns_bind (jobSafe_loadPeriod server periodStart periodEnd) ?_
  rintro facts _ ⟨rfl, hloaded⟩
  refine safe_returns_bind (jobSafe_replayMatches hloaded.wallet_eq facts.candidateKeys) ?_
  rintro keys _ ⟨rfl, hkeys, hothers⟩
  refine safe_returns_lift fun _ _ ↦ ?_
  cases keys with
  | cons key rest =>
    obtain ⟨hcandidate, entry, hentry, hsettled⟩ := hkeys key List.mem_cons_self
    exact hreplay facts hloaded key hcandidate entry hentry hsettled
  | nil =>
    have hunpaid : Unpaid _ facts := fun key hkey ↦ hothers key hkey List.not_mem_nil
    dsimp only
    split
    · rename_i hcap
      exact huncapped facts hloaded hunpaid hcap
    · rename_i cap hcap
      exact jobSafe_read (fun _ ↦ rfl) fun _ billed hbilled ↦
        hcapped facts hloaded hunpaid cap hcap billed hbilled

end Rules

end AccrualJob

end CloudPlatform.Billing
