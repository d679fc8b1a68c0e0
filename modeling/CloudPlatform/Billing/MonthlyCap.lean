import Mathlib.Algebra.Order.BigOperators.Group.List
import CloudPlatform.Billing.Settlement
import CloudPlatform.Wallets.HoldLedger

/-!
# The monthly cap of a rule

All servers of a wallet that are billed under one margin rule share its monthly cap. The cap branch
adds up the accrual records of the month, but a period is charged in an earlier transaction than the
one that records it. As long as every charge of the month is recorded before the next one is made,
the charges stay within the cap (`within_of_timely`). A run that stops between the charge of a
server and its record leaves the next server a total that is too small (`not_within_of_crash`).
-/

namespace CloudPlatform.Billing

open AccrualJob
open Calendar (monthStart)
open Compute (CloudServer)
open Transition
open Wallets

section Month

variable (start : BillingRows) (rule : String) (month : ℤ)

/-- A server that is billed under the rule. -/
def Under (server : CloudServer) : Prop :=
  server ∈ start.servers ∧
    ∃ snapshot, start.snapshot server.id = some snapshot ∧ ruleKey snapshot.rule = rule

/-- A server under the rule whose first period, which its creation hold pays, is of the month. -/
def StartsIn (server : CloudServer) : Prop :=
  Under start rule server ∧ truthy server.idempotencyKey ∧
    ∃ anchor, server.billingStartedAt = some anchor ∧ monthStart anchor = month

/-- A ledger entry with this key and this description pays for a period of the month. -/
def ForMonth (key description : String) : Prop :=
  (∃ server, StartsIn start rule month server ∧ key = captureKey server) ∨
    ∃ server periodStart periodEnd, Under start rule server ∧ Calendar.InRange periodStart ∧
      monthStart periodStart = month ∧ key = accrualChargeKey server.id periodStart ∧
      description = usageDescription periodStart periodEnd

/-- A charge for a period of the month. -/
def Pays (entry : LedgerEntry) : Prop :=
  entry.entryType = .charge ∧ ForMonth start rule month entry.idempotencyKey entry.description

/-- The creation hold of a server whose first period is of the month. -/
def PaysFirst (hold : Hold) : Prop :=
  hold.walletId = start.books.wallet.id ∧ ∃ server, StartsIn start rule month server ∧
    hold.idempotencyKey = createHoldKey (server.idempotencyKey.getD "")

/-- The charges for the periods of the month add up to the limit at most. -/
def Within (limit : ℤ) (rows : BillingRows) : Prop :=
  ∀ entries : List LedgerEntry, entries.Sublist rows.books.ledger →
    (∀ entry ∈ entries, Pays start rule month entry) → (entries.map (·.amount)).sum ≤ limit

/-- The keys and the amounts that `month_total` adds up for the rule. -/
def counted (rows : BillingRows) : List (String × ℤ) :=
  (monthPeriods rows.accruals rows.books.wallet.id month (upper (strip rows.books.wallet.currency))
    (strip rule)).map fun period ↦ (period.idempotencyKey, period.sellingMinor)

/-- Every charge of the month has its record, the captured holds included whose charge is still to
be posted. -/
structure AllCounted (rows : BillingRows) : Prop where
  posted : ∀ entry ∈ rows.books.ledger, Pays start rule month entry →
    (entry.idempotencyKey, entry.amount) ∈ counted rule month rows
  captured : ∀ hold ∈ rows.books.holds, hold.status = .captured → PaysFirst start rule month hold →
    (HoldService.captureKey hold.idempotencyKey, hold.amount) ∈ counted rule month rows

/-- A new charge for the month comes after the records of the earlier ones. -/
def Timely (rows : BillingRows) : BillingCall → Prop
  | .adjust call => ForMonth start rule month (strip call.idempotencyKey) call.description →
      AllCounted start rule month rows
  | .hold (.capture holdId) => ∀ hold, rows.books.hold holdId = some hold →
      hold.status = .created → PaysFirst start rule month hold → AllCounted start rule month rows
  | _ => True

/-- The rows before any period of the month is charged. Ids and keys are unique, as the database
keeps them; the limit is the cap of the rule. -/
structure Uncharged (limit : ℤ) : Prop where
  serverIds : (start.servers.map (·.id)).Nodup
  serverKeys : ∀ first ∈ start.servers, ∀ second ∈ start.servers, truthy first.idempotencyKey →
    first.idempotencyKey = second.idempotencyKey → first = second
  ledgerKeys : (start.books.ledger.map (·.idempotencyKey)).Nodup
  holdIds : (start.books.holds.map (·.id)).Nodup
  holdKeys : (start.books.holds.map fun hold ↦ (hold.walletId, hold.idempotencyKey)).Nodup
  prices : ∀ snapshot ∈ start.snapshots, 0 ≤ snapshot.sellingMinor
  records : ∀ period ∈ start.accruals, 0 ≤ period.sellingMinor
  cap : ∀ snapshot ∈ start.snapshots, ruleKey snapshot.rule = rule →
    snapshot.rule.monthlyCapMinor = some limit
  limit_nonneg : 0 ≤ limit
  unposted : ∀ entry ∈ start.books.ledger, ¬ Pays start rule month entry
  uncaptured : ∀ hold ∈ start.books.holds, PaysFirst start rule month hold →
    hold.status ≠ .captured

end Month

/-- One event of the periodic runs over the servers. -/
abbrev billingStep :
    Solo Raised BillingCall BillingCall.Out BillingRows Unit → SoloEvent Uuid BillingCall.Chance →
      Solo Raised BillingCall BillingCall.Out BillingRows Unit :=
  Solo.step BillingCall.handle AccrualJob.runServer

/-! ### The account of the month -/

/-- Distinct items from a list of non-negative ones add up to no more than the list. -/
theorem sum_le_of_subset {κ : Type} {items all : List (κ × ℤ)} (hnodup : items.Nodup)
    (hsubset : items ⊆ all) (hnonneg : ∀ item ∈ all, 0 ≤ item.2) :
    (items.map (·.2)).sum ≤ (all.map (·.2)).sum := by
  obtain ⟨sub, hperm, hsub⟩ := List.subperm_of_subset hnodup hsubset
  have hsum : (items.map (·.2)).sum = (sub.map (·.2)).sum := (hperm.symm.map _).sum_eq
  rw [hsum]
  refine (hsub.map _).sum_le_sum fun amount hamount ↦ ?_
  obtain ⟨item, hitem, rfl⟩ := List.mem_map.mp hamount
  exact hnonneg item hitem

section Account

variable (start : BillingRows) (rule : String) (month limit : ℤ)

/-- The account of the month: one item for each charge, be it posted or only captured. -/
structure Account (books : Books) (items : List (String × ℤ)) : Prop where
  keys : (items.map (·.1)).Nodup
  total : (items.map (·.2)).sum ≤ limit
  nonneg : ∀ item ∈ items, 0 ≤ item.2
  posted : ∀ entry ∈ books.ledger, Pays start rule month entry →
    (entry.idempotencyKey, entry.amount) ∈ items
  captured : ∀ hold ∈ books.holds, hold.status = .captured → PaysFirst start rule month hold →
    (HoldService.captureKey hold.idempotencyKey, hold.amount) ∈ items
  charged : ∀ item ∈ items,
    (∃ entry ∈ books.ledger, Pays start rule month entry ∧
      item = (entry.idempotencyKey, entry.amount)) ∨
    ∃ hold ∈ books.holds, hold.status = .captured ∧ PaysFirst start rule month hold ∧
      item = (HoldService.captureKey hold.idempotencyKey, hold.amount)

/-- The books keep the wallet, the unique keys and the account. -/
structure Balanced (books : Books) : Prop where
  wallet : books.wallet = { start.books.wallet with balance := books.wallet.balance }
  ledgerKeys : (books.ledger.map (·.idempotencyKey)).Nodup
  holdIds : (books.holds.map (·.id)).Nodup
  holdKeys : (books.holds.map fun hold ↦ (hold.walletId, hold.idempotencyKey)).Nodup
  account : ∃ items, Account start rule month limit books items

end Account

section Account

variable {start : BillingRows} {rule : String} {month limit : ℤ} {books after : Books}
  {items : List (String × ℤ)}

/-- An account leaves no room for charges beyond the limit. -/
theorem Balanced.within (h : Balanced start rule month limit books) (rows : BillingRows)
    (hbooks : rows.books = books) : Within start rule month limit rows := by
  obtain ⟨items, haccount⟩ := h.account
  intro entries hsub hpays
  rw [hbooks] at hsub
  have hsubset : entries.map (fun entry ↦ (entry.idempotencyKey, entry.amount)) ⊆ items := by
    intro item hitem
    obtain ⟨entry, hentry, rfl⟩ := List.mem_map.mp hitem
    exact haccount.posted entry (hsub.subset hentry) (hpays entry hentry)
  have hnodup : (entries.map fun entry ↦ (entry.idempotencyKey, entry.amount)).Nodup := by
    apply List.Nodup.of_map Prod.fst
    rw [List.map_map]
    exact (hsub.map _).nodup h.ledgerKeys
  have hle := sum_le_of_subset hnodup hsubset haccount.nonneg
  rw [List.map_map] at hle
  exact hle.trans haccount.total

/-- A posting that the account has already, or that is none of its charges. -/
theorem Account.post (h : Account start rule month limit books items) {entry : LedgerEntry}
    (hentry : Pays start rule month entry → (entry.idempotencyKey, entry.amount) ∈ items)
    (hledger : after.ledger = books.ledger ++ [entry]) (hholds : after.holds = books.holds) :
    Account start rule month limit after items := by
  refine ⟨h.keys, h.total, h.nonneg, fun other hother hpays ↦ ?_, ?_, fun item hitem ↦ ?_⟩
  · rw [hledger, List.mem_append, List.mem_singleton] at hother
    rcases hother with hbefore | rfl
    · exact h.posted other hbefore hpays
    · exact hentry hpays
  · rw [hholds]
    exact h.captured
  · rw [hholds, hledger]
    rcases h.charged item hitem with ⟨other, hother, hpays⟩ | hcaptured
    · exact Or.inl ⟨other, List.mem_append_left _ hother, hpays⟩
    · exact Or.inr hcaptured

/-- A new charge for which the limit leaves room. -/
theorem Account.pay (h : Account start rule month limit books items) {entry : LedgerEntry}
    (hpays : Pays start rule month entry) (hamount : 0 ≤ entry.amount)
    (hroom : entry.amount + (items.map (·.2)).sum ≤ limit)
    (hnew : entry.idempotencyKey ∉ items.map (·.1))
    (hledger : after.ledger = books.ledger ++ [entry]) (hholds : after.holds = books.holds) :
    Account start rule month limit after ((entry.idempotencyKey, entry.amount) :: items) := by
  refine ⟨?_, ?_, ?_, fun other hother hother' ↦ ?_, fun hold hmem hcaptured hfirst ↦ ?_,
    fun item hitem ↦ ?_⟩
  · rw [List.map_cons]
    exact List.nodup_cons.mpr ⟨hnew, h.keys⟩
  · rw [List.map_cons, List.sum_cons]
    exact hroom
  · intro item hitem
    rcases List.mem_cons.mp hitem with rfl | hbefore
    · exact hamount
    · exact h.nonneg item hbefore
  · rw [hledger, List.mem_append, List.mem_singleton] at hother
    rcases hother with hbefore | rfl
    · exact List.mem_cons_of_mem _ (h.posted other hbefore hother')
    · exact List.mem_cons_self
  · rw [hholds] at hmem
    exact List.mem_cons_of_mem _ (h.captured hold hmem hcaptured hfirst)
  · rw [hholds, hledger]
    rcases List.mem_cons.mp hitem with rfl | hbefore
    · exact Or.inl ⟨entry, List.mem_append_right _ (List.mem_singleton_self _), hpays, rfl⟩
    · rcases h.charged item hbefore with ⟨other, hother, hpays⟩ | hcaptured
      · exact Or.inl ⟨other, List.mem_append_left _ hother, hpays⟩
      · exact Or.inr hcaptured

variable {hold : Hold}

/-- A hold whose status changes keeps its keys. -/
theorem setHold_map {ρ : Type} (f : Hold → ρ) (changed : Hold)
    (hids : (books.holds.map (·.id)).Nodup) (hmem : hold ∈ books.holds) (hid : changed.id = hold.id)
    (hsame : f changed = f hold) : (books.setHold changed).holds.map f = books.holds.map f := by
  rw [Books.setHold, List.map_map]
  refine List.map_congr_left fun other hother ↦ ?_
  rw [Function.comp_apply]
  split
  · rename_i heq
    have hother : other = hold := List.inj_on_of_nodup_map hids hother hmem (heq.trans hid)
    rw [hsame, hother]
  · rfl

theorem mem_setHold {changed other : Hold} (h : other ∈ (books.setHold changed).holds) :
    other = changed ∨ other ∈ books.holds := by
  rw [Books.setHold, List.mem_map] at h
  obtain ⟨before, hbefore, heq⟩ := h
  split at heq
  · exact Or.inl heq.symm
  · exact Or.inr (heq ▸ hbefore)

theorem mem_setHold_of_ne {changed other : Hold} (h : other ∈ books.holds)
    (hne : other.id ≠ changed.id) : other ∈ (books.setHold changed).holds := by
  rw [Books.setHold, List.mem_map]
  exact ⟨other, h, if_neg hne⟩

theorem mem_setHold_self {hold changed : Hold} (h : hold ∈ books.holds)
    (hid : changed.id = hold.id) : changed ∈ (books.setHold changed).holds := by
  rw [Books.setHold, List.mem_map]
  exact ⟨hold, h, if_pos hid.symm⟩

/-- A CREATED hold leaves CREATED: if it is captured for the month, the account has it. -/
theorem Account.setHold (h : Account start rule month limit books items)
    (hids : (books.holds.map (·.id)).Nodup) (changed : Hold) (hmem : hold ∈ books.holds)
    (hcreated : hold.status = .created) (hid : changed.id = hold.id)
    (hchanged : changed.status = .captured → PaysFirst start rule month changed →
      (HoldService.captureKey changed.idempotencyKey, changed.amount) ∈ items)
    (hholds : after.holds = (books.setHold changed).holds) (hledger : after.ledger = books.ledger) :
    Account start rule month limit after items := by
  refine ⟨h.keys, h.total, h.nonneg, ?_, fun other hother hcaptured hfirst ↦ ?_,
    fun item hitem ↦ ?_⟩
  · rw [hledger]
    exact h.posted
  · rw [hholds] at hother
    rcases mem_setHold hother with rfl | hbefore
    · exact hchanged hcaptured hfirst
    · exact h.captured other hbefore hcaptured hfirst
  · rw [hholds, hledger]
    rcases h.charged item hitem with hposted | ⟨other, hother, hcaptured, hfirst⟩
    · exact Or.inl hposted
    · refine Or.inr ⟨other, mem_setHold_of_ne hother fun hsame ↦ ?_, hcaptured, hfirst⟩
      have heq : other = hold := List.inj_on_of_nodup_map hids hother hmem (hsame.trans hid)
      rw [heq, hcreated] at hcaptured
      cases hcaptured

/-- The capture of a creation hold for which the limit leaves room. -/
theorem Account.capture (h : Account start rule month limit books items)
    (hids : (books.holds.map (·.id)).Nodup) (changed : Hold) (hmem : hold ∈ books.holds)
    (hcreated : hold.status = .created) (hid : changed.id = hold.id)
    (hcaptured : changed.status = .captured) (hfirst : PaysFirst start rule month changed)
    (hamount : 0 ≤ changed.amount) (hroom : changed.amount + (items.map (·.2)).sum ≤ limit)
    (hnew : HoldService.captureKey changed.idempotencyKey ∉ items.map (·.1))
    (hholds : after.holds = (books.setHold changed).holds) (hledger : after.ledger = books.ledger) :
    Account start rule month limit after
      ((HoldService.captureKey changed.idempotencyKey, changed.amount) :: items) := by
  refine ⟨?_, ?_, ?_, ?_, fun other hother hcaptured' hfirst' ↦ ?_, fun item hitem ↦ ?_⟩
  · rw [List.map_cons]
    exact List.nodup_cons.mpr ⟨hnew, h.keys⟩
  · rw [List.map_cons, List.sum_cons]
    exact hroom
  · intro item hitem
    rcases List.mem_cons.mp hitem with rfl | hbefore
    · exact hamount
    · exact h.nonneg item hbefore
  · rw [hledger]
    exact fun entry hentry hpays ↦ List.mem_cons_of_mem _ (h.posted entry hentry hpays)
  · rw [hholds] at hother
    rcases mem_setHold hother with rfl | hbefore
    · exact List.mem_cons_self
    · exact List.mem_cons_of_mem _ (h.captured other hbefore hcaptured' hfirst')
  · rw [hholds, hledger]
    rcases List.mem_cons.mp hitem with rfl | hbefore
    · exact Or.inr ⟨changed, mem_setHold_self hmem hid, hcaptured, hfirst, rfl⟩
    · rcases h.charged item hbefore with hposted | ⟨other, hother, hcaptured', hfirst'⟩
      · exact Or.inl hposted
      · refine Or.inr ⟨other, mem_setHold_of_ne hother fun hsame ↦ ?_, hcaptured', hfirst'⟩
        have heq : other = hold := List.inj_on_of_nodup_map hids hother hmem (hsame.trans hid)
        rw [heq, hcreated] at hcaptured'
        cases hcaptured'

theorem createHoldKey_injective {first second : String}
    (h : createHoldKey first = createHoldKey second) : first = second := by
  have hchars := congrArg String.toList h
  simp only [createHoldKey, String.toList_append, List.append_cancel_left_eq] at hchars
  exact String.toList_injective hchars

theorem captureKey_injective {first second : String}
    (h : HoldService.captureKey first = HoldService.captureKey second) : first = second := by
  have hchars := congrArg String.toList h
  simp only [HoldService.captureKey, String.toList_append, List.append_cancel_left_eq] at hchars
  exact String.toList_injective hchars

/-- A key of the account is in the ledger, or it is the capture key of a captured hold. -/
theorem Account.mem_keys (h : Account start rule month limit books items) {key : String}
    (hkey : key ∈ items.map (·.1)) : (books.entry key).isSome ∨
      ∃ hold ∈ books.holds, hold.status = .captured ∧ PaysFirst start rule month hold ∧
        key = HoldService.captureKey hold.idempotencyKey := by
  obtain ⟨item, hitem, rfl⟩ := List.mem_map.mp hkey
  rcases h.charged item hitem with ⟨entry, hentry, -, rfl⟩ | ⟨hold, hhold, hcaptured, hfirst, rfl⟩
  · refine Or.inl ?_
    rw [Books.entry, List.find?_isSome]
    exact ⟨entry, hentry, decide_eq_true rfl⟩
  · exact Or.inr ⟨hold, hhold, hcaptured, hfirst, rfl⟩

/-- What is recorded for the month is all that is charged for it. -/
theorem Account.total_le_counted (h : Account start rule month limit books items)
    {rows : BillingRows} (hbooks : rows.books = books)
    (hrecords : ∀ period ∈ rows.accruals, 0 ≤ period.sellingMinor)
    (hcounted : AllCounted start rule month rows) :
    (items.map (·.2)).sum ≤ ((counted rule month rows).map (·.2)).sum := by
  refine sum_le_of_subset (List.Nodup.of_map _ h.keys) (fun item hitem ↦ ?_) fun item hitem ↦ ?_
  · rcases h.charged item hitem with ⟨entry, hentry, hpays, rfl⟩ |
      ⟨hold, hhold, hcaptured, hfirst, rfl⟩
    · exact hcounted.posted entry (hbooks ▸ hentry) hpays
    · exact hcounted.captured hold (hbooks ▸ hhold) hcaptured hfirst
  · obtain ⟨period, hperiod, rfl⟩ := List.mem_map.mp hitem
    exact hrecords period (List.mem_of_mem_filter hperiod)

theorem monthTotal_eq_ok {rows : BillingRows} {billed : ℤ} {currency : String}
    (hcurrency : currency = rows.books.wallet.currency)
    (h : monthTotal rows rows.books.wallet.id month currency rule = .ok billed) :
    billed = ((counted rule month rows).map (·.2)).sum := by
  obtain ⟨-, hcode⟩ := rejectIf_bind_eq_ok.mp h
  obtain ⟨-, hdone⟩ := rejectIf_bind_eq_ok.mp hcode
  rw [← pure_eq_ok.mp hdone, hcurrency, counted, List.map_map]
  rfl

end Account

/-! ### The invariant -/

/-- A copy of a server, with its identity, its key and its activation. -/
structure SameContract (server copy : CloudServer) : Prop where
  id_eq : copy.id = server.id
  key_eq : copy.idempotencyKey = server.idempotencyKey
  anchor_eq : copy.billingStartedAt = server.billingStartedAt

/-- A copy of one of the servers. -/
def Billable (start : BillingRows) (copy : CloudServer) : Prop :=
  ∃ server ∈ start.servers, SameContract server copy

/-- What every write of the job keeps: the account of the month, the prices and the contracts. -/
structure Kept (start : BillingRows) (rule : String) (month limit : ℤ) (rows : BillingRows) :
    Prop where
  books : Balanced start rule month limit rows.books
  snapshots : rows.snapshots = start.snapshots
  servers : ∀ row ∈ rows.servers, Billable start row
  records : ∀ period ∈ rows.accruals, 0 ≤ period.sellingMinor

/-- The cap leaves room for the price, if the period counts for the rule and the month. -/
def Room (start : BillingRows) (rule : String) (month limit : ℤ) (rows : BillingRows)
    (facts : Settlement) : Prop :=
  ∀ server, Under start rule server → SameContract server facts.server →
    monthStart facts.periodStart = month →
    facts.snapshot.sellingMinor + ((counted rule month rows).map (·.2)).sum ≤ limit

section Kept

variable {start rows after : BillingRows} {rule : String} {month limit : ℤ} {copy : CloudServer}
  {periodStart periodEnd : ℤ} {facts : Settlement}

theorem Uncharged.server_of_id (hstart : Uncharged start rule month limit)
    {first second : CloudServer} (hfirst : first ∈ start.servers) (hsecond : second ∈ start.servers)
    (hid : first.id = second.id) : first = second :=
  List.inj_on_of_nodup_map hstart.serverIds hfirst hsecond hid

theorem Uncharged.kept (hstart : Uncharged start rule month limit) :
    Kept start rule month limit start := by
  refine ⟨⟨rfl, hstart.ledgerKeys, hstart.holdIds, hstart.holdKeys, [], ?_⟩, rfl,
    fun row hrow ↦ ⟨row, hrow, rfl, rfl, rfl⟩, hstart.records⟩
  refine ⟨List.nodup_nil, hstart.limit_nonneg, by simp, fun entry hentry hpays ↦ ?_,
    fun hold hhold hcaptured hfirst ↦ ?_, by simp⟩
  · exact absurd hpays (hstart.unposted entry hentry)
  · exact absurd hcaptured (hstart.uncaptured hold hhold hfirst)

theorem Kept.withAccruals (h : Kept start rule month limit rows) {accruals : List AccrualPeriod}
    {key : String} (hrecords : Records rows facts key accruals) :
    Kept start rule month limit { rows with accruals := accruals } := by
  refine ⟨h.books, h.snapshots, h.servers, ?_⟩
  rcases hrecords with rfl | ⟨period, hperiod, rfl⟩
  · exact h.records
  · intro other hother
    rcases List.mem_append.mp hother with hbefore | hnew
    · exact h.records other hbefore
    · rw [List.mem_singleton.mp hnew]
      exact le_of_lt (AccrualPeriod.sellingMinor_pos hperiod)

theorem Kept.saved (hstart : Uncharged start rule month limit)
    (h : Kept start rule month limit rows) (hcopy : Billable start copy)
    (hsaved : Saved rows copy after) : Kept start rule month limit after := by
  obtain ⟨row, hrow, rfl⟩ := hsaved.saves
  refine ⟨h.books, h.snapshots, fun other hother ↦ ?_, h.records⟩
  rw [BillingRows.setServer, List.mem_map] at hother
  obtain ⟨before, hbefore, rfl⟩ := hother
  split
  · obtain ⟨server, hserver, hrowContract⟩ := h.servers row (List.mem_of_find?_eq_some hrow)
    obtain ⟨other, hother, hcontract⟩ := hcopy
    have hid : row.id = copy.id := by simpa using List.find?_some hrow
    have heq : server = other := by
      apply hstart.server_of_id hserver hother
      rw [← hrowContract.id_eq, hid, hcontract.id_eq]
    subst heq
    exact ⟨server, hserver, hrowContract.id_eq, hrowContract.key_eq, hcontract.anchor_eq⟩
  · exact h.servers before hbefore

variable {books : Books} {hold : Hold}

/-- The books change, and nothing else. -/
theorem Kept.withBooks (h : Kept start rule month limit rows)
    (hbooks : Balanced start rule month limit books) :
    Kept start rule month limit { rows with books := books } :=
  ⟨hbooks, h.snapshots, h.servers, h.records⟩

theorem Kept.walletId (h : Kept start rule month limit rows) :
    rows.books.wallet.id = start.books.wallet.id := by
  rw [h.books.wallet]

theorem Kept.price_nonneg (hstart : Uncharged start rule month limit)
    (h : Kept start rule month limit rows) (hloaded : Loaded rows copy periodStart periodEnd facts) :
    0 ≤ facts.snapshot.sellingMinor := by
  apply hstart.prices
  rw [← h.snapshots]
  exact List.mem_of_find?_eq_some hloaded.snapshot_eq

/-- The keys of a ledger stay unique under a posting with a new one. -/
theorem ledgerKeys_append {entry : LedgerEntry}
    (hkeys : (books.ledger.map (·.idempotencyKey)).Nodup)
    (hfresh : books.entry entry.idempotencyKey = none) :
    ((books.ledger ++ [entry]).map (·.idempotencyKey)).Nodup := by
  rw [List.map_append, List.map_singleton]
  refine List.nodup_append.mpr ⟨hkeys, List.nodup_singleton _, fun key hkey other hother ↦ ?_⟩
  obtain ⟨before, hbefore, rfl⟩ := List.mem_map.mp hkey
  rw [List.mem_singleton.mp hother]
  exact Books.entry_eq_none.mp hfresh before hbefore

/-- A posting that is none of the month's charges, or that the account has already. -/
theorem Balanced.post (h : Balanced start rule month limit books) (call : PostCall)
    (hcall : ∀ items, Account start rule month limit books items → ∀ referenceId,
      Pays start rule month (call.row referenceId) → (call.idempotencyKey, call.amount) ∈ items) :
    Balanced start rule month limit (postEntry books call).1 := by
  rcases postEntry_cases books call with ⟨raised, hraised, -⟩ | ⟨hfresh, referenceId, -, hposted⟩
  · rw [hraised]
    exact h
  · obtain ⟨items, haccount⟩ := h.account
    rw [hposted]
    exact ⟨h.wallet, ledgerKeys_append h.ledgerKeys hfresh, h.holdIds, h.holdKeys, items,
      haccount.post (hcall items haccount referenceId) rfl rfl⟩

/-- The charge of a period under its own key. -/
theorem Kept.charge (hstart : Uncharged start rule month limit)
    (h : Kept start rule month limit rows) (hcopy : Billable start copy)
    (hrange : Calendar.InRange periodStart) (hloaded : Loaded rows copy periodStart periodEnd facts)
    (hunpaid : Unpaid rows facts) (hroom : Room start rule month limit rows facts)
    (htimely : Timely start rule month rows (.adjust facts.charge)) {wallet : Wallet}
    {applied : Bool} (hadjust : adjust rows.books facts.charge = .ok (books, wallet, applied)) :
    Kept start rule month limit { rows with books := books } := by
  rcases adjust_eq_ok hadjust with ⟨-, rfl, -⟩ | ⟨-, -, -, -, referenceId, -, hposted⟩
  · exact h
  · have hkey : strip facts.charge.idempotencyKey = accrualChargeKey copy.id periodStart := by
      rw [Settlement.charge, hloaded.server_eq, hloaded.periodStart_eq, strip_accrualChargeKey]
    have hnone : rows.books.entry (accrualChargeKey copy.id periodStart) = none := by
      rw [← hloaded.server_eq, ← hloaded.periodStart_eq]
      exact hunpaid _ (List.mem_append_right _ (List.mem_singleton_self _))
    have hprice := h.price_nonneg hstart hloaded
    obtain ⟨items, haccount⟩ := h.books.account
    refine h.withBooks ⟨?_, ?_, ?_, ?_, ?_⟩
    · rw [hposted.wallet, h.books.wallet]
    · rw [hposted.ledger]
      apply ledgerKeys_append h.books.ledgerKeys
      rw [hposted.key_eq]
      exact hposted.fresh
    · rw [hposted.holds]
      exact h.books.holdIds
    · rw [hposted.holds]
      exact h.books.holdKeys
    · by_cases hpays : Pays start rule month
          (adjustEntry rows.books.wallet (strip facts.charge.idempotencyKey) facts.charge referenceId)
      · have hcounted := htimely hpays.2
        refine ⟨_, haccount.pay hpays (Int.natCast_nonneg _) ?_ ?_ hposted.ledger hposted.holds⟩
        · -- the period of the entry is the period of the settlement, which the cap has room for
          have hamount : ((facts.charge.delta.natAbs : ℕ) : ℤ) = facts.snapshot.sellingMinor := by
            rw [Settlement.charge, Int.natAbs_neg, Int.natAbs_of_nonneg hprice]
          have hle := haccount.total_le_counted rfl h.records hcounted
          have hmonth : ∃ server, Under start rule server ∧ SameContract server facts.server ∧
              monthStart facts.periodStart = month := by
            rw [hloaded.server_eq, hloaded.periodStart_eq]
            rcases hpays.2 with ⟨server, -, hcapture⟩ |
              ⟨server, first, last, hunder, hfirst, hmonth, hsame, hdescription⟩
            · rw [adjustEntry, hkey] at hcapture
              exact absurd hcapture.symm (captureKey_ne_accrualChargeKey _ _ _)
            · rw [adjustEntry, hkey] at hsame
              rw [adjustEntry, Settlement.charge, hloaded.periodStart_eq] at hdescription
              obtain ⟨other, hother, hcontract⟩ := hcopy
              have heq : other = server := by
                apply hstart.server_of_id hother hunder.1
                rw [← hcontract.id_eq, (accrualChargeKey_inj hsame).1]
              subst heq
              refine ⟨other, hunder, hcontract, ?_⟩
              rw [← hmonth]
              exact Calendar.monthStart_of_dayOf
                (dayOf_of_usageDescription hrange hfirst hdescription)
          obtain ⟨server, hunder, hcontract, hperiod⟩ := hmonth
          have hfits := hroom server hunder hcontract hperiod
          rw [adjustEntry]
          simp only
          rw [hamount]
          omega
        · intro hmem
          rw [adjustEntry, hkey] at hmem
          rcases haccount.mem_keys hmem with hsome | ⟨hold, -, -, -, hsame⟩
          · rw [hnone] at hsome
            cases hsome
          · exact captureKey_ne_accrualChargeKey _ _ _ hsame.symm
      · exact ⟨items, haccount.post (fun hpays' ↦ absurd hpays' hpays) hposted.ledger hposted.holds⟩

/-- What the settlement knows of the creation hold that it found. -/
structure Found (rows : BillingRows) (facts : Settlement) (hold : Hold) : Prop where
  mem : hold ∈ rows.books.holds
  walletId_eq : hold.walletId = rows.books.wallet.id
  key_eq : hold.idempotencyKey = facts.holdKey
  first : facts.server.billingStartedAt = some facts.periodStart
  truthy : truthy facts.server.idempotencyKey

theorem found_of_loaded (hloaded : Loaded rows copy periodStart periodEnd facts)
    (hhold : facts.hold = some hold) : Found rows facts hold := by
  have hfound := hloaded.hold_eq
  rw [hhold] at hfound
  split at hfound
  · rename_i hboth
    obtain ⟨hfirst, htruthy⟩ := Bool.and_eq_true_iff.mp hboth
    have hkeys := List.find?_some hfound.symm
    simp only [decide_eq_true_eq] at hkeys
    refine ⟨List.mem_of_find?_eq_some hfound.symm, hkeys.1, hkeys.2, of_decide_eq_true hfirst, ?_⟩
    rw [hloaded.server_eq]
    exact htruthy
  · cases hfound

/-- Two optional texts that are neither `None` nor empty agree as soon as their texts do. -/
theorem eq_of_getD_eq {first second : Option String} (hfirst : truthy first)
    (hsecond : truthy second) (h : first.getD "" = second.getD "") : first = second := by
  cases first with
  | none => cases hfirst
  | some text =>
    cases second with
    | none => cases hsecond
    | some other => exact congrArg some h

/-- The server that a creation hold of the month belongs to is the server of the settlement. -/
theorem Found.contract (hstart : Uncharged start rule month limit) (hfound : Found rows facts hold)
    (hcopy : Billable start facts.server) (hfirst : PaysFirst start rule month hold) :
    ∃ server, Under start rule server ∧ SameContract server facts.server ∧
      monthStart facts.periodStart = month := by
  obtain ⟨-, server, ⟨hunder, htruthy, anchor, hanchor, hmonth⟩, hkey⟩ := hfirst
  obtain ⟨other, hother, hcontract⟩ := hcopy
  have htexts := createHoldKey_injective (hfound.key_eq.symm.trans hkey)
  have hkeys := eq_of_getD_eq hfound.truthy htruthy htexts
  have heq : server = other := by
    apply hstart.serverKeys server hunder.1 other hother htruthy
    rw [← hkeys, hcontract.key_eq]
  subst heq
  refine ⟨server, hunder, hcontract, ?_⟩
  rw [← hmonth]
  congr 1
  have hsame := hfound.first
  rw [hcontract.anchor_eq, hanchor] at hsame
  exact (Option.some.inj hsame).symm

/-- The capture of the creation hold in place of the first period's charge. -/
theorem Kept.capture (hstart : Uncharged start rule month limit)
    (h : Kept start rule month limit rows) (hcopy : Billable start facts.server)
    (hfound : Found rows facts hold) (hprice : 0 ≤ facts.snapshot.sellingMinor)
    (hamount : hold.amount = facts.snapshot.sellingMinor)
    (hnone : rows.books.entry (captureKey facts.server) = none)
    (hroom : Room start rule month limit rows facts) {mid : Books}
    (htimely : hold.status = .created → Timely start rule month rows (.hold (.capture hold.id)))
    (hmid : Captured rows.books hold mid) :
    Kept start rule month limit { rows with books := mid } := by
  cases hmid with
  | already => exact h
  | debited now hcreated hcovered =>
    obtain ⟨items, haccount⟩ := h.books.account
    have hids := h.books.holdIds
    let changed : Hold := { hold with status := .captured, capturedAt := some now }
    have hholds : ((rows.books.withBalance (rows.books.wallet.balance - hold.amount)).setHold
        changed).holds = (rows.books.setHold changed).holds := rfl
    refine h.withBooks ⟨?_, h.books.ledgerKeys, ?_, ?_, ?_⟩
    · change { rows.books.wallet with balance := rows.books.wallet.balance - hold.amount } = _
      rw [h.books.wallet]
      rfl
    · rw [hholds, setHold_map _ changed hids hfound.mem rfl rfl]
      exact hids
    · rw [hholds, setHold_map _ changed hids hfound.mem rfl rfl]
      exact h.books.holdKeys
    · by_cases hfirst : PaysFirst start rule month hold
      · have hcounted := htimely hcreated hold (Books.hold_of_mem hids hfound.mem) hcreated hfirst
        refine ⟨_, haccount.capture hids changed hfound.mem hcreated rfl rfl hfirst ?_ ?_ ?_ hholds
          rfl⟩
        · rw [← hamount] at hprice
          exact hprice
        · obtain ⟨server, hunder, hcontract, hmonth⟩ := hfound.contract hstart hcopy hfirst
          have hfits := hroom server hunder hcontract hmonth
          have hle := haccount.total_le_counted rfl h.records hcounted
          change hold.amount + _ ≤ limit
          rw [hamount]
          omega
        · intro hmem
          rcases haccount.mem_keys hmem with hsome | ⟨other, hother, hcaptured, hfirst', hsame⟩
          · have hkey : HoldService.captureKey hold.idempotencyKey = captureKey facts.server := by
              rw [hfound.key_eq]
              rfl
            change (rows.books.entry (HoldService.captureKey hold.idempotencyKey)).isSome at hsome
            rw [hkey, hnone] at hsome
            cases hsome
          · have hkeys : (other.walletId, other.idempotencyKey) =
                (hold.walletId, hold.idempotencyKey) := by
              rw [hfirst'.1, hfirst.1, captureKey_injective hsame]
            have heq : other = hold :=
              List.inj_on_of_nodup_map h.books.holdKeys hother hfound.mem hkeys
            rw [heq, hcreated] at hcaptured
            cases hcaptured
      · exact ⟨items, haccount.setHold hids changed hfound.mem hcreated rfl
          (fun _ hfirst' ↦ absurd hfirst' hfirst) hholds rfl⟩

/-- A captured hold of the month is in the account, so its posting changes nothing. -/
theorem Kept.postCapture (h : Kept start rule month limit rows) (hfound : Found rows facts hold)
    {mid : Books} (hmid : Captured rows.books hold mid)
    (hkept : Kept start rule month limit { rows with books := mid }) :
    Kept start rule month limit (afterCapture rows facts hold mid) := by
  refine hkept.withBooks (hkept.books.post _ fun items haccount _ hpays ↦ ?_)
  obtain ⟨captured, hmem, hstatus, hwallet, hkey, hamount⟩ : ∃ captured ∈ mid.holds,
      captured.status = .captured ∧ captured.walletId = hold.walletId ∧
        captured.idempotencyKey = hold.idempotencyKey ∧ captured.amount = hold.amount := by
    cases hmid with
    | already hstatus => exact ⟨hold, hfound.mem, hstatus, rfl, rfl, rfl⟩
    | debited now => exact ⟨_, mem_setHold_self hfound.mem rfl, rfl, rfl, rfl, rfl⟩
  have hfirst : PaysFirst start rule month captured := by
    refine ⟨by rw [hwallet, hfound.walletId_eq, h.walletId], ?_⟩
    rcases hpays.2 with ⟨server, hstarts, hsame⟩ | ⟨server, first, -, -, -, -, hsame, -⟩
    · refine ⟨server, hstarts, ?_⟩
      rw [hkey, hfound.key_eq]
      exact captureKey_injective hsame
    · exact absurd hsame (captureKey_ne_accrualChargeKey _ _ _)
  have hitem := haccount.captured captured hmem hstatus hfirst
  rw [hkey, hfound.key_eq, hamount] at hitem
  exact hitem

/-- A released hold is no charge. -/
theorem Balanced.release {books mid : Books} (h : Balanced start rule month limit books)
    (hmem : hold ∈ books.holds) (hmid : Released books hold mid) :
    Balanced start rule month limit mid := by
  cases hmid with
  | already => exact h
  | now now hcreated =>
    obtain ⟨items, haccount⟩ := h.account
    let changed : Hold := { hold with status := .released, releasedAt := some now }
    refine ⟨h.wallet, h.ledgerKeys, ?_, ?_, items, haccount.setHold h.holdIds changed hmem hcreated
      rfl (fun hcaptured ↦ by cases hcaptured) rfl rfl⟩
    · rw [setHold_map _ changed h.holdIds hmem rfl rfl]
      exact h.holdIds
    · rw [setHold_map _ changed h.holdIds hmem rfl rfl]
      exact h.holdKeys

end Kept

/-! ### The programs -/

section Programs

variable {start rows after : BillingRows} {rule : String} {month limit : ℤ} {copy : CloudServer}
  {periodStart periodEnd now : ℤ} {facts : Settlement}

/-- The price of a server under the rule has the limit as its cap. -/
theorem cap_of_under (hstart : Uncharged start rule month limit)
    (h : Kept start rule month limit rows) (hloaded : Loaded rows copy periodStart periodEnd facts)
    {server : CloudServer} (hunder : Under start rule server)
    (hcontract : SameContract server facts.server) :
    facts.snapshot.rule.monthlyCapMinor = some limit ∧ ruleKey facts.snapshot.rule = rule := by
  obtain ⟨-, snapshot, hsnapshot, hrule⟩ := hunder
  have hsame : facts.snapshot = snapshot := by
    have hloaded := hloaded.server_eq ▸ hloaded.snapshot_eq
    rw [hcontract.id_eq, BillingRows.snapshot, h.snapshots] at hloaded
    exact Option.some.inj (hloaded.symm.trans hsnapshot)
  rw [hsame]
  exact ⟨hstart.cap snapshot (List.mem_of_find?_eq_some hsnapshot) hrule, hrule⟩

/-- A program of the job, under the invariant and with timely charges. -/
abbrev KeptSafe (start : BillingRows) (rule : String) (month limit : ℤ) {α : Type}
    (P : α → BillingRows → Prop) (program : AccrualProgram α) (rows : BillingRows) : Prop :=
  JobSafe (Kept start rule month limit) (Timely start rule month) P program rows

/-- The copy of a server after its turn at a period. -/
def Turned (start : BillingRows) (rule : String) (month limit : ℤ) (copy : CloudServer)
    (rows : BillingRows) : Prop :=
  Billable start copy ∧ Kept start rule month limit rows

theorem Billable.moved (hcopy : Billable start copy) (periodEnd : ℤ) (version : Option ℤ) :
    Billable start { moved copy periodEnd with updatedAt := version } := by
  obtain ⟨server, hserver, hcontract⟩ := hcopy
  exact ⟨server, hserver, hcontract.id_eq, hcontract.key_eq, hcontract.anchor_eq⟩

theorem kept_advance (hstart : Uncharged start rule month limit)
    (h : Kept start rule month limit rows) (hcopy : Billable start copy) :
    KeptSafe start rule month limit (Turned start rule month limit) (advance copy periodEnd)
      rows := by
  refine jobSafe_advance fun after hsaved ↦ ?_
  have hafter := h.saved hstart (hcopy.moved periodEnd (moved copy periodEnd).updatedAt) hsaved
  exact ⟨hafter, hcopy.moved _ _, hafter⟩

theorem kept_finish (hstart : Uncharged start rule month limit)
    (h : Kept start rule month limit rows) (hcopy : Billable start facts.server) (key : String) :
    KeptSafe start rule month limit (Turned start rule month limit) (finish facts key) rows := by
  refine jobSafe_finish fun accruals hrecords ↦ ?_
  have hrecorded := h.withAccruals hrecords
  refine ⟨hrecorded, fun after hsaved ↦ ?_⟩
  have hafter := hrecorded.saved hstart
    (hcopy.moved facts.periodEnd (moved facts.server facts.periodEnd).updatedAt) hsaved
  exact ⟨hafter, hcopy.moved _ _, hafter⟩

/-- A period that its creation hold pays, when the capture itself keeps the invariant. -/
theorem kept_settleByCapture (hstart : Uncharged start rule month limit)
    (h : Kept start rule month limit rows) (hcopy : Billable start facts.server)
    (hwallet : facts.wallet = rows.books.wallet) {hold : Hold} (hfound : Found rows facts hold)
    (hcapture : ∀ mid, Captured rows.books hold mid →
      (hold.status = .created → Timely start rule month rows (.hold (.capture hold.id))) →
      Kept start rule month limit { rows with books := mid }) (unconfirmed : String) :
    KeptSafe start rule month limit (Turned start rule month limit)
      (settleByCapture facts hold unconfirmed) rows := by
  refine jobSafe_settleByCapture (by rw [hwallet]) (Books.hold_of_mem h.books.holdIds hfound.mem)
    (fun _ htimely mid hmid ↦ hcapture mid hmid fun _ ↦ htimely)
    (fun mid hmid hkept ↦ h.postCapture hfound hmid hkept)
    fun mid _ hkept ↦ kept_finish hstart hkept hcopy _

theorem kept_settleFresh (hstart : Uncharged start rule month limit)
    (h : Kept start rule month limit rows) (hcopy : Billable start copy)
    (hrange : Calendar.InRange periodStart)
    (hloaded : Loaded rows copy periodStart periodEnd facts) (hunpaid : Unpaid rows facts)
    (hroom : Room start rule month limit rows facts) :
    KeptSafe start rule month limit (Turned start rule month limit) (settleFresh facts) rows := by
  have hserver : Billable start facts.server := by rw [hloaded.server_eq]; exact hcopy
  refine jobSafe_settleFresh ?_ ?_
  · intro hold hhold _ _ hamount unconfirmed
    have hfound := found_of_loaded hloaded hhold
    have hnone : rows.books.entry (captureKey facts.server) = none := by
      apply hunpaid
      rw [Settlement.candidateKeys, Settlement.isFirstPeriod, hfound.first, hfound.truthy]
      simp [captureKey, Settlement.holdKey]
    exact kept_settleByCapture hstart h hserver hloaded.wallet_eq hfound
      (fun mid hmid htimely ↦ h.capture hstart hserver hfound (h.price_nonneg hstart hloaded)
        hamount hnone hroom htimely hmid) unconfirmed
  · intro _ htimely books wallet applied hadjust
    have hkept := h.charge hstart hcopy hrange hloaded hunpaid hroom htimely hadjust
    exact ⟨hkept, kept_finish hstart hkept hserver _⟩

theorem kept_settleCapped (hstart : Uncharged start rule month limit)
    (h : Kept start rule month limit rows) (hcopy : Billable start copy)
    (hloaded : Loaded rows copy periodStart periodEnd facts) :
    KeptSafe start rule month limit (Turned start rule month limit) (settleCapped facts) rows := by
  have hserver : Billable start facts.server := by rw [hloaded.server_eq]; exact hcopy
  unfold settleCapped
  split
  · rename_i hold hhold
    have hfound := found_of_loaded hloaded hhold
    split
    · rename_i hstatus
      refine kept_settleByCapture hstart h hserver hloaded.wallet_eq hfound (fun mid hmid _ ↦ ?_) _
      cases hmid with
      | already => exact h
      | debited now hcreated =>
        rw [hstatus] at hcreated
        cases hcreated
    · split
      · rw [hloaded.wallet_eq]
        refine safe_returns_bind (jobSafe_holds (alone_releaseHold
          (Books.hold_of_mem h.books.holdIds hfound.mem) (fun mid hmid _ ↦ ?_)
          fun mid _ hkept ↦ ?_)) ?_
        · exact h.withBooks (h.books.release hfound.mem hmid)
        · refine h.withBooks (hkept.books.post _ fun _ _ _ hpays ↦ ?_)
          cases hpays.1
        · rintro released _ ⟨books, rfl, hkept⟩
          exact safe_returns_lift fun _ _ ↦ kept_advance hstart hkept hserver
      · exact kept_advance hstart h hserver
  · exact kept_advance hstart h hserver

/-- One period of one server. -/
theorem kept_settlePeriod (hstart : Uncharged start rule month limit)
    (h : Kept start rule month limit rows) (hcopy : Billable start copy)
    (hrange : Calendar.InRange periodStart) :
    KeptSafe start rule month limit (Turned start rule month limit)
      (settlePeriod copy periodStart periodEnd) rows := by
  refine jobSafe_settlePeriod ?_ ?_ ?_
  · intro facts hloaded key _ _ _ _
    exact kept_finish hstart h (by rw [hloaded.server_eq]; exact hcopy) key
  · intro facts hloaded hunpaid huncapped
    refine kept_settleFresh hstart h hcopy hrange hloaded hunpaid fun server hunder hcontract _ ↦ ?_
    have hcap := cap_of_under hstart h hloaded hunder hcontract
    rw [huncapped] at hcap
    cases hcap.1
  · intro facts hloaded hunpaid cap hcap billed hbilled
    split
    · exact kept_settleCapped hstart h hcopy hloaded
    · rename_i hfits
      refine kept_settleFresh hstart h hcopy hrange hloaded hunpaid fun server hunder hcontract
        hmonth ↦ ?_
      obtain ⟨hlimit, hrule⟩ := cap_of_under hstart h hloaded hunder hcontract
      obtain rfl := Option.some.inj (hcap.symm.trans hlimit)
      rw [hloaded.periodStart_eq] at hmonth
      rw [hloaded.wallet_eq, hmonth, hrule] at hbilled
      have hsum := monthTotal_eq_ok hloaded.currency.symm hbilled
      omega

/-- The deletion request of an unpaid server is only a change of its row. -/
theorem kept_requestUnpaidDeletion (hstart : Uncharged start rule month limit)
    (hcopy : Billable start copy) (rows : BillingRows) :
    KeptSafe start rule month limit (fun _ _ ↦ True) (requestUnpaidDeletion copy now) rows := by
  unfold requestUnpaidDeletion
  split
  · trivial
  · refine safe_returns_lift fun requested hrequested ↦ ?_
    obtain ⟨-, hdone⟩ := rejectIf_bind_eq_ok.mp hrequested
    obtain rfl := pure_eq_ok.mp hdone
    obtain ⟨server, hserver, hcontract⟩ := hcopy
    refine Solo.safe_perform fun hkept _ chance ↦ ?_
    have hreply : ∀ request, BillingCall.handle (.saveServer request) chance rows =
      transaction rows (saveServer rows request) := fun _ ↦ rfl
    rw [hreply, saveServer]
    split
    · exact ⟨hkept, by rintro _ ⟨⟩⟩
    · rename_i row hrow
      refine ⟨hkept.saved hstart ?_ ⟨row, hrow, rfl⟩, fun _ _ ↦ trivial⟩
      exact ⟨server, hserver, hcontract.id_eq, hcontract.key_eq, hcontract.anchor_eq⟩

theorem kept_settleOrRequestDeletion (hstart : Uncharged start rule month limit)
    (h : Kept start rule month limit rows) (hcopy : Billable start copy)
    (hrange : Calendar.InRange periodStart) :
    KeptSafe start rule month limit (Turned start rule month limit)
      (settleOrRequestDeletion now copy periodStart periodEnd) rows := by
  refine safe_returns_tryCatch (kept_settlePeriod hstart h hcopy hrange) fun raised s ↦ ?_
  split
  · exact safe_returns_bind (kept_requestUnpaidDeletion hstart hcopy s) fun _ _ _ ↦ trivial
  · trivial

/-- The loop over the due periods. -/
theorem kept_settlePeriods (hstart : Uncharged start rule month limit) (last quantum : ℤ)
    (remaining : ℕ) : ∀ (k : ℕ) {copy : CloudServer} {rows : BillingRows},
      Kept start rule month limit rows → Billable start copy →
      KeptSafe start rule month limit (Turned start rule month limit)
        (settlePeriods (settleOrRequestDeletion now) last quantum k remaining copy) rows := by
  induction remaining with
  | zero => exact fun _ _ _ h hcopy ↦ ⟨hcopy, h⟩
  | succ remaining ih =>
    intro k copy rows h hcopy
    refine safe_returns_lift fun first hfirst ↦ safe_returns_lift fun last _ ↦ ?_
    refine safe_returns_bind (kept_settleOrRequestDeletion hstart h hcopy
      (addSeconds_inRange hfirst)) fun advanced after hturned ↦ ?_
    exact ih (k + 1) hturned.2 hturned.1

theorem kept_accrueServer (hstart : Uncharged start rule month limit)
    (h : Kept start rule month limit rows) (hcopy : Billable start copy) :
    KeptSafe start rule month limit (fun _ _ ↦ True)
      (accrueServer (settleOrRequestDeletion now) copy now) rows := by
  unfold accrueServer
  split
  · trivial
  · split
    · trivial
    · refine safe_returns_lift fun _ _ ↦ ?_
      split
      · trivial
      · refine safe_returns_lift fun _ _ ↦ (kept_settlePeriods hstart _ _ _ 0 h hcopy).mono ?_
        rintro (_ | _) _ _ <;> trivial

/-- The turn of a server. -/
theorem kept_runServer (hstart : Uncharged start rule month limit)
    (h : Kept start rule month limit rows) (serverId : Uuid) :
    KeptSafe start rule month limit (fun _ _ ↦ True) (runServer serverId) rows := by
  refine Solo.safe_perform fun _ _ chance ↦ ?_
  have hticked : Kept start rule month limit { rows with clock := rows.clock + chance.tick } :=
    ⟨h.books, h.snapshots, h.servers, h.records⟩
  refine ⟨hticked, fun now _ ↦ ?_⟩
  refine Solo.safe_perform fun _ _ _ ↦ ⟨hticked, fun found hfound ↦ ?_⟩
  split
  · trivial
  · rename_i server
    have hserver : Billable start server :=
      h.servers server (List.mem_of_find?_eq_some (Except.ok.inj hfound))
    split
    · exact safe_returns_bind (kept_accrueServer hstart hticked hserver) fun _ _ _ ↦ trivial
    · trivial

end Programs

/-- The charges of the month stay within the cap throughout every run in which each of them is made
after the earlier ones are recorded. -/
theorem within_of_timely (start : BillingRows) (rule : String) (month limit : ℤ)
    (hstart : Uncharged start rule month limit)
    (events : List (SoloEvent Uuid BillingCall.Chance))
    (htimely : Along billingStep (Solo.Allowed (Timely start rule month)) ⟨start, none⟩ events) :
    Throughout billingStep (fun solo ↦ Within start rule month limit solo.shared)
      ⟨start, none⟩ events := by
  have hsound := Solo.throughout_sound
    (fun serverId rows hrows ↦ kept_runServer hstart hrows serverId) events start hstart.kept
    htimely
  exact hsound.mono fun solo hsolo ↦ hsolo.1.books.within solo.shared rfl

namespace CapRuns

def otherId : Uuid :=
  ⟨"00000000-0000-4000-8000-000000000022", .refl true⟩

def otherHoldId : Uuid :=
  ⟨"00000000-0000-4000-8000-000000000002", .refl true⟩

/-- 2025-01-01 00:00 UTC. -/
def anchor : ℤ :=
  1735689600 * Calendar.second

def server (id : Uuid) (key : String) : CloudServer where
  id := id
  userId := HoldRuns.books.wallet.userId
  providerKey := "hetzner"
  state := .running
  providerServerId := some key
  idempotencyKey := some key
  billingStartedAt := some anchor

/-- A price of 60 under a cap of 100. -/
def snapshot (serverId : Uuid) : ServerPriceSnapshot where
  serverId := serverId
  offer := { costMinor := 50, currency := "EUR" }
  sellingMinor := 60
  rule := { provider := "hetzner", plan := "*", location := "*", monthlyCapMinor := some 100 }
  sellingCurrency := "EUR"

def hold (id : Uuid) (key : String) : Hold where
  id := id
  walletId := HoldRuns.books.wallet.id
  amount := 60
  currency := "EUR"
  idempotencyKey := createHoldKey key

/-- Two servers that are just activated. -/
def start : BillingRows where
  books := { HoldRuns.books with
    holds := [hold HoldRuns.holdId "first", hold otherHoldId "other"] }
  servers := [server HoldRuns.holdId "first", server otherId "other"]
  snapshots := [snapshot HoldRuns.holdId, snapshot otherId]
  clock := anchor

def chance : BillingCall.Chance :=
  ⟨0, HoldRuns.holdId⟩

/-- One turn of a server, as far as so many calls. -/
def turn (serverId : Uuid) (calls : ℕ) : List (SoloEvent Uuid BillingCall.Chance) :=
  .start serverId :: List.replicate calls (.advance chance)

/-- The first server is charged and recorded; the other one is beyond the cap. -/
def recorded : List (SoloEvent Uuid BillingCall.Chance) :=
  turn HoldRuns.holdId 15 ++ turn otherId 12

/-- A charge is made before any other. -/
def First (rows : BillingRows) : BillingCall → Prop
  | .adjust _ | .hold (.capture _) =>
    rows.books.ledger = [] ∧ ∀ hold ∈ rows.books.holds, hold.status ≠ .captured
  | _ => True

instance (rows : BillingRows) : (request : BillingCall) → Decidable (First rows request)
  | .adjust _ | .hold (.capture _) => inferInstanceAs (Decidable (_ ∧ _))
  | .now | .server _ | .wallet _ | .snapshot _ | .ledgerEntry .. | .accrual _ | .addAccrual _
  | .monthTotal .. | .saveServer _ | .hold (.create ..) | .hold (.get _)
  | .hold (.getByIdempotency ..) | .hold (.release _) | .hold (.post _) => .isTrue trivial

/-- The run stops between the charge of the first server and its record; the next run charges the
other server. -/
def crash : List (SoloEvent Uuid BillingCall.Chance) :=
  turn HoldRuns.holdId 11 ++ turn otherId 11

end CapRuns

theorem uncharged_start : Uncharged CapRuns.start "hetzner|*|*" CapRuns.anchor 100 where
  serverIds := by decide
  serverKeys := by decide
  ledgerKeys := by decide
  holdIds := by decide
  holdKeys := by decide
  prices := by decide
  records := by decide
  cap := by decide
  limit_nonneg := by decide
  unposted := fun _ hentry ↦ by cases hentry
  uncaptured := by
    have hcreated : ∀ hold ∈ CapRuns.start.books.holds, hold.status ≠ .captured := by decide
    exact fun hold hhold _ ↦ hcreated hold hhold

/-- Before any charge there is none to count. -/
theorem timely_of_first (start rows : BillingRows) (rule : String) (month : ℤ)
    (request : BillingCall) (h : CapRuns.First rows request) :
    Timely start rule month rows request := by
  have hcounted : rows.books.ledger = [] ∧ (∀ hold ∈ rows.books.holds, hold.status ≠ .captured) →
      AllCounted start rule month rows := by
    rintro ⟨hledger, hholds⟩
    refine ⟨fun entry hentry ↦ ?_, fun hold hhold hcaptured ↦ ?_⟩
    · rw [hledger] at hentry
      cases hentry
    · exact absurd hcaptured (hholds hold hhold)
  cases request with
  | adjust call => exact fun _ ↦ hcounted h
  | hold request =>
    cases request with
    | capture holdId => exact fun _ _ _ _ ↦ hcounted h
    | _ => trivial
  | _ => trivial

theorem within_of_timely_recorded :
    ((run billingStep ⟨CapRuns.start, none⟩ CapRuns.recorded).shared.books.wallet.balance = 940) ∧
    Throughout billingStep (fun solo ↦ Within CapRuns.start "hetzner|*|*" CapRuns.anchor 100
      solo.shared) ⟨CapRuns.start, none⟩ CapRuns.recorded := by
  have hfirst : Along billingStep (Solo.Allowed CapRuns.First) ⟨CapRuns.start, none⟩
      CapRuns.recorded := by decide +kernel
  exact ⟨by decide +kernel, within_of_timely CapRuns.start "hetzner|*|*" CapRuns.anchor 100
    uncharged_start CapRuns.recorded
    (hfirst.mono fun _ _ ↦ Solo.Allowed.mono fun _ _ ↦ timely_of_first _ _ _ _ _)⟩

/-- Two charges of 60 under a cap of 100. -/
theorem not_within_of_crash :
    ¬ ∀ (start : BillingRows) (rule : String) (month limit : ℤ), Uncharged start rule month limit →
      ∀ events : List (SoloEvent Uuid BillingCall.Chance),
        Throughout billingStep (fun solo ↦ Within start rule month limit solo.shared)
          ⟨start, none⟩ events := by
  intro h
  have hrun := h CapRuns.start "hetzner|*|*" CapRuns.anchor 100 uncharged_start CapRuns.crash
  rw [throughout_iff_forall_take] at hrun
  have hwithin := hrun CapRuns.crash.length _ (List.Sublist.refl _)
  rw [List.take_length] at hwithin
  have hentries : ∀ entry ∈ (run billingStep ⟨CapRuns.start, none⟩
      CapRuns.crash).shared.books.ledger, entry.entryType = .charge ∧
        ∃ server ∈ CapRuns.start.servers, entry.idempotencyKey = captureKey server := by
    decide +kernel
  have hservers : ∀ server ∈ CapRuns.start.servers,
      (∃ snapshot ∈ CapRuns.start.snapshots, CapRuns.start.snapshot server.id = some snapshot ∧
        ruleKey snapshot.rule = "hetzner|*|*") ∧ truthy server.idempotencyKey ∧
      server.billingStartedAt = some CapRuns.anchor := by
    decide +kernel
  have hsum := hwithin fun entry hentry ↦ by
    obtain ⟨hcharge, server, hserver, hkey⟩ := hentries entry hentry
    obtain ⟨⟨snapshot, -, hsnapshot⟩, htruthy, hanchor⟩ := hservers server hserver
    exact ⟨hcharge, Or.inl ⟨server, ⟨⟨hserver, snapshot, hsnapshot⟩, htruthy, _, hanchor,
      by decide +kernel⟩, hkey⟩⟩
  have hover : ¬ ((run billingStep ⟨CapRuns.start, none⟩
      CapRuns.crash).shared.books.ledger.map (·.amount)).sum ≤ 100 := by
    decide +kernel
  exact hover hsum

end CloudPlatform.Billing
