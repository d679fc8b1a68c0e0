import CloudPlatform.Wallets.CompleteCalls
import CloudPlatform.Wallets.Coverage
import CloudPlatform.Wallets.Reconciliation

/-!
# Does the report fit the ledger?

The report of a wallet is to be clean after any sequence of complete hold service calls, deposits,
charges and refunds, and to name an error once the stored balance is changed. The entries of a hold
stand under keys derived from the hold's key, in the one namespace of all ledger keys, and a
duplicate key counts as "posted by an earlier attempt" without a look at its facts; `adjust` does
not tie the sign of a delta to the entry type. `reconciles_of_accountable` is the condition on the
calls under which the report fits, `not_reconciles_takenKey` a run outside it.
-/

namespace CloudPlatform.Wallets

open Transition Reconciliation

/-! ### Runs of complete calls -/

/-- One complete call on a wallet; the clock and the new ids of a hold service call are its
`chances`. -/
inductive LedgerEvent
  | createHold (walletId : Uuid) (amount : ℤ) (currency key : String)
      (chances : ℕ → HoldCall.Chance)
  | releaseHold (walletId holdId : Uuid) (key : String) (chances : ℕ → HoldCall.Chance)
  | captureHold (walletId holdId : Uuid) (key : String) (chances : ℕ → HoldCall.Chance)
  | creditDeposit (call : DepositCall)
  | adjust (call : AdjustCall)

/-- The rows after one complete call. -/
def LedgerEvent.step (books : Books) : LedgerEvent → Books
  | .createHold walletId amount currency key chances =>
    ((HoldService.createHold walletId amount currency key).eval HoldCall.handle chances books).2
  | .releaseHold walletId holdId key chances =>
    ((HoldService.releaseHold walletId holdId key).eval HoldCall.handle chances books).2
  | .captureHold walletId holdId key chances =>
    ((HoldService.captureHold walletId holdId key).eval HoldCall.handle chances books).2
  | .creditDeposit call => books.settle (Wallets.creditDeposit books call)
  | .adjust call => books.settle (Wallets.adjust books call)

/-- The calls that are spoken of: a hold in the currency of the wallet; a charge or a refund, not an
administrator's, that does not debit below the sum of the CREATED holds. -/
def Ordinary (books : Books) : LedgerEvent → Prop
  | .createHold _ _ currency _ _ => currency = books.wallet.currency
  | .adjust call => call.auditActorId = none ∧
      (call.entryType = .charge ∨ call.entryType = .refund) ∧
      (call.delta < 0 → books.held ≤ books.wallet.balance + call.delta)
  | _ => True

/-- The report is clean, and with any other balance it is not. -/
def Reconciles (status : WalletStatus) (books : Books) : Prop :=
  isClean (report status books) = true ∧
    ∀ balance, balance ≠ books.wallet.balance →
      isClean (report status (books.withBalance balance)) = false

/-! ### The condition -/

/-- A call that ends a hold passes the hold's own wallet and key, and the key of its entry is not
taken by another entry. -/
def EndsOwnHold (books : Books) (walletId : Uuid) (key entryKey : String) (hold : Hold) : Prop :=
  walletId = hold.walletId ∧ key = hold.idempotencyKey ∧
    (hold.status = .created → books.entry entryKey = none)

/-- The condition on one call. -/
def Accountable (status : WalletStatus) (books : Books) : LedgerEvent → Prop
  | .createHold _ amount _ _ _ => 0 < amount
  | .releaseHold walletId holdId key _ =>
    ∀ hold ∈ books.resolved walletId holdId key, hold.status ≠ .captured →
      EndsOwnHold books walletId key (HoldService.releaseKey key) hold
  | .captureHold walletId holdId key _ =>
    ∀ hold ∈ books.resolved walletId holdId key, hold.status ≠ .released →
      EndsOwnHold books walletId key (HoldService.captureKey key) hold
  | .creditDeposit call => books.entry (strip call.idempotencyKey) = none → status ≠ .closed
  | .adjust call => books.entry (strip call.idempotencyKey) = none → status ≠ .closed ∧
      (call.entryType = .charge → call.delta < 0 ∧ call.referenceType ≠ "hold") ∧
      (call.entryType = .refund → 0 < call.delta)

instance (books : Books) (walletId : Uuid) (key entryKey : String) (hold : Hold) :
    Decidable (EndsOwnHold books walletId key entryKey hold) :=
  inferInstanceAs (Decidable (_ ∧ _ ∧ (_ → _)))

instance decidableOrdinary (books : Books) : ∀ event, Decidable (Ordinary books event)
  | .createHold .. => inferInstanceAs (Decidable (_ = _))
  | .releaseHold .. | .captureHold .. | .creditDeposit _ => inferInstanceAs (Decidable True)
  | .adjust _ => inferInstanceAs (Decidable (_ ∧ _ ∧ (_ → _)))

instance decidableAccountable (status : WalletStatus) (books : Books) :
    ∀ event, Decidable (Accountable status books event)
  | .createHold .. => inferInstanceAs (Decidable (_ < _))
  | .releaseHold walletId holdId key _ =>
    inferInstanceAs (Decidable (∀ hold ∈ books.resolved walletId holdId key, _ → _))
  | .captureHold walletId holdId key _ =>
    inferInstanceAs (Decidable (∀ hold ∈ books.resolved walletId holdId key, _ → _))
  | .creditDeposit _ => inferInstanceAs (Decidable (_ → _))
  | .adjust _ => inferInstanceAs (Decidable (_ → _ ∧ (_ → _) ∧ (_ → _)))

/-! ### What the calls keep -/

/-- The state that an entry wants of the hold that it references. -/
def LedgerEntryType.settles : LedgerEntryType → Option HoldStatus
  | .charge => some .captured
  | .release => some .released
  | _ => none

/-- The entry references a hold in the state that it wants. -/
def SettlesHold (holds : List Hold) (entry : LedgerEntry) : Prop :=
  entry.referenceType = some "hold" → ∀ status, entry.entryType.settles = some status →
    ∃ hold ∈ holds, entry.referenceId = some hold.id ∧ hold.status = status

/-- The rows of a wallet whose report fits. -/
structure Settled (status : WalletStatus) (books : Books) : Prop where
  keyed : Keyed books
  sound : HoldsSound books
  nonneg : 0 ≤ books.wallet.balance
  covered : books.held ≤ books.wallet.balance
  closed : status = .closed → books.wallet.balance = 0
  holdCurrency : ∀ hold ∈ books.holds, hold.currency = books.wallet.currency
  entries : SoundEntries books.wallet.currency books.ledger
  plain : ∀ entry ∈ books.ledger, entry.entryType ≠ .adjustment
  holds : ∀ hold ∈ books.holds, PairedHold (books.ledger.map (·.idempotencyKey)) hold
  references : ∀ entry ∈ books.ledger, SettlesHold books.holds entry
  net : books.wallet.balance = ledgerNet books.ledger

/-- An entry that a wallet in one currency may post. -/
structure OrdinaryEntry (books : Books) (entry : LedgerEntry) : Prop where
  fresh : books.entry entry.idempotencyKey = none
  amount : entry.amount ≠ 0
  currency : entry.currency = books.wallet.currency
  type : entry.entryType ≠ .adjustment ∧ entry.entryType ≠ .currencyClose ∧
    entry.entryType ≠ .currencyOpen

section Step

variable {status : WalletStatus} {books after : Books} {entry : LedgerEntry}

theorem settled_empty (status : WalletStatus) (id userId : Uuid) (currency : String) :
    Settled status (Books.empty id userId currency) where
  keyed := ⟨List.nodup_nil, List.nodup_nil, fun _ h ↦ absurd h List.not_mem_nil⟩
  sound := (solvent_empty id userId currency).1
  nonneg := le_rfl
  covered := le_rfl
  closed _ := rfl
  holdCurrency _ h := absurd h List.not_mem_nil
  entries := ⟨List.nodup_nil, fun _ h ↦ absurd h List.not_mem_nil,
    fun _ h ↦ absurd h List.not_mem_nil, fun _ h ↦ absurd h List.not_mem_nil⟩
  plain _ h := absurd h List.not_mem_nil
  holds _ h := absurd h List.not_mem_nil
  references _ h := absurd h List.not_mem_nil
  net := rfl

variable {hold : Hold} {chances : ℕ → HoldCall.Chance}

/-- The id of a hold leads an entry back to it. -/
theorem resolveHold_eq {holds : List Hold} (hids : (holds.map (·.id)).Nodup) (hmem : hold ∈ holds)
    (hreference : entry.referenceId = some hold.id) : resolveHold entry holds = some hold := by
  have htext : entry.referenceText = hold.id.text := by
    rw [LedgerEntry.referenceText, hreference]
    rfl
  unfold resolveHold
  rw [htext]
  cases hfound : holds.find? (·.id.text = hold.id.text) with
  | none =>
    rw [List.find?_eq_none] at hfound
    exact absurd (decide_eq_true rfl) (hfound hold hmem)
  | some found =>
    have hsame : found.id = hold.id :=
      Uuid.text_injective (of_decide_eq_true (List.find?_some (p := fun other : Hold ↦
        decide (other.id.text = hold.id.text)) hfound))
    have heq : found = hold :=
      List.inj_on_of_nodup_map hids (List.mem_of_find?_eq_some hfound) hmem hsame
    rw [heq, Option.some_or]

theorem Settled.pairedEntry (h : Settled status books) (hentry : entry ∈ books.ledger) :
    PairedEntry books.holds entry := by
  have hsettles : ∀ wanted, entry.referenceType.getD "" = "hold" →
      entry.entryType.settles = some wanted →
      ∃ hold, resolveHold entry books.holds = some hold ∧ hold.status = wanted := by
    intro wanted hreference hwanted
    have hhold : entry.referenceType = some "hold" := by
      cases hcase : entry.referenceType with
      | none => rw [hcase] at hreference; exact absurd hreference (by decide)
      | some text => rw [hcase] at hreference; exact congrArg some hreference
    obtain ⟨hold, hmem, hid, hstatus⟩ := h.references entry hentry hhold wanted hwanted
    exact ⟨hold, resolveHold_eq h.keyed.ids hmem hid, hstatus⟩
  constructor
  · intro hreference htype
    exact hsettles .captured hreference (by rw [htype]; rfl)
  · intro hreference htype
    exact hsettles .released hreference (by rw [htype]; rfl)

/-- Settled rows reconcile. -/
theorem Settled.reconciles (h : Settled status books) : Reconciles status books := by
  constructor
  · exact isClean_report.mpr {
      nonneg := h.nonneg
      covered := h.covered
      closed := h.closed
      holdCurrency := h.holdCurrency
      entries := h.entries
      holds := h.holds
      references := fun entry hentry ↦ h.pairedEntry hentry
      derived := .inl h.net }
  · intro balance hbalance
    by_contra hclean
    have hderived := (isClean_report.mp (Bool.not_eq_false _ ▸ hclean)).derived
    rw [Books.withBalance_balance, Books.withBalance_ledger, ← h.net,
      adjustmentTotal_eq_zero h.plain] at hderived
    rcases hderived with hsame | habs
    · exact hbalance hsame
    · exact hbalance (sub_eq_zero.mp (abs_nonpos_iff.mp habs))

/-- An ordinary entry keeps the entries sound. -/
theorem OrdinaryEntry.sound (h : OrdinaryEntry books entry)
    (hentries : SoundEntries books.wallet.currency books.ledger) :
    SoundEntries books.wallet.currency (books.ledger ++ [entry]) := by
  have hfresh := Books.entry_eq_none.mp h.fresh
  refine ⟨?_, ?_, ?_, ?_⟩
  · rw [List.map_append]
    refine List.nodup_append.mpr ⟨hentries.keys, List.nodup_singleton _, ?_⟩
    rintro key hkey other hother rfl
    obtain ⟨earlier, hearlier, hsame⟩ := List.mem_map.mp hkey
    exact hfresh earlier hearlier (hsame.trans (List.mem_singleton.mp hother))
  · exact List.forall_mem_append.mpr ⟨hentries.amounts, List.forall_mem_singleton.mpr h.amount⟩
  · exact List.forall_mem_append.mpr
      ⟨hentries.currencies, List.forall_mem_singleton.mpr h.currency⟩
  · exact List.forall_mem_append.mpr ⟨hentries.types, List.forall_mem_singleton.mpr h.type.2⟩

/-- Posting an ordinary entry that references no terminal hold, and moving the balance by its net,
keeps settled rows settled. -/
theorem Settled.post (h : Settled status books) (hentry : OrdinaryEntry books entry)
    (hreference : SettlesHold books.holds entry) (hwallet : after.wallet =
      { books.wallet with balance := books.wallet.balance + entry.net })
    (hledger : after.ledger = books.ledger ++ [entry]) (hholds : after.holds = books.holds)
    (hcovered : books.held ≤ books.wallet.balance + entry.net)
    (hnonneg : 0 ≤ books.wallet.balance + entry.net)
    (hclosed : status = .closed → entry.net = 0) : Settled status after where
  keyed := h.keyed.congr hholds (by rw [hwallet])
  sound := ⟨hholds ▸ h.sound.ids_nodup, hholds ▸ h.sound.positive⟩
  nonneg := by rw [hwallet]; exact hnonneg
  covered := by
    rw [Books.held, Books.activeHolds, hholds, hwallet]
    exact hcovered
  closed hstatus := by
    rw [hwallet, hclosed hstatus, add_zero]
    exact h.closed hstatus
  holdCurrency := by
    rw [hholds, hwallet]
    exact h.holdCurrency
  entries := by
    rw [hledger, hwallet]
    exact hentry.sound h.entries
  plain := by
    rw [hledger]
    exact List.forall_mem_append.mpr ⟨h.plain, List.forall_mem_singleton.mpr hentry.type.1⟩
  holds := by
    rw [hholds, hledger, List.map_append]
    exact fun hold hhold ↦ (h.holds hold hhold).mono fun _ ↦ List.mem_append_left _
  references := by
    rw [hholds, hledger]
    exact List.forall_mem_append.mpr ⟨h.references, List.forall_mem_singleton.mpr hreference⟩
  net := by rw [hwallet, hledger, ledgerNet_append, ← h.net]

/-- A new hold that free balance covers. -/
theorem Settled.create (h : Settled status books) (hpositive : 0 < hold.amount)
    (hcreated : hold.status = .created) (howned : hold.walletId = books.wallet.id)
    (hcurrency : hold.currency = books.wallet.currency)
    (hfree : hold.amount ≤ books.wallet.balance - books.held) (hid : books.hold hold.id = none)
    (hkey : books.holdByKey books.wallet.id hold.idempotencyKey = none) :
    Settled status { books with holds := books.holds ++ [hold] } := by
  have hfreshId : ∀ other ∈ books.holds, other.id ≠ hold.id := by
    simpa [Books.hold] using hid
  have hfreshKey : ∀ other ∈ books.holds, other.idempotencyKey ≠ hold.idempotencyKey := by
    intro other hother hsame
    simp only [Books.holdByKey, List.find?_eq_none, decide_eq_true_eq] at hkey
    exact hkey other hother ⟨h.keyed.owned other hother, hsame⟩
  have hids := nodup_append_of_forall h.keyed.ids hfreshId
  exact {
    keyed := ⟨hids, nodup_append_of_forall h.keyed.keys hfreshKey,
      List.forall_mem_append.mpr ⟨h.keyed.owned, List.forall_mem_singleton.mpr howned⟩⟩
    sound := ⟨hids,
      List.forall_mem_append.mpr ⟨h.sound.positive, List.forall_mem_singleton.mpr hpositive⟩⟩
    nonneg := h.nonneg
    covered := by
      have hsum : activeSum (books.holds ++ [hold]) = books.held + hold.amount := by
        rw [activeSum_append]
        simp [activeSum, hcreated, Books.held, Books.activeHolds]
      change activeSum (books.holds ++ [hold]) ≤ books.wallet.balance
      rw [hsum]
      linarith
    closed := h.closed
    holdCurrency := List.forall_mem_append.mpr
      ⟨h.holdCurrency, List.forall_mem_singleton.mpr hcurrency⟩
    entries := h.entries
    plain := h.plain
    holds := List.forall_mem_append.mpr ⟨h.holds, List.forall_mem_singleton.mpr
      ⟨fun hcaptured ↦ (by cases hcreated.symm.trans hcaptured),
        fun hreleased ↦ (by cases hcreated.symm.trans hreleased)⟩⟩
    references := fun entry hentry hreference wanted hwanted ↦ by
      obtain ⟨other, hother, hfound⟩ := h.references entry hentry hreference wanted hwanted
      exact ⟨other, List.mem_append_left _ hother, hfound⟩
    net := h.net }

/-- A CREATED hold becomes terminal, its entry is posted, and the balance moves by the net of that
entry. -/
theorem Settled.finish (h : Settled status books) (changed : Hold) {balance : ℤ}
    (hmem : hold ∈ books.holds) (hcreated : hold.status = .created) (hid : changed.id = hold.id)
    (hamount : changed.amount = hold.amount) (hkey : changed.idempotencyKey = hold.idempotencyKey)
    (hwallet : changed.walletId = hold.walletId) (hcurrency : changed.currency = hold.currency)
    (hterminal : changed.status ≠ .created) (hentry : OrdinaryEntry books entry)
    (hpaired : PairedHold [entry.idempotencyKey] changed)
    (hreference : entry.referenceId = some hold.id)
    (hsettles : entry.entryType.settles = some changed.status)
    (hbalance : balance = books.wallet.balance + entry.net)
    (hspent : books.held - hold.amount ≤ balance) :
    Settled status { (books.withBalance balance).setHold changed with
      ledger := books.ledger ++ [entry] } := by
  have hkeyed := h.keyed.setHold hmem hid hkey hwallet
  have hheld : (books.setHold changed).held = books.held - hold.amount :=
    held_setHold h.sound hmem changed hid hcreated hterminal
  have hsound := h.sound.setHold hmem hamount
  have hother : ∀ other ∈ (books.setHold changed).holds,
      other = changed ∨ other ∈ books.holds := by
    intro other hother
    obtain ⟨earlier, hearlier, rfl⟩ := List.mem_map.mp hother
    by_cases hsame : earlier.id = changed.id
    · rw [if_pos hsame]
      exact Or.inl rfl
    · rw [if_neg hsame]
      exact Or.inr hearlier
  have hchanged : changed ∈ (books.setHold changed).holds :=
    List.mem_map.mpr ⟨hold, hmem, if_pos hid.symm⟩
  have hheldHold := amount_le_held h.sound hmem hcreated
  have hamounts : 0 ≤ books.held - hold.amount := sub_nonneg.mpr hheldHold
  have hclosed : status ≠ .closed := by
    intro hstatus
    have hzero := h.closed hstatus
    have hpositive := h.sound.positive hold hmem
    have hcovered := h.covered
    linarith
  exact {
    keyed := hkeyed.congr rfl rfl
    sound := ⟨hsound.ids_nodup, hsound.positive⟩
    nonneg := hamounts.trans hspent
    covered := hheld.trans_le hspent
    closed := fun hstatus ↦ absurd hstatus hclosed
    holdCurrency := fun other hmemOther ↦ by
      rcases hother other hmemOther with rfl | hearlier
      · exact hcurrency.trans (h.holdCurrency hold hmem)
      · exact h.holdCurrency other hearlier
    entries := hentry.sound h.entries
    plain := List.forall_mem_append.mpr ⟨h.plain, List.forall_mem_singleton.mpr hentry.type.1⟩
    holds := fun other hmemOther ↦ by
      rw [List.map_append]
      rcases hother other hmemOther with rfl | hearlier
      · exact hpaired.mono fun _ ↦ List.mem_append_right _
      · exact (h.holds other hearlier).mono fun _ ↦ List.mem_append_left _
    references := fun posted hposted href wanted hwanted ↦ by
      rcases List.mem_append.mp hposted with hearlier | hnew
      · obtain ⟨found, hfound, hfoundId, hfoundStatus⟩ :=
          h.references posted hearlier href wanted hwanted
        have hne : found.id ≠ changed.id := by
          intro hsame
          have heq : found = hold :=
            List.inj_on_of_nodup_map h.keyed.ids hfound hmem (hsame.trans hid)
          rw [heq, hcreated] at hfoundStatus
          rw [← hfoundStatus] at hwanted
          cases htype : posted.entryType <;> rw [htype] at hwanted <;> cases hwanted
        exact ⟨found, List.mem_map.mpr ⟨found, hfound, if_neg hne⟩, hfoundId, hfoundStatus⟩
      · obtain rfl := List.mem_singleton.mp hnew
        have hstatus : changed.status = wanted := Option.some.inj (hsettles.symm.trans hwanted)
        exact ⟨changed, hchanged, by rw [hreference, hid], hstatus⟩
    net := by
      change balance = ledgerNet (books.ledger ++ [entry])
      rw [hbalance, ledgerNet_append, ← h.net] }

/-! ### One call -/

/-- The posting of a `HOLD` entry, under a new key or not. -/
theorem Settled.postHold (h : Settled status books) {amount : ℤ} {walletId : Uuid}
    {currency key : String} (hwallet : books.wallet.id = walletId) (hpositive : 0 < amount)
    (hcurrency : currency = books.wallet.currency) :
    Settled status (postEntry books (createEntry walletId hold amount currency key)).1 := by
  have hreference := optionalUuid_text hold.id
  cases hfound : books.entry (createEntry walletId hold amount currency key).idempotencyKey with
  | some entry =>
    obtain ⟨raised, -, hposted⟩ := @postEntry_duplicate _
      (createEntry walletId hold amount currency key) _ _ hreference hwallet hfound
    rw [hposted]
    exact h
  | none =>
    have hposted := @postEntry_new _ (createEntry walletId hold amount currency key) _ hreference
      hwallet hfound
    rw [hposted]
    have hentry : OrdinaryEntry books
        ((createEntry walletId hold amount currency key).row (some hold.id)) := {
      fresh := hfound
      amount := hpositive.ne'
      currency := hcurrency
      type := ⟨nofun, nofun, nofun⟩ }
    refine h.post hentry (fun _ wanted hwanted ↦ nomatch hwanted) ?_ rfl rfl ?_ ?_ fun _ ↦ rfl
    · exact congrArg (fun balance ↦ { books.wallet with balance := balance }) (add_zero _).symm
    · exact h.covered.trans (add_zero _).ge
    · exact h.nonneg.trans (add_zero _).ge

/-- `create_hold` keeps settled rows settled. -/
theorem Settled.createHold (h : Settled status books) {walletId : Uuid} {amount : ℤ}
    {currency key : String} (hcurrency : currency = books.wallet.currency) (hpositive : 0 < amount) :
    
    Settled status (LedgerEvent.step books (.createHold walletId amount currency key chances)) := by
  unfold LedgerEvent.step
  dsimp only
  rcases createHold_leaves walletId amount currency key chances books with
    hsame | ⟨mid, hold, hcreate, hafter⟩
  · rw [hsame]
    exact h
  · rw [hafter]
    rcases createHold_eq_ok hcreate with
      ⟨rfl, hfound⟩ | ⟨-, rfl, hfree, hkey, hid, rfl, rfl⟩
    · obtain ⟨hfound, -⟩ := Option.filter_eq_some_iff.mp hfound
      obtain ⟨hmem, hwallet, -⟩ := mem_of_holdByKey hfound
      exact h.postHold ((h.keyed.owned hold hmem).symm.trans hwallet) hpositive hcurrency
    · exact (h.create hpositive rfl rfl hcurrency hfree hid hkey).postHold rfl hpositive hcurrency

/-- `release_hold` of a hold under its own key keeps settled rows settled. -/
theorem Settled.releaseHold (h : Settled status books) {walletId holdId : Uuid} {key : String}
    (hown : ∀ hold ∈ books.resolved walletId holdId key, hold.status ≠ .captured →
      EndsOwnHold books walletId key (HoldService.releaseKey key) hold) :
    Settled status (LedgerEvent.step books (.releaseHold walletId holdId key chances)) := by
  unfold LedgerEvent.step
  dsimp only
  rcases releaseHold_leaves h.keyed.ids walletId holdId key chances with
    hsame | ⟨hold, mid, hresolved, hreleased, hafter⟩
  · rw [hsame]
    exact h
  · rw [hafter]
    have hmem := mem_of_resolved hresolved
    have hreference := optionalUuid_text hold.id
    have howned := h.keyed.owned hold hmem
    cases hreleased with
    | already hstatus =>
      obtain ⟨rfl, rfl, -⟩ := hown hold hresolved (by rw [hstatus]; nofun)
      have hkey := (h.holds hold hmem).released hstatus
      obtain ⟨entry, hentry⟩ := Option.ne_none_iff_exists'.mp fun hnone ↦ by
        obtain ⟨posted, hposted, hsame⟩ := List.mem_map.mp hkey
        exact Books.entry_eq_none.mp hnone posted hposted hsame
      obtain ⟨raised, -, hposted⟩ := @postEntry_duplicate _
        (releaseEntry hold.walletId hold hold.idempotencyKey) _ _ hreference howned.symm hentry
      rw [hposted]
      exact h
    | now now hcreated =>
      obtain ⟨rfl, rfl, hfree⟩ := hown hold hresolved (by rw [hcreated]; nofun)
      have hnone := hfree hcreated
      have hposted := @postEntry_new
        (books.setHold { hold with status := .released, releasedAt := some now })
        (releaseEntry hold.walletId hold hold.idempotencyKey) _ hreference howned.symm hnone
      rw [hposted]
      refine h.finish { hold with status := .released, releasedAt := some now } hmem hcreated
        rfl rfl rfl rfl rfl nofun ?_ ?_ rfl rfl (add_zero _).symm ?_
      · exact {
          fresh := hnone
          amount := (h.sound.positive hold hmem).ne'
          currency := h.holdCurrency hold hmem
          type := ⟨nofun, nofun, nofun⟩ }
      · exact ⟨nofun, fun _ ↦ List.mem_singleton_self _⟩
      · have hpositive := h.sound.positive hold hmem
        have hcovered := h.covered
        linarith

/-- `capture_hold` of a hold under its own key keeps settled rows settled. -/
theorem Settled.captureHold (h : Settled status books) {walletId holdId : Uuid} {key : String}
    (hown : ∀ hold ∈ books.resolved walletId holdId key, hold.status ≠ .released →
      EndsOwnHold books walletId key (HoldService.captureKey key) hold) :
    Settled status (LedgerEvent.step books (.captureHold walletId holdId key chances)) := by
  unfold LedgerEvent.step
  dsimp only
  rcases captureHold_leaves h.keyed.ids walletId holdId key chances with
    hsame | ⟨hold, mid, hresolved, hcaptured, hafter⟩
  · rw [hsame]
    exact h
  · rw [hafter]
    have hmem := mem_of_resolved hresolved
    have hreference := optionalUuid_text hold.id
    have howned := h.keyed.owned hold hmem
    cases hcaptured with
    | already hstatus =>
      obtain ⟨rfl, rfl, -⟩ := hown hold hresolved (by rw [hstatus]; nofun)
      have hkey := (h.holds hold hmem).captured hstatus
      obtain ⟨entry, hentry⟩ := Option.ne_none_iff_exists'.mp fun hnone ↦ by
        obtain ⟨posted, hposted, hsame⟩ := List.mem_map.mp hkey
        exact Books.entry_eq_none.mp hnone posted hposted hsame
      obtain ⟨raised, -, hposted⟩ := @postEntry_duplicate _
        (captureEntry hold.walletId hold hold.idempotencyKey) _ _ hreference howned.symm hentry
      rw [hposted]
      exact h
    | debited now hcreated hcoveredHold =>
      obtain ⟨rfl, rfl, hfree⟩ := hown hold hresolved (by rw [hcreated]; nofun)
      have hnone := hfree hcreated
      have hposted := @postEntry_new
        ((books.withBalance (books.wallet.balance - hold.amount)).setHold
          { hold with status := .captured, capturedAt := some now })
        (captureEntry hold.walletId hold hold.idempotencyKey) _ hreference howned.symm hnone
      rw [hposted]
      refine h.finish { hold with status := .captured, capturedAt := some now } hmem hcreated
        rfl rfl rfl rfl rfl nofun ?_ ?_ rfl rfl (sub_eq_add_neg _ _) ?_
      · exact {
          fresh := hnone
          amount := (h.sound.positive hold hmem).ne'
          currency := h.holdCurrency hold hmem
          type := ⟨nofun, nofun, nofun⟩ }
      · exact ⟨fun _ ↦ List.mem_singleton_self _, nofun⟩
      · exact sub_le_sub_right h.covered _

/-- A deposit to a wallet that is not closed keeps settled rows settled. -/
theorem Settled.creditDeposit (h : Settled status books) {call : DepositCall}
    (hopen : books.entry (strip call.idempotencyKey) = none → status ≠ .closed) :
    Settled status (LedgerEvent.step books (.creditDeposit call)) := by
  unfold LedgerEvent.step
  dsimp only
  rcases settle_cases books (Wallets.creditDeposit books call) with
    ⟨after, result, hcredit, hstep⟩ | hstep
  · rw [hstep]
    obtain ⟨hpositive, ⟨-, rfl, -⟩ | ⟨-, hposted⟩⟩ := creditDeposit_eq_ok hcredit
    · exact h
    · have hentry : OrdinaryEntry books
          (depositEntry books.wallet (strip call.idempotencyKey) call) := {
        fresh := hposted.fresh
        amount := hpositive.ne'
        currency := rfl
        type := ⟨nofun, nofun, nofun⟩ }
      have hcovered := h.covered
      have hnonneg := h.nonneg
      refine h.post hentry (fun _ wanted hwanted ↦ nomatch hwanted) hposted.wallet hposted.ledger
        hposted.holds ?_ ?_ fun hclosed ↦ absurd hclosed (hopen hposted.fresh)
      · change books.held ≤ books.wallet.balance + call.amount
        linarith
      · change 0 ≤ books.wallet.balance + call.amount
        linarith
  · rw [hstep]
    exact h

/-- A charge that debits, or a refund that credits, keeps settled rows settled. -/
theorem Settled.adjust (h : Settled status books) {call : AdjustCall}
    (hordinary : Ordinary books (.adjust call))
    (haccountable : Accountable status books (.adjust call)) :
    Settled status (LedgerEvent.step books (.adjust call)) := by
  obtain ⟨-, htype, hspares⟩ := hordinary
  unfold LedgerEvent.step
  dsimp only
  rcases settle_cases books (Wallets.adjust books call) with
    ⟨after, result, hadjust, hstep⟩ | hstep
  · rw [hstep]
    rcases adjust_eq_ok hadjust with ⟨-, rfl, -⟩ | ⟨-, hdelta, -, -, referenceId, -, hposted⟩
    · exact h
    · obtain ⟨hopen, hcharge, hrefund⟩ := haccountable hposted.fresh
      have hcovered := h.covered
      have hheld : books.held ≤ books.wallet.balance + call.delta := by
        by_cases hdebit : call.delta < 0
        · exact hspares hdebit
        · linarith [not_lt.mp hdebit]
      have hheldNonneg : 0 ≤ books.held := by
        refine List.sum_nonneg fun amount hamount ↦ ?_
        obtain ⟨hold, hhold, rfl⟩ := List.mem_map.mp hamount
        exact (h.sound.positive hold (List.mem_of_mem_filter hhold)).le
      have hnet : (adjustEntry books.wallet (strip call.idempotencyKey) call referenceId).net =
          call.delta := by
        unfold LedgerEntry.net adjustEntry
        rcases htype with htype | htype
        · rw [htype]
          have hdebit := (hcharge htype).1
          change -(call.delta.natAbs : ℤ) = call.delta
          omega
        · rw [htype]
          have hcredit := hrefund htype
          change (call.delta.natAbs : ℤ) = call.delta
          omega
      have hentry : OrdinaryEntry books
          (adjustEntry books.wallet (strip call.idempotencyKey) call referenceId) := {
        fresh := hposted.fresh
        amount := Int.natCast_ne_zero.mpr (Int.natAbs_ne_zero.mpr hdelta)
        currency := rfl
        type := by
          change call.entryType ≠ _ ∧ call.entryType ≠ _ ∧ call.entryType ≠ _
          rcases htype with htype | htype <;> rw [htype] <;> exact ⟨nofun, nofun, nofun⟩ }
      have hreference : SettlesHold books.holds
          (adjustEntry books.wallet (strip call.idempotencyKey) call referenceId) := by
        intro hhold wanted hwanted
        change call.entryType.settles = some wanted at hwanted
        change (if call.referenceType = "" then none else some call.referenceType) = _ at hhold
        rcases htype with htype | htype
        · have hnot := (hcharge htype).2
          split_ifs at hhold
          exact absurd (Option.some.inj hhold) hnot
        · rw [htype] at hwanted
          cases hwanted
      refine h.post hentry hreference ?_ hposted.ledger hposted.holds ?_ ?_
        fun hclosed ↦ absurd hclosed hopen
      · rw [hnet]
        exact hposted.wallet
      · rw [hnet]
        exact hheld
      · rw [hnet]
        exact hheldNonneg.trans hheld
  · rw [hstep]
    exact h

/-- An ordinary and accountable call keeps settled rows settled. -/
theorem Settled.step (h : Settled status books) (event : LedgerEvent)
    (hevent : Ordinary books event ∧ Accountable status books event) :
    Settled status (event.step books) := by
  obtain ⟨hordinary, haccountable⟩ := hevent
  cases event with
  | createHold walletId amount currency key chances => exact h.createHold hordinary haccountable
  | releaseHold walletId holdId key chances => exact h.releaseHold haccountable
  | captureHold walletId holdId key chances => exact h.captureHold haccountable
  | creditDeposit call => exact h.creditDeposit haccountable
  | adjust call => exact h.adjust hordinary haccountable

end Step

/-! ### Runs -/

/-- Whatever ordinary calls a new wallet meets, as long as they are accountable its report fits in
every state. -/
theorem reconciles_of_accountable (status : WalletStatus) (id userId : Uuid) (currency : String)
    (events : List LedgerEvent)
    (hordinary : Along LedgerEvent.step Ordinary (Books.empty id userId currency) events)
    (haccountable : Along LedgerEvent.step (Accountable status)
      (Books.empty id userId currency) events) :
    Throughout LedgerEvent.step (Reconciles status) (Books.empty id userId currency) events := by
  have hstep : ∀ books event, Settled status books →
      Ordinary books event ∧ Accountable status books event →
      Settled status (LedgerEvent.step books event) := fun _ event h hevent ↦ h.step event hevent
  have hsettled := throughout_of_along hstep events (Books.empty id userId currency)
    (settled_empty status id userId currency) (hordinary.and haccountable)
  exact hsettled.mono fun _ h ↦ h.reconciles

namespace SampleLedger

/-- The key that a call passes. -/
def key : LedgerEvent → String
  | .createHold _ _ _ key _ | .releaseHold _ _ key _ | .captureHold _ _ key _ => key
  | .creditDeposit call => call.idempotencyKey
  | .adjust call => call.idempotencyKey

def start : Books := Books.empty sampleWallet sampleUser "IRT"

def deposit (key : String) : LedgerEvent :=
  .creditDeposit { userId := sampleUser, amount := 100, idempotencyKey := key }

def reserve : LedgerEvent :=
  .createHold sampleWallet 40 "IRT" "server-create:1" fun _ ↦ ⟨0, sampleHold⟩

def capture (key : String) : LedgerEvent :=
  .captureHold sampleWallet sampleHold key fun _ ↦ ⟨1, sampleHold⟩

def accrue : LedgerEvent :=
  .adjust {
    userId := sampleUser
    delta := -10
    idempotencyKey := "accrual:1"
    entryType := .charge
    referenceType := "server" }

/-- A deposit, an hourly charge and a captured hold. -/
def settledLedger : List LedgerEvent :=
  [deposit "payment:1", reserve, accrue, capture "server-create:1"]

theorem reconciles_settledLedger :
    Throughout LedgerEvent.step (Reconciles .active) start settledLedger :=
  reconciles_of_accountable .active sampleWallet sampleUser "IRT" settledLedger
    (by decide +kernel) (by decide +kernel)

/-- The deposit stands under the key of the charge of the hold. -/
def takenKey : List LedgerEvent :=
  [deposit "capture-server-create:1", reserve, capture "server-create:1"]

/-- The capture passes a key of its own. -/
def otherKey : List LedgerEvent :=
  [deposit "payment:1", reserve, capture "capture:1"]

/-- The codes of the ERROR findings in the last state of a run. -/
def errorsAfter (events : List LedgerEvent) : List FindingCode :=
  ((report .active (run LedgerEvent.step start events)).filter (·.severity = .error)).map (·.code)

/-- A hold is captured without a charge of its own: the balance has no ledger to explain it, or the
charge is missing. -/
theorem not_reconciles_takenKey :
    Along LedgerEvent.step Ordinary start takenKey ∧
      errorsAfter takenKey = [.balanceLedgerMismatch] ∧
      Along LedgerEvent.step Ordinary start otherKey ∧
      errorsAfter otherKey = [.capturedHoldMissingCharge] ∧
      ¬ ∀ status id userId currency events, (events.map key).Nodup →
        Along LedgerEvent.step Ordinary (Books.empty id userId currency) events →
        Throughout LedgerEvent.step (Reconciles status) (Books.empty id userId currency)
          events := by
  refine ⟨by decide +kernel, by decide +kernel, by decide +kernel, by decide +kernel, fun h ↦ ?_⟩
  have hall := h .active sampleWallet sampleUser "IRT" otherKey (by decide) (by decide +kernel)
  have hlast := (throughout_iff_forall_take _ _ _ _).mp hall 3
  have hdirty : isClean (report .active (run LedgerEvent.step start otherKey)) = false := by
    decide +kernel
  exact absurd hlast.1 (ne_true_of_eq_false hdirty)

end SampleLedger

end CloudPlatform.Wallets
