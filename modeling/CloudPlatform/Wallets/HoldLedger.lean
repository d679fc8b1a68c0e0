import CloudPlatform.Wallets.HoldService

/-!
# The ledger entries of a hold

Any number of callers create, release and capture one hold under its idempotency key, their
repository calls in any order. The capture key stands in the ledger only for a captured hold whose
amount left the wallet, and the release key only for a released one, in every run in which no
caller's release comes upon a captured hold and no capture upon a released one
(`agrees_of_timely`). A release that loses that race keeps its stale copy of the hold and posts its
entry all the same.
-/

namespace CloudPlatform.Wallets

open Transition

/-- A call of the hold service on the hold of a key. -/
inductive ServiceCall
  | create (amount : ℤ) (currency : String)
  | release (holdId : Uuid)
  | capture (holdId : Uuid)

/-- The program of a call. -/
def ServiceCall.program (walletId : Uuid) (key : String) : ServiceCall → HoldProgram Unit
  | .create amount currency => do let _ ← HoldService.createHold walletId amount currency key
  | .release holdId => do let _ ← HoldService.releaseHold walletId holdId key
  | .capture holdId => do let _ ← HoldService.captureHold walletId holdId key

/-- One event of the callers: a call starts, or makes its next repository call. -/
abbrev serviceStep (walletId : Uuid) (key : String) :
    Pool Raised HoldCall HoldCall.Out Books → PoolEvent ServiceCall HoldCall.Chance →
      Pool Raised HoldCall HoldCall.Out Books :=
  Pool.step (fun _ ↦ HoldCall.handle) (ServiceCall.program walletId key)

open HoldService (captureKey releaseKey)

/-- Nothing stands under the key yet. -/
structure Unused (start : Books) (key : String) : Prop where
  hold : start.holdByKey start.wallet.id key = none
  charge : start.entry (captureKey key) = none
  release : start.entry (releaseKey key) = none

/-- The call names no hold of another key. -/
def Names (start : Books) : ServiceCall → Prop
  | .create .. => True
  | .release holdId => start.hold holdId = none
  | .capture holdId => start.hold holdId = none

instance (start : Books) : DecidablePred (Names start)
  | .create .. => .isTrue trivial
  | .release holdId => inferInstanceAs (Decidable (start.hold holdId = none))
  | .capture holdId => inferInstanceAs (Decidable (start.hold holdId = none))

/-- The charge and the release in the ledger agree with the hold and with the balance. -/
structure Agrees (start : Books) (key : String) (books : Books) : Prop where
  charge : ∀ entry, books.entry (captureKey key) = some entry →
    ∃ hold, books.holdByKey start.wallet.id key = some hold ∧ hold.status = .captured ∧
      entry.amount = hold.amount ∧
      books.wallet.balance = start.wallet.balance - hold.amount
  release : ∀ entry, books.entry (releaseKey key) = some entry →
    ∃ hold, books.holdByKey start.wallet.id key = some hold ∧ hold.status = .released ∧
      entry.amount = hold.amount
  exclusive : books.entry (captureKey key) = none ∨ books.entry (releaseKey key) = none

/-- A release does not come upon a captured hold, nor a capture upon a released one. -/
def Timely (books : Books) : HoldCall → Prop
  | .release holdId => (books.hold holdId).all (·.status ≠ .captured)
  | .capture holdId => (books.hold holdId).all (·.status ≠ .released)
  | _ => True

instance (books : Books) : DecidablePred (Timely books)
  | .release _ => inferInstanceAs (Decidable (_ = true))
  | .capture _ => inferInstanceAs (Decidable (_ = true))
  | .create .. => .isTrue trivial
  | .get _ => .isTrue trivial
  | .getByIdempotency .. => .isTrue trivial
  | .post _ => .isTrue trivial

/-! ### The invariant -/

/-- What the hold has taken from the wallet. -/
def debit : Option Hold → ℤ
  | none => 0
  | some hold => if hold.status = .captured then hold.amount else 0

/-- The rows of a wallet whose hold under the key is `own`, if there is one yet. -/
structure Kept (start : Books) (key : String) (own : Option Hold) (books : Books) : Prop where
  holds : books.holds = start.holds ++ own.toList
  wallet : books.wallet = { start.wallet with balance := start.wallet.balance - debit own }
  named : ∀ hold, own = some hold → hold.walletId = start.wallet.id ∧
    hold.idempotencyKey = key ∧ start.hold hold.id = none
  charge : ∀ entry, books.entry (captureKey key) = some entry →
    ∃ hold, own = some hold ∧ hold.status = .captured ∧ entry.amount = hold.amount
  release : ∀ entry, books.entry (releaseKey key) = some entry →
    ∃ hold, own = some hold ∧ hold.status = .released ∧ entry.amount = hold.amount

/-- What every caller leaves to the others: a hold stays, and a terminal one stays as it is. -/
def Lasts (start : Books) (key : String) (before after : Books) : Prop :=
  ∀ hold, before.holdByKey start.wallet.id key = some hold →
    ∃ later, after.holdByKey start.wallet.id key = some later ∧ later.id = hold.id ∧
      later.amount = hold.amount ∧ (hold.status ≠ .created → later = hold)

theorem Lasts.refl (start : Books) (key : String) (books : Books) : Lasts start key books books :=
  fun hold hhold ↦ ⟨hold, hhold, rfl, rfl, fun _ ↦ rfl⟩

theorem Lasts.trans {start first second third : Books} {key : String}
    (h₁ : Lasts start key first second) (h₂ : Lasts start key second third) :
    Lasts start key first third := by
  intro hold hhold
  obtain ⟨later, hlater, hid, hamount, hsame⟩ := h₁ hold hhold
  obtain ⟨last, hlast, hid', hamount', hsame'⟩ := h₂ later hlater
  refine ⟨last, hlast, hid'.trans hid, hamount'.trans hamount, fun hterminal ↦ ?_⟩
  obtain rfl := hsame hterminal
  exact hsame' hterminal

section Rows

variable {start books : Books} {key : String} {own : Option Hold}

theorem Kept.holdByKey (hunused : Unused start key) (h : Kept start key own books) :
    books.holdByKey start.wallet.id key = own := by
  have hnone := hunused.hold
  rw [Books.holdByKey] at hnone ⊢
  rw [h.holds, List.find?_append, hnone, Option.none_or]
  cases own with
  | none => rfl
  | some hold =>
    obtain ⟨hwallet, hkey, -⟩ := h.named hold rfl
    simp [hwallet, hkey]

/-- An id that names no other hold names the hold of the key or nothing. -/
theorem Kept.hold (h : Kept start key own books) {id : Uuid} (hid : start.hold id = none) :
    books.hold id = own.filter (·.id = id) := by
  rw [Books.hold] at hid ⊢
  rw [h.holds, List.find?_append, hid, Option.none_or]
  cases own with
  | none => rfl
  | some hold => simp [Option.filter, List.find?_cons]; split <;> simp_all

theorem Kept.hold_own {hold : Hold} (h : Kept start key (some hold) books) :
    books.hold hold.id = some hold := by
  rw [h.hold (h.named hold rfl).2.2]
  simp

theorem Kept.agrees (hunused : Unused start key) (h : Kept start key own books) :
    Agrees start key books := by
  refine ⟨fun entry hentry ↦ ?_, fun entry hentry ↦ ?_, ?_⟩
  · obtain ⟨hold, rfl, hcaptured, hamount⟩ := h.charge entry hentry
    refine ⟨hold, h.holdByKey hunused, hcaptured, hamount, ?_⟩
    rw [h.wallet]
    simp [debit, hcaptured]
  · obtain ⟨hold, rfl, hreleased, hamount⟩ := h.release entry hentry
    exact ⟨hold, h.holdByKey hunused, hreleased, hamount⟩
  · cases hcharge : books.entry (captureKey key) with
    | none => exact Or.inl rfl
    | some entry =>
      obtain ⟨hold, hown, hcaptured, -⟩ := h.charge entry hcharge
      refine Or.inr (Option.eq_none_iff_forall_ne_some.mpr fun other hother ↦ ?_)
      obtain ⟨_, hown', hreleased, -⟩ := h.release other hother
      rw [hown] at hown'
      obtain rfl := Option.some.inj hown'
      rw [hcaptured] at hreleased
      cases hreleased

end Rows

/-! ### What one repository call keeps -/

section Calls

variable {start books : Books} {key : String} {own : Option Hold}

variable {hold : Hold}

/-- A change of the hold alone. -/
theorem lasts_of_holdByKey {after : Books}
    (hbefore : books.holdByKey start.wallet.id key = some hold)
    (hafter : ∃ later, after.holdByKey start.wallet.id key = some later ∧ later.id = hold.id ∧
      later.amount = hold.amount ∧ (hold.status ≠ .created → later = hold)) :
    Lasts start key books after := by
  intro other hother
  obtain rfl := Option.some.inj (hbefore.symm.trans hother)
  exact hafter

/-- Replacing the hold of the key. -/
theorem Kept.setHold (h : Kept start key (some hold) books) (changed : Hold)
    (hid : changed.id = hold.id) : (books.setHold changed).holds = start.holds ++ [changed] := by
  have hothers : start.holds.map (fun other ↦ if other.id = changed.id then changed else other) =
      start.holds := by
    conv_rhs => rw [← List.map_id start.holds]
    refine List.map_congr_left fun other hother ↦ ?_
    have hnone := (h.named hold rfl).2.2
    rw [Books.hold, List.find?_eq_none] at hnone
    have hne : other.id ≠ changed.id := by simpa [hid] using hnone other hother
    rw [if_neg hne, id]
  rw [Books.setHold, h.holds, Option.toList_some, List.map_append, hothers, List.map_singleton,
    if_pos hid.symm]

theorem Kept.create (hunused : Unused start key) (h : Kept start key own books) {amount : ℤ}
    {currency : String} {newId : Uuid} {after : Books}
    (hcreate : createHold books start.wallet.id amount currency key newId = .ok (after, hold)) :
    Kept start key (some hold) after ∧ Lasts start key books after := by
  have hwallet : books.wallet.id = start.wallet.id := by rw [h.wallet]
  have hown := h.holdByKey hunused
  rcases createHold_eq_ok hcreate with ⟨rfl, hexisting⟩ | ⟨-, -, -, hnone, hfresh, rfl, rfl⟩
  · obtain ⟨hsome, -⟩ := Option.filter_eq_some_iff.mp hexisting
    rw [hown] at hsome
    subst hsome
    exact ⟨h, Lasts.refl start key after⟩
  · rw [hown] at hnone
    subst hnone
    have hid : start.hold newId = none := by
      rw [Books.hold, h.holds, List.find?_append, Option.or_eq_none_iff] at hfresh
      exact hfresh.1
    refine ⟨⟨?_, ?_, ?_, ?_, ?_⟩, ?_⟩
    · simp [h.holds]
    · simp [h.wallet, debit]
    · rintro _ ⟨⟩
      exact ⟨rfl, rfl, hid⟩
    · intro entry hentry
      obtain ⟨_, habsurd, -⟩ := h.charge entry hentry
      cases habsurd
    · intro entry hentry
      obtain ⟨_, habsurd, -⟩ := h.release entry hentry
      cases habsurd
    · intro other hother
      rw [hown] at hother
      cases hother

/-- The hold of the key moves from CREATED to a terminal status, and the wallet by what it takes. -/
theorem Kept.close (hunused : Unused start key) (h : Kept start key (some hold) books)
    (changed : Hold) (balance : ℤ) (hcreated : hold.status = .created) (hid : changed.id = hold.id)
    (hwalletId : changed.walletId = hold.walletId)
    (hkey : changed.idempotencyKey = hold.idempotencyKey) (hamount : changed.amount = hold.amount)
    (hbalance : balance = books.wallet.balance - debit (some changed)) :
    Kept start key (some changed) ((books.withBalance balance).setHold changed) ∧
      Lasts start key books ((books.withBalance balance).setHold changed) := by
  have hkept : Kept start key (some changed) ((books.withBalance balance).setHold changed) := by
    refine ⟨h.setHold changed hid, ?_, ?_, fun entry hentry ↦ ?_, fun entry hentry ↦ ?_⟩
    · rw [hbalance]
      simp [Books.withBalance, h.wallet, debit, hcreated]
    · rintro _ ⟨⟩
      rw [hid, hwalletId, hkey]
      exact h.named hold rfl
    · obtain ⟨_, ⟨⟩, hcaptured, -⟩ := h.charge entry hentry
      rw [hcreated] at hcaptured
      cases hcaptured
    · obtain ⟨_, ⟨⟩, hreleased, -⟩ := h.release entry hentry
      rw [hcreated] at hreleased
      cases hreleased
  refine ⟨hkept, lasts_of_holdByKey (h.holdByKey hunused) ⟨changed, hkept.holdByKey hunused, hid,
    hamount, fun hterminal ↦ absurd hcreated hterminal⟩⟩

/-- A posting that is not of the charge or the release, or that agrees with the hold. -/
theorem Kept.post (h : Kept start key own books) {call : PostCall}
    (hcharge : call.idempotencyKey = captureKey key →
      ∃ hold, own = some hold ∧ hold.status = .captured ∧ call.amount = hold.amount)
    (hrelease : call.idempotencyKey = releaseKey key →
      ∃ hold, own = some hold ∧ hold.status = .released ∧ call.amount = hold.amount) :
    Kept start key own (postEntry books call).1 ∧
      Lasts start key books (postEntry books call).1 := by
  rcases postEntry_cases books call with ⟨raised, hraised, -⟩ | ⟨-, referenceId, -, hposted⟩
  · rw [hraised]
    exact ⟨h, Lasts.refl start key books⟩
  · rw [hposted]
    refine ⟨⟨h.holds, h.wallet, h.named, fun entry hentry ↦ ?_, fun entry hentry ↦ ?_⟩, ?_⟩
    · rcases Books.entry_posted rfl hentry with hbefore | ⟨hkey, rfl⟩
      · exact h.charge entry hbefore
      · exact hcharge hkey
    · rcases Books.entry_posted rfl hentry with hbefore | ⟨hkey, rfl⟩
      · exact h.release entry hbefore
      · exact hrelease hkey
    · exact fun hold hhold ↦ ⟨hold, hhold, rfl, rfl, fun _ ↦ rfl⟩

end Calls

/-! ### The programs -/

/-- What the callers keep to. -/
def holdDiscipline (start : Books) (key : String) : Discipline HoldCall Books where
  inv books := ∃ own, Kept start key own books
  rely _ := Lasts start key
  allowed _ := Timely
  rely_refl _ := Lasts.refl start key
  rely_trans _ _ _ _ := Lasts.trans

section Programs

variable {start books : Books} {key : String} {me : ℕ}

/-- A program of the hold service is safe, and what it establishes when it returns. -/
abbrev HoldSafe (start : Books) (key : String) (me : ℕ) {α : Type} (P : α → Books → Prop)
    (program : HoldProgram α) (books : Books) : Prop :=
  Safe (fun _ ↦ HoldCall.handle) (holdDiscipline start key) me (Returns P) program books

/-- A repository call that keeps the hold of the key to the rules. -/
theorem keeps_of_kept {before after : Books} {own : Option Hold}
    (h : Kept start key own after ∧ Lasts start key before after) :
    (holdDiscipline start key).Keeps me before after :=
  ⟨⟨own, h.1⟩, fun _ _ ↦ h.2⟩

theorem keeps_refl {own : Option Hold} (h : Kept start key own books) :
    (holdDiscipline start key).Keeps me books books :=
  keeps_of_kept ⟨h, Lasts.refl start key books⟩

section Rules

variable {α : Type} {P : α → Books → Prop}

theorem holdSafe_get {holdId : Uuid} {f : Option Hold → HoldProgram α}
    (h : ∀ s own, Lasts start key books s → Kept start key own s →
      HoldSafe start key me P (f (s.hold holdId)) s) :
    HoldSafe start key me P (HoldService.perform (.get holdId) >>= f) books := by
  refine safe_returns_perform fun s hrely ⟨own, hkept⟩ _ chance ↦ ⟨keeps_refl hkept, ?_⟩
  rintro _ ⟨⟩
  exact h s own hrely hkept

theorem holdSafe_getByIdempotency {walletId : Uuid} {text : String}
    {f : Option Hold → HoldProgram α} (h : ∀ s own, Lasts start key books s → Kept start key own s →
      HoldSafe start key me P (f (s.holdByKey walletId text)) s) :
    HoldSafe start key me P (HoldService.perform (.getByIdempotency walletId text) >>= f)
      books := by
  refine safe_returns_perform fun s hrely ⟨own, hkept⟩ _ chance ↦ ⟨keeps_refl hkept, ?_⟩
  rintro _ ⟨⟩
  exact h s own hrely hkept

end Rules

variable {holdId : Uuid}

/-- The hold that a method resolves is the hold of the key. -/
theorem safe_resolveHold (hunused : Unused start key) (hid : start.hold holdId = none) :
    HoldSafe start key me (fun hold after ↦ after.holdByKey start.wallet.id key = some hold)
      (HoldService.resolveHold start.wallet.id holdId key) books := by
  refine holdSafe_get fun s own _ hkept ↦ ?_
  split
  · rename_i hold hhold
    rw [hkept.hold hid, Option.filter_eq_some_iff] at hhold
    exact (hkept.holdByKey hunused).trans hhold.1
  · refine holdSafe_getByIdempotency fun s' own' _ hkept' ↦ ?_
    split
    · rename_i hold hhold
      exact hhold
    · trivial

/-- A posting that the rules allow in every state that the others may leave. -/
theorem safe_postOnce {call : PostCall} {Q : Unit → Books → Prop} (hQ : ∀ s, Q () s)
    (hpost : ∀ s own, Lasts start key books s → Kept start key own s →
      (call.idempotencyKey = captureKey key →
        ∃ hold, own = some hold ∧ hold.status = .captured ∧ call.amount = hold.amount) ∧
      (call.idempotencyKey = releaseKey key →
        ∃ hold, own = some hold ∧ hold.status = .released ∧ call.amount = hold.amount)) :
    HoldSafe start key me Q (HoldService.postOnce call) books := by
  refine safe_tryCatch (safe_perform fun s hrely ⟨own, hkept⟩ _ chance ↦ ?_)
  obtain ⟨hcharge, hrelease⟩ := hpost s own hrely hkept
  refine ⟨keeps_of_kept (hkept.post hcharge hrelease), ?_⟩
  split
  · exact hQ _
  · rename_i raised _
    by_cases hkind : raised.kind = .duplicateIdempotency
    · simp only [if_pos hkind]
      exact hQ _
    · simp only [if_neg hkind]
      trivial

/-- `create_hold` posts neither the charge nor the release. -/
theorem safe_createHold (hunused : Unused start key) (amount : ℤ) (currency : String) :
    HoldSafe start key me (fun _ _ ↦ True)
      (HoldService.createHold start.wallet.id amount currency key) books := by
  refine safe_returns_perform fun s _ ⟨own, hkept⟩ _ chance ↦ ?_
  have hreply : HoldCall.handle (.create start.wallet.id amount currency key) chance s =
      transaction s (createHold s start.wallet.id amount currency key chance.newId) := rfl
  rw [hreply]
  cases hcreate : createHold s start.wallet.id amount currency key chance.newId with
  | error raised => exact ⟨keeps_refl hkept, by rintro _ ⟨⟩⟩
  | ok result =>
    obtain ⟨after, hold⟩ := result
    refine ⟨keeps_of_kept (hkept.create hunused hcreate), ?_⟩
    rintro _ ⟨⟩
    refine safe_returns_bind (P := fun _ _ ↦ True) (safe_postOnce (fun _ ↦ trivial) ?_)
      fun _ _ _ ↦ trivial
    exact fun _ _ _ _ ↦ ⟨fun h ↦ absurd h (HoldService.holdKey_ne_captureKey key key),
      fun h ↦ absurd h (HoldService.holdKey_ne_releaseKey key key)⟩

/-- A hold that was read, seen again later. -/
theorem Kept.lasts {s : Books} {own : Option Hold} {hold : Hold} (hunused : Unused start key)
    (hkept : Kept start key own s) (hhold : books.holdByKey start.wallet.id key = some hold)
    (hrely : Lasts start key books s) :
    ∃ later, own = some later ∧ later.id = hold.id ∧ later.amount = hold.amount ∧
      (hold.status ≠ .created → later = hold) := by
  obtain ⟨later, hlater, hrest⟩ := hrely hold hhold
  exact ⟨later, (hkept.holdByKey hunused).symm.trans hlater, hrest⟩

/-- The hold of the key is terminal, and a copy of it has its amount. -/
def Closed (start : Books) (key : String) (status : HoldStatus) (id : Uuid) (copy : Hold)
    (books : Books) : Prop :=
  ∃ hold, books.holdByKey start.wallet.id key = some hold ∧ hold.status = status ∧ hold.id = id ∧
    copy.amount = hold.amount

/-- A release that meets its hold CREATED or RELEASED leaves it RELEASED. -/
theorem safe_releaseCreated (hunused : Unused start key) {resolved : Hold}
    (hresolved : books.holdByKey start.wallet.id key = some resolved)
    (hopen : resolved.status ≠ .captured) :
    HoldSafe start key me (Closed start key .released resolved.id)
      (HoldService.releaseCreated resolved) books := by
  unfold HoldService.releaseCreated
  by_cases hcreated : resolved.status = .created
  · rw [if_pos hcreated]
    refine safe_returns_perform fun s hrely ⟨own, hkept⟩ htimely chance ↦ ?_
    obtain ⟨later, rfl, hid, hamount, -⟩ := hkept.lasts hunused hresolved hrely
    have hnow := hkept.hold_own
    rw [hid] at hnow
    have hreply : HoldCall.handle (.release resolved.id) chance s =
      (.ok (releaseHold s resolved.id chance.now).2, (releaseHold s resolved.id chance.now).1) := rfl
    rw [hreply]
    rcases releaseHold_cases s resolved.id chance.now with
      ⟨hold, hhold, hstatus, hreleased⟩ | ⟨hnone, hterminal⟩
    · obtain rfl := Option.some.inj (hnow.symm.trans hhold)
      have hclose := hkept.close hunused
        { later with status := .released, releasedAt := some chance.now } s.wallet.balance hstatus
        rfl rfl rfl rfl (by simp [debit])
      rw [hreleased]
      refine ⟨keeps_of_kept hclose, ?_⟩
      rintro _ ⟨⟩
      rw [← hid]
      exact ⟨_, hclose.1.holdByKey hunused, rfl, rfl, rfl⟩
    · rw [hnone]
      refine ⟨keeps_refl hkept, ?_⟩
      rintro _ ⟨⟩
      have hstill : later.status ≠ .captured := by
        change (s.hold resolved.id).all _ = true at htimely
        simpa [hnow] using htimely
      exact ⟨later, hkept.holdByKey hunused, HoldStatus.released_of_ne (hterminal later hnow) hstill, hid,
        hamount.symm⟩
  · rw [if_neg hcreated]
    exact ⟨resolved, hresolved, HoldStatus.released_of_ne hcreated hopen, rfl, rfl⟩

/-- A capture that meets its hold CREATED or CAPTURED leaves it CAPTURED. -/
theorem safe_captureCreated (hunused : Unused start key) (hid : start.hold holdId = none)
    {resolved : Hold} (hresolved : books.holdByKey start.wallet.id key = some resolved)
    (hopen : resolved.status ≠ .released) :
    HoldSafe start key me (Closed start key .captured resolved.id)
      (HoldService.captureCreated holdId resolved) books := by
  unfold HoldService.captureCreated
  by_cases hcreated : resolved.status = .created
  · rw [if_pos hcreated]
    refine safe_returns_perform fun s hrely ⟨own, hkept⟩ htimely chance ↦ ?_
    obtain ⟨later, rfl, hsame, hamount, -⟩ := hkept.lasts hunused hresolved hrely
    have hnow := hkept.hold_own
    rw [hsame] at hnow
    have hreply : HoldCall.handle (.capture resolved.id) chance s =
      transaction s (captureHold s resolved.id chance.now) := rfl
    rw [hreply]
    cases hcapture : captureHold s resolved.id chance.now with
    | error raised => exact ⟨keeps_refl hkept, by rintro _ ⟨⟩⟩
    | ok result =>
      obtain ⟨after, captured⟩ := result
      rcases captureHold_eq_ok hcapture with
        ⟨hold, hhold, hstatus, -, -, rfl, rfl⟩ | ⟨rfl, rfl, hterminal⟩
      · obtain rfl := Option.some.inj (hnow.symm.trans hhold)
        have hclose := hkept.close hunused
          { later with status := .captured, capturedAt := some chance.now }
          (s.wallet.balance - later.amount) hstatus rfl rfl rfl rfl (by simp [debit])
        refine ⟨keeps_of_kept hclose, ?_⟩
        rintro _ ⟨⟩
        rw [← hsame]
        exact ⟨_, hclose.1.holdByKey hunused, rfl, rfl, rfl⟩
      · refine ⟨keeps_refl hkept, ?_⟩
        rintro _ ⟨⟩
        have hstill : later.status ≠ .released := by
          change (after.hold resolved.id).all _ = true at htimely
          simpa [hnow] using htimely
        have hcaptured := HoldStatus.captured_of_ne (hterminal later hnow) hstill
        refine holdSafe_get fun s' own' hrely' hkept' ↦ ?_
        obtain ⟨last, rfl, -, -, hlast⟩ :=
          hkept'.lasts hunused (hkept.holdByKey hunused) hrely'
        obtain rfl := hlast (hterminal later hnow)
        refine ⟨last, hkept'.holdByKey hunused, hcaptured, hsame, ?_⟩
        rw [hkept'.hold hid, Option.filter_some]
        by_cases hnamed : last.id = holdId
        · rw [if_pos (decide_eq_true hnamed), Option.getD_some]
        · rw [if_neg (by simpa using hnamed), Option.getD_none, hamount]
  · rw [if_neg hcreated]
    exact ⟨resolved, hresolved, HoldStatus.captured_of_ne hcreated hopen, rfl, rfl⟩

/-- The posting of a method that has seen its hold terminal. -/
theorem safe_post_closed (hunused : Unused start key) {status : HoldStatus} {id : Uuid}
    {hold : Hold} (hclosed : Closed start key status id hold books) (hterminal : status ≠ .created)
    {entryType : LedgerEntryType} {entryKey action : String}
    (hcharge : entryKey = captureKey key → status = .captured)
    (hrelease : entryKey = releaseKey key → status = .released) :
    HoldSafe start key me (fun _ _ ↦ True)
      (HoldService.postOnce (HoldService.holdEntry start.wallet.id id hold.amount hold.currency
        entryType entryKey action key)) books := by
  refine safe_postOnce (fun _ ↦ trivial) fun s own hrely hkept ↦ ?_
  obtain ⟨closed, hfound, hstatus, -, hamount⟩ := hclosed
  obtain ⟨later, rfl, -, -, hsame⟩ := hkept.lasts hunused hfound hrely
  obtain rfl := hsame (by rw [hstatus]; exact hterminal)
  exact ⟨fun h ↦ ⟨later, rfl, hstatus.trans (hcharge h), hamount⟩,
    fun h ↦ ⟨later, rfl, hstatus.trans (hrelease h), hamount⟩⟩

theorem safe_releaseHold (hunused : Unused start key) (hid : start.hold holdId = none) :
    HoldSafe start key me (fun _ _ ↦ True)
      (HoldService.releaseHold start.wallet.id holdId key) books := by
  refine safe_returns_bind (safe_resolveHold hunused hid) fun resolved s hresolved ↦ ?_
  refine safe_returns_lift fun _ hguard ↦ ?_
  have hopen : resolved.status ≠ .captured := of_decide_eq_false (rejectIf_eq_ok.mp hguard)
  refine safe_returns_bind (safe_releaseCreated hunused hresolved hopen) fun hold s hclosed ↦ ?_
  refine safe_returns_bind (safe_post_closed hunused hclosed (by simp) ?_ fun _ ↦ rfl)
    fun _ _ _ ↦ trivial
  exact fun h ↦ absurd h.symm (HoldService.captureKey_ne_releaseKey key key)

theorem safe_captureHold (hunused : Unused start key) (hid : start.hold holdId = none) :
    HoldSafe start key me (fun _ _ ↦ True)
      (HoldService.captureHold start.wallet.id holdId key) books := by
  refine safe_returns_bind (safe_resolveHold hunused hid) fun resolved s hresolved ↦ ?_
  refine safe_returns_lift fun _ hguard ↦ ?_
  have hopen : resolved.status ≠ .released := of_decide_eq_false (rejectIf_eq_ok.mp hguard)
  refine safe_returns_bind (safe_captureCreated hunused hid hresolved hopen)
    fun hold s hclosed ↦ ?_
  refine safe_returns_bind (safe_post_closed hunused hclosed (by simp) (fun _ ↦ rfl) ?_)
    fun _ _ _ ↦ trivial
  exact fun h ↦ absurd h (HoldService.captureKey_ne_releaseKey key key)

/-- Every call of the service is safe from every state it may meet. -/
theorem safe_program (hunused : Unused start key) (call : ServiceCall) (hnames : Names start call) :
    Safe (fun _ ↦ HoldCall.handle) (holdDiscipline start key) me (fun _ _ ↦ True)
      (call.program start.wallet.id key) books := by
  refine safe_returns_true (Q := fun _ _ ↦ True) ?_
  cases call with
  | create amount currency =>
    exact safe_returns_bind (safe_createHold hunused amount currency) fun _ _ _ ↦ trivial
  | release holdId =>
    exact safe_returns_bind (safe_releaseHold hunused hnames) fun _ _ _ ↦ trivial
  | capture holdId =>
    exact safe_returns_bind (safe_captureHold hunused hnames) fun _ _ _ ↦ trivial

end Programs

/-! ### Runs -/

/-- The ledger agrees with the hold throughout every run in which no release comes upon a captured
hold and no capture upon a released one. -/
theorem agrees_of_timely (start : Books) (key : String) (hunused : Unused start key)
    (events : List (PoolEvent ServiceCall HoldCall.Chance))
    (htimely : Along (serviceStep start.wallet.id key)
      (Pool.Allowed (Names start) fun _ ↦ Timely) ⟨start, []⟩ events) :
    Throughout (serviceStep start.wallet.id key) (fun pool ↦ Agrees start key pool.shared)
      ⟨start, []⟩ events := by
  have hstart : (holdDiscipline start key).inv start := by
    refine ⟨none, by simp, by simp [debit], by simp, ?_, ?_⟩
    · simp [hunused.charge]
    · simp [hunused.release]
  have hthroughout := Pool.throughout_inv (D := holdDiscipline start key)
    (fun me call s hnames _ ↦ safe_program hunused call hnames) events start hstart htimely
  exact hthroughout.mono fun pool ⟨own, hkept⟩ ↦ hkept.agrees hunused

namespace HoldRuns

/-- A wallet of 1000. -/
def books : Books where
  wallet := {
    id := ⟨"00000000-0000-4000-8000-0000000000aa", .refl true⟩
    userId := ⟨"00000000-0000-4000-8000-0000000000bb", .refl true⟩
    balance := 1000
    currency := "EUR" }

def holdId : Uuid :=
  ⟨"00000000-0000-4000-8000-000000000001", .refl true⟩

def chance : HoldCall.Chance :=
  ⟨0, holdId⟩

/-- A hold of 100 is created and captured. -/
def captured : List (PoolEvent ServiceCall HoldCall.Chance) :=
  [.spawn (.create 100 "EUR"), .advance 0 chance, .advance 0 chance,
    .spawn (.capture holdId), .advance 1 chance, .advance 1 chance, .advance 1 chance]

/-- A release reads the hold, which a capture then closes before the release does. -/
def lostRace : List (PoolEvent ServiceCall HoldCall.Chance) :=
  [.spawn (.create 100 "EUR"), .advance 0 chance, .advance 0 chance,
    .spawn (.release holdId), .advance 1 chance,
    .spawn (.capture holdId), .advance 2 chance, .advance 2 chance,
    .advance 1 chance, .advance 1 chance]

end HoldRuns

theorem unused_books : Unused HoldRuns.books "order" :=
  ⟨rfl, rfl, rfl⟩

theorem agrees_of_timely_captured :
    ((run (serviceStep HoldRuns.books.wallet.id "order") ⟨HoldRuns.books, []⟩
      HoldRuns.captured).shared.entry (captureKey "order")).isSome ∧
    Throughout (serviceStep HoldRuns.books.wallet.id "order")
      (fun pool ↦ Agrees HoldRuns.books "order" pool.shared) ⟨HoldRuns.books, []⟩
      HoldRuns.captured :=
  ⟨by decide +kernel, agrees_of_timely HoldRuns.books "order" unused_books HoldRuns.captured
    (by decide +kernel)⟩

/-- A release that loses the race to a capture posts its entry for a captured hold. -/
theorem not_agrees_of_lostRace :
    ¬ ∀ (start : Books) (key : String), Unused start key →
      ∀ events : List (PoolEvent ServiceCall HoldCall.Chance),
        Along (serviceStep start.wallet.id key) (Pool.Allowed (Names start) fun _ _ _ ↦ True)
          ⟨start, []⟩ events →
        Throughout (serviceStep start.wallet.id key) (fun pool ↦ Agrees start key pool.shared)
          ⟨start, []⟩ events := by
  intro h
  have hrun := h HoldRuns.books "order" unused_books HoldRuns.lostRace (by decide +kernel)
  rw [throughout_iff_forall_take] at hrun
  have hposted : (run (serviceStep HoldRuns.books.wallet.id "order") ⟨HoldRuns.books, []⟩
      (HoldRuns.lostRace.take 10)).shared.entry (releaseKey "order") |>.isSome := by
    decide +kernel
  obtain ⟨entry, hentry⟩ := Option.isSome_iff_exists.mp hposted
  obtain ⟨hold, hhold, hreleased, -⟩ := (hrun 10).release entry hentry
  have hcaptured : ((run (serviceStep HoldRuns.books.wallet.id "order") ⟨HoldRuns.books, []⟩
      (HoldRuns.lostRace.take 10)).shared.holdByKey HoldRuns.books.wallet.id "order").all
        (·.status = .captured) := by
    decide +kernel
  rw [hhold] at hcaptured
  simp [hreleased] at hcaptured

end CloudPlatform.Wallets
