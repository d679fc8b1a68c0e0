import CloudPlatform.Wallets.HoldService

/-!
# The hold service without other callers

Under a lock that no other caller of the wallet can pass, a method of the hold service meets the
hold as it was read. `alone_captureHold` and `alone_releaseHold` say what it leaves, for any
invariant that its repository calls keep.
-/

namespace CloudPlatform.Wallets

open Transition

/-- The books once a hold is captured: it was before, or its amount leaves the wallet now. -/
inductive Captured (books : Books) (hold : Hold) : Books → Prop
  | already (hstatus : hold.status = .captured) : Captured books hold books
  | debited (now : ℤ) (hstatus : hold.status = .created)
      (hcovered : hold.amount ≤ books.wallet.balance) :
      Captured books hold ((books.withBalance (books.wallet.balance - hold.amount)).setHold
        { hold with status := .captured, capturedAt := some now })

/-- The books once a hold is released. -/
inductive Released (books : Books) (hold : Hold) : Books → Prop
  | already (hstatus : hold.status = .released) : Released books hold books
  | now (now : ℤ) (hstatus : hold.status = .created) :
      Released books hold (books.setHold { hold with status := .released, releasedAt := some now })

/-- The posting of a captured hold. -/
def captureEntry (walletId : Uuid) (hold : Hold) (key : String) : PostCall :=
  HoldService.holdEntry walletId hold.id hold.amount hold.currency .charge
    (HoldService.captureKey key) "captured" key

/-- The posting of a released hold. -/
def releaseEntry (walletId : Uuid) (hold : Hold) (key : String) : PostCall :=
  HoldService.holdEntry walletId hold.id hold.amount hold.currency .release
    (HoldService.releaseKey key) "released" key

section Alone

variable {inv : Books → Prop} {allowed : Books → HoldCall → Prop} {books : Books} {hold : Hold}
  {walletId : Uuid} {key : String}

theorem alone_resolveHold (hhold : books.hold hold.id = some hold) :
    Solo.Safe HoldCall.handle inv allowed
      (fun resolved after ↦ after = books ∧ resolved = hold ∧ inv books)
      (HoldService.resolveHold walletId hold.id key) books := by
  refine Solo.safe_perform fun hinv _ chance ↦ ⟨hinv, ?_⟩
  rintro _ ⟨⟩
  rw [hhold]
  exact ⟨rfl, rfl, hinv⟩

theorem alone_postOnce {call : PostCall} (hpost : inv (postEntry books call).1) :
    Solo.Safe HoldCall.handle inv allowed (fun _ after ↦ after = (postEntry books call).1)
      (HoldService.postOnce call) books := by
  refine safe_tryCatch (safe_perform fun s hrely _ _ chance ↦ ?_)
  obtain rfl := hrely rfl
  refine ⟨⟨hpost, fun other hother hzero ↦ absurd hzero hother⟩, ?_⟩
  split
  · rfl
  · rename_i raised _
    by_cases hkind : raised.kind = .duplicateIdempotency
    · simp only [if_pos hkind]
      rfl
    · simp only [if_neg hkind]
      trivial

/-- What the capture of a hold leaves, when it returns one. -/
theorem alone_captureCreated (hinv : inv books) (hhold : books.hold hold.id = some hold)
    (hopen : hold.status ≠ .released) (hcapture : hold.status = .created →
      allowed books (.capture hold.id) → ∀ mid, Captured books hold mid → inv mid) :
    Solo.Safe HoldCall.handle inv allowed
      (fun captured mid ↦ captured.status = .captured ∧ captured.id = hold.id ∧
        captured.amount = hold.amount ∧ captured.currency = hold.currency ∧
        Captured books hold mid ∧ inv mid) (HoldService.captureCreated hold.id hold) books := by
  unfold HoldService.captureCreated
  by_cases hcreated : hold.status = .created
  · rw [if_pos hcreated]
    refine Solo.safe_perform fun hinv hallowed chance ↦ ?_
    have hreply : HoldCall.handle (.capture hold.id) chance books =
      transaction books (captureHold books hold.id chance.now) := rfl
    rw [hreply]
    cases hdone : captureHold books hold.id chance.now with
    | error raised => exact ⟨hinv, by rintro _ ⟨⟩⟩
    | ok result =>
      obtain ⟨after, captured⟩ := result
      rcases captureHold_eq_ok hdone with
        ⟨found, hfound, -, -, hcovered, rfl, rfl⟩ | ⟨-, -, hterminal⟩
      · obtain rfl := Option.some.inj (hhold.symm.trans hfound)
        have hcaptured := Captured.debited chance.now hcreated hcovered
        have hmid := hcapture hcreated hallowed _ hcaptured
        refine ⟨hmid, ?_⟩
        rintro _ ⟨⟩
        exact ⟨rfl, rfl, rfl, rfl, hcaptured, hmid⟩
      · exact absurd hcreated (hterminal hold hhold)
  · rw [if_neg hcreated]
    have hstatus := HoldStatus.captured_of_ne hcreated hopen
    exact ⟨hstatus, rfl, rfl, rfl, .already hstatus, hinv⟩

/-- `capture_hold` leaves the hold captured, and its charge in the ledger. -/
theorem alone_captureHold (hhold : books.hold hold.id = some hold)
    (hcapture : hold.status = .created → allowed books (.capture hold.id) →
      ∀ mid, Captured books hold mid → inv mid) (hpost : ∀ mid, Captured books hold mid → inv mid →
      inv (postEntry mid (captureEntry walletId hold key)).1) :
    Solo.Safe HoldCall.handle inv allowed
      (fun captured after ↦ captured.id = hold.id ∧ ∃ mid, Captured books hold mid ∧ inv mid ∧
        after = (postEntry mid (captureEntry walletId hold key)).1)
      (HoldService.captureHold walletId hold.id key) books := by
  refine safe_returns_bind (alone_resolveHold hhold) fun resolved s hresolved ↦ ?_
  obtain ⟨rfl, rfl, hinv⟩ := hresolved
  refine safe_returns_lift fun _ hguard ↦ ?_
  have hopen : resolved.status ≠ .released := of_decide_eq_false (rejectIf_eq_ok.mp hguard)
  refine safe_returns_bind (alone_captureCreated hinv hhold hopen hcapture) fun captured mid h ↦ ?_
  obtain ⟨-, hid, hamount, hcurrency, hcaptured, hmid⟩ := h
  rw [hamount, hcurrency]
  refine safe_returns_bind (alone_postOnce (hpost mid hcaptured hmid)) fun _ after hafter ↦ ?_
  exact ⟨hid, mid, hcaptured, hmid, hafter⟩

/-- `release_hold` keeps what its release and its posting keep. -/
theorem alone_releaseHold (hhold : books.hold hold.id = some hold)
    (hrelease : ∀ mid, Released books hold mid → inv books → inv mid)
    (hpost : ∀ mid, Released books hold mid → inv mid →
      inv (postEntry mid (releaseEntry walletId hold key)).1) :
    Solo.Safe HoldCall.handle inv allowed (fun _ after ↦ inv after)
      (HoldService.releaseHold walletId hold.id key) books := by
  refine safe_returns_bind (alone_resolveHold hhold) fun resolved s hresolved ↦ ?_
  obtain ⟨rfl, rfl, hinv⟩ := hresolved
  refine safe_returns_lift fun _ hguard ↦ ?_
  have hopen : resolved.status ≠ .captured := of_decide_eq_false (rejectIf_eq_ok.mp hguard)
  have hreleased : Solo.Safe HoldCall.handle inv allowed
      (fun released mid ↦ released.amount = resolved.amount ∧
        released.currency = resolved.currency ∧ Released s resolved mid ∧ inv mid)
      (HoldService.releaseCreated resolved) s := by
    unfold HoldService.releaseCreated
    by_cases hcreated : resolved.status = .created
    · rw [if_pos hcreated]
      refine Solo.safe_perform fun _ _ chance ↦ ?_
      have hreply : HoldCall.handle (.release resolved.id) chance s =
        (.ok (releaseHold s resolved.id chance.now).2,
          (releaseHold s resolved.id chance.now).1) := rfl
      rw [hreply]
      rcases releaseHold_cases s resolved.id chance.now with
        ⟨found, hfound, -, hdone⟩ | ⟨-, hterminal⟩
      · obtain rfl := Option.some.inj (hhold.symm.trans hfound)
        rw [hdone]
        have hmid : Released s resolved _ := .now chance.now hcreated
        have hkept := hrelease _ hmid hinv
        refine ⟨hkept, ?_⟩
        rintro _ ⟨⟩
        exact ⟨rfl, rfl, hmid, hkept⟩
      · exact absurd hcreated (hterminal resolved hhold)
    · rw [if_neg hcreated]
      have hstatus := HoldStatus.released_of_ne hcreated hopen
      exact ⟨rfl, rfl, .already hstatus, hinv⟩
  refine safe_returns_bind hreleased fun released mid hmid ↦ ?_
  obtain ⟨hamount, hcurrency, hreleased, hkept⟩ := hmid
  rw [hamount, hcurrency]
  refine safe_returns_bind (alone_postOnce (hpost mid hreleased hkept)) fun _ after hafter ↦ ?_
  rw [hafter]
  exact hpost mid hreleased hkept

end Alone

end CloudPlatform.Wallets
