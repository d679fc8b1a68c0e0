import CloudPlatform.Transition.Evaluation
import CloudPlatform.Wallets.HoldRows
import CloudPlatform.Wallets.HoldServiceAlone

/-!
# Complete calls of the hold service

A method of the hold service that no other caller of the wallet interrupts, run to its end, leaves
the rows alone, or it makes one change of the holds and posts the entry of that change. The three
theorems here say so of `create_hold`, `release_hold` and `capture_hold`.
-/

namespace CloudPlatform.Wallets

open Transition

/-- The hold that a method finds: by its id, else by the idempotency key. -/
def Books.resolved (books : Books) (walletId holdId : Uuid) (key : String) : Option Hold :=
  (books.hold holdId).or (books.holdByKey walletId key)

/-- A hold that a method finds is one of the wallet's. -/
theorem mem_of_resolved {books : Books} {walletId holdId : Uuid} {key : String} {hold : Hold}
    (h : books.resolved walletId holdId key = some hold) : hold ∈ books.holds := by
  rcases Option.or_eq_some_iff.mp h with hid | ⟨-, hkey⟩
  · exact (Books.mem_of_hold hid).1
  · exact (mem_of_holdByKey hkey).1

/-- The posting of a hold that was created or found. -/
def createEntry (walletId : Uuid) (hold : Hold) (amount : ℤ) (currency key : String) : PostCall :=
  HoldService.holdEntry walletId hold.id amount currency .hold (HoldService.holdKey key) "created"
    key

section Complete

variable {P : Books → Prop} {chances : ℕ → HoldCall.Chance} {books : Books}
  {walletId holdId : Uuid} {key : String}

/-- What posting leaves, whatever it answers. -/
theorem ends_postOnce {call : PostCall} (h : P (postEntry books call).1) :
    Ends HoldCall.handle (fun _ _ after ↦ P after) (HoldService.postOnce call) chances books := by
  refine ends_tryCatch (ends_perform ?_)
  have hreply : HoldCall.handle (.post call) (chances 0) books =
    ((postEntry books call).2, (postEntry books call).1) := rfl
  rw [hreply]
  cases (postEntry books call).2 with
  | ok entry => exact ends_pure h
  | error raised =>
    dsimp only
    by_cases hkind : raised.kind = .duplicateIdempotency
    · rw [if_pos hkind]
      exact ends_pure h
    · rw [if_neg hkind]
      exact ends_throw h

/-- The end of every method: the entry is posted and the hold returned. -/
theorem ends_postReturn {call : PostCall} {hold : Hold} (h : P (postEntry books call).1) :
    Ends HoldCall.handle (fun _ _ after ↦ P after)
      (do
        HoldService.postOnce call
        return hold) chances books := by
  refine ends_bind ((ends_postOnce h).mono fun outcome left after hafter ↦ ?_)
  cases outcome with
  | ok _ => exact ends_pure hafter
  | error _ => exact hafter

/-- The rule of the lookup that a method begins with. -/
theorem ends_resolveHold {f : Hold → HoldProgram Hold} (hnone : P books)
    (hsome : ∀ hold left, books.resolved walletId holdId key = some hold →
      Ends HoldCall.handle (fun _ _ after ↦ P after) (f hold) left books) :
    Ends HoldCall.handle (fun _ _ after ↦ P after)
      (HoldService.resolveHold walletId holdId key >>= f) chances books := by
  refine ends_bind (ends_perform ?_)
  have hget : HoldCall.handle (.get holdId) (chances 0) books = (.ok (books.hold holdId), books) :=
    rfl
  rw [hget]
  cases hhold : books.hold holdId with
  | some hold =>
    refine ends_pure (hsome hold _ ?_)
    rw [Books.resolved, hhold, Option.some_or]
  | none =>
    refine ends_perform ?_
    have hbyKey : HoldCall.handle (.getByIdempotency walletId key) (rest chances 0) books =
      (.ok (books.holdByKey walletId key), books) := rfl
    rw [hbyKey]
    cases hkey : books.holdByKey walletId key with
    | some hold =>
      refine ends_pure (hsome hold _ ?_)
      rw [Books.resolved, hhold, Option.none_or, hkey]
    | none => exact ends_throw hnone

/-- `create_hold` leaves the rows alone, or it creates or finds the hold and posts its entry. -/
theorem createHold_leaves (walletId : Uuid) (amount : ℤ) (currency key : String)
    (chances : ℕ → HoldCall.Chance) (books : Books) :
    ((HoldService.createHold walletId amount currency key).eval HoldCall.handle chances books).2 =
        books ∨
      ∃ mid hold, createHold books walletId amount currency key (chances 0).newId =
          .ok (mid, hold) ∧
        ((HoldService.createHold walletId amount currency key).eval HoldCall.handle chances
          books).2 = (postEntry mid (createEntry walletId hold amount currency key)).1 := by
  suffices h : Ends HoldCall.handle (fun _ _ after ↦ after = books ∨ ∃ mid hold,
      createHold books walletId amount currency key (chances 0).newId = .ok (mid, hold) ∧
        after = (postEntry mid (createEntry walletId hold amount currency key)).1)
      (HoldService.createHold walletId amount currency key) chances books from h.eval
  refine ends_perform ?_
  have hreply : HoldCall.handle (.create walletId amount currency key) (chances 0) books =
    transaction books (createHold books walletId amount currency key (chances 0).newId) := rfl
  rw [hreply]
  cases hdone : createHold books walletId amount currency key (chances 0).newId with
  | error raised => exact Or.inl rfl
  | ok result =>
    obtain ⟨mid, hold⟩ := result
    exact ends_postReturn (.inr ⟨mid, hold, rfl, rfl⟩)

/-- `release_hold` leaves the rows alone, or the hold is released and the entry posted. -/
theorem releaseHold_leaves (hids : (books.holds.map (·.id)).Nodup) (walletId holdId : Uuid)
    (key : String) (chances : ℕ → HoldCall.Chance) :
    ((HoldService.releaseHold walletId holdId key).eval HoldCall.handle chances books).2 = books ∨
      ∃ hold mid, books.resolved walletId holdId key = some hold ∧ Released books hold mid ∧
        ((HoldService.releaseHold walletId holdId key).eval HoldCall.handle chances books).2 =
          (postEntry mid (releaseEntry walletId hold key)).1 := by
  suffices h : Ends HoldCall.handle (fun _ _ after ↦ after = books ∨ ∃ hold mid,
      books.resolved walletId holdId key = some hold ∧ Released books hold mid ∧
        after = (postEntry mid (releaseEntry walletId hold key)).1)
      (HoldService.releaseHold walletId holdId key) chances books from h.eval
  refine ends_resolveHold (.inl rfl) fun hold left hresolved ↦ ends_lift (fun _ hguard ↦ ?_)
    fun _ _ ↦ .inl rfl
  have hopen : hold.status ≠ .captured := of_decide_eq_false (rejectIf_eq_ok.mp hguard)
  have hfound := Books.hold_of_mem hids (mem_of_resolved hresolved)
  unfold HoldService.releaseCreated
  by_cases hcreated : hold.status = .created
  · rw [if_pos hcreated]
    refine ends_bind (ends_perform ?_)
    have hreply : HoldCall.handle (.release hold.id) (left 0) books =
      (.ok (releaseHold books hold.id (left 0).now).2,
        (releaseHold books hold.id (left 0).now).1) := rfl
    rw [hreply]
    rcases releaseHold_cases books hold.id (left 0).now with
      ⟨other, hother, -, hdone⟩ | ⟨-, hterminal⟩
    · obtain rfl := Option.some.inj (hfound.symm.trans hother)
      rw [hdone]
      exact ends_pure (ends_postReturn
        (.inr ⟨hold, _, hresolved, .now (left 0).now hcreated, rfl⟩))
    · exact absurd hcreated (hterminal hold hfound)
  · rw [if_neg hcreated]
    have hreleased := HoldStatus.released_of_ne hcreated hopen
    exact ends_ok (ends_postReturn (.inr ⟨hold, books, hresolved, .already hreleased, rfl⟩))

/-- `capture_hold` leaves the rows alone, or the hold is captured and the entry posted. -/
theorem captureHold_leaves (hids : (books.holds.map (·.id)).Nodup) (walletId holdId : Uuid)
    (key : String) (chances : ℕ → HoldCall.Chance) :
    ((HoldService.captureHold walletId holdId key).eval HoldCall.handle chances books).2 = books ∨
      ∃ hold mid, books.resolved walletId holdId key = some hold ∧ Captured books hold mid ∧
        ((HoldService.captureHold walletId holdId key).eval HoldCall.handle chances books).2 =
          (postEntry mid (captureEntry walletId hold key)).1 := by
  suffices h : Ends HoldCall.handle (fun _ _ after ↦ after = books ∨ ∃ hold mid,
      books.resolved walletId holdId key = some hold ∧ Captured books hold mid ∧
        after = (postEntry mid (captureEntry walletId hold key)).1)
      (HoldService.captureHold walletId holdId key) chances books from h.eval
  refine ends_resolveHold (.inl rfl) fun hold left hresolved ↦ ends_lift (fun _ hguard ↦ ?_)
    fun _ _ ↦ .inl rfl
  have hopen : hold.status ≠ .released := of_decide_eq_false (rejectIf_eq_ok.mp hguard)
  have hfound := Books.hold_of_mem hids (mem_of_resolved hresolved)
  unfold HoldService.captureCreated
  by_cases hcreated : hold.status = .created
  · rw [if_pos hcreated]
    refine ends_bind (ends_perform ?_)
    have hreply : HoldCall.handle (.capture hold.id) (left 0) books =
      transaction books (captureHold books hold.id (left 0).now) := rfl
    rw [hreply]
    cases hdone : captureHold books hold.id (left 0).now with
    | error raised => exact Or.inl rfl
    | ok result =>
      obtain ⟨mid, captured⟩ := result
      rcases captureHold_eq_ok hdone with
        ⟨other, hother, -, -, hcovered, rfl, rfl⟩ | ⟨-, -, hterminal⟩
      · obtain rfl := Option.some.inj (hfound.symm.trans hother)
        exact ends_pure (ends_postReturn
          (.inr ⟨hold, _, hresolved, .debited (left 0).now hcreated hcovered, rfl⟩))
      · exact absurd hcreated (hterminal hold hfound)
  · rw [if_neg hcreated]
    have hcaptured := HoldStatus.captured_of_ne hcreated hopen
    exact ends_ok (ends_postReturn (.inr ⟨hold, books, hresolved, .already hcaptured, rfl⟩))

end Complete

end CloudPlatform.Wallets
