import CloudPlatform.Wallets.HoldService

/-!
# The holds of a wallet under many callers

Whatever repository call commits next, ids and keys of the holds stay unique (`Keyed.handle`), and while
no one releases a hold each of them stays under its id and key, and is at most captured
(`holdsStay_handle`).
-/

namespace CloudPlatform.Wallets

open Transition (invariant_run relation_run run)

/-- The unique constraints of the holds of one wallet. -/
structure Keyed (books : Books) : Prop where
  ids : (books.holds.map (·.id)).Nodup
  keys : (books.holds.map (·.idempotencyKey)).Nodup
  owned : ∀ hold ∈ books.holds, hold.walletId = books.wallet.id

/-- What one repository call makes of the holds. -/
inductive HoldChange (books : Books) : List Hold → Prop
  | same : HoldChange books books.holds
  | created (hold : Hold) (howned : hold.walletId = books.wallet.id)
      (hid : books.hold hold.id = none)
      (hkey : books.holdByKey books.wallet.id hold.idempotencyKey = none) :
      HoldChange books (books.holds ++ [hold])
  | captured (hold : Hold) (hmem : hold ∈ books.holds) (hcreated : hold.status = .created) (now : ℤ) :
      HoldChange books
        (books.setHold { hold with status := .captured, capturedAt := some now }).holds
  | released (hold : Hold) (hmem : hold ∈ books.holds) (hcreated : hold.status = .created) (now : ℤ) :
      HoldChange books
        (books.setHold { hold with status := .released, releasedAt := some now }).holds

section Change

variable {books : Books} {request : HoldCall} {chance : HoldCall.Chance}

/-- Every repository call makes one change of the holds, in the same wallet. -/
theorem holdChange_handle (request : HoldCall) (chance : HoldCall.Chance) (books : Books) :
    HoldChange books (request.handle chance books).2.holds ∧
      (request.handle chance books).2.wallet.id = books.wallet.id := by
  cases request with
  | create walletId amount currency key =>
    unfold HoldCall.handle
    dsimp only
    cases hdone : createHold books walletId amount currency key chance.newId with
    | error raised => exact ⟨.same, rfl⟩
    | ok result =>
      obtain ⟨after, hold⟩ := result
      rcases createHold_eq_ok hdone with ⟨rfl, -⟩ | ⟨-, rfl, -, hkey, hid, rfl, rfl⟩
      · exact ⟨.same, rfl⟩
      · exact ⟨.created _ rfl hid hkey, rfl⟩
  | capture holdId =>
    unfold HoldCall.handle
    dsimp only
    cases hdone : captureHold books holdId chance.now with
    | error raised => exact ⟨.same, rfl⟩
    | ok result =>
      obtain ⟨after, captured⟩ := result
      rcases captureHold_eq_ok hdone with ⟨hold, hhold, hcreated, -, -, -, rfl⟩ | ⟨rfl, -, -⟩
      · exact ⟨.captured hold (Books.mem_of_hold hhold).1 hcreated chance.now, rfl⟩
      · exact ⟨.same, rfl⟩
  | release holdId =>
    unfold HoldCall.handle
    dsimp only
    rcases releaseHold_cases books holdId chance.now with ⟨hold, hhold, hcreated, hdone⟩ | ⟨hdone, -⟩
    · rw [hdone]
      exact ⟨.released hold (Books.mem_of_hold hhold).1 hcreated chance.now, rfl⟩
    · rw [hdone]
      exact ⟨.same, rfl⟩
  | post entry =>
    unfold HoldCall.handle
    dsimp only
    rcases postEntry_cases books entry with ⟨raised, hdone, -⟩ | ⟨-, _, -, hdone⟩
    · rw [hdone]
      exact ⟨.same, rfl⟩
    · rw [hdone]
      exact ⟨.same, rfl⟩
  | get holdId => exact ⟨.same, rfl⟩
  | getByIdempotency walletId key => exact ⟨.same, rfl⟩

variable {hold : Hold}

/-- A new hold keeps a column unique that none of the holds shares with it. -/
theorem nodup_append_of_forall {α : Type} {column : Hold → α} {holds : List Hold}
    (hnodup : (holds.map column).Nodup) (hfresh : ∀ other ∈ holds, column other ≠ column hold) :
    ((holds ++ [hold]).map column).Nodup := by
  rw [List.map_append]
  refine List.nodup_append.mpr ⟨hnodup, List.nodup_singleton _, ?_⟩
  rintro value hvalue other hother rfl
  obtain ⟨earlier, hearlier, hsame⟩ := List.mem_map.mp hvalue
  exact hfresh earlier hearlier (hsame.trans (List.mem_singleton.mp hother))

/-- A change of status keeps the columns of a hold. -/
theorem setHold_column {α : Type} (column : Hold → α) (hids : (books.holds.map (·.id)).Nodup)
    {hold changed : Hold} (hmem : hold ∈ books.holds) (hid : changed.id = hold.id)
    (hcolumn : column changed = column hold) :
    (books.setHold changed).holds.map column = books.holds.map column := by
  rw [Books.setHold, List.map_map]
  refine List.map_congr_left fun other hother ↦ ?_
  rw [Function.comp_apply]
  by_cases hsame : other.id = changed.id
  · rw [if_pos hsame, hcolumn, List.inj_on_of_nodup_map hids hother hmem (hsame.trans hid)]
  · rw [if_neg hsame]

theorem Keyed.setHold (h : Keyed books) {hold changed : Hold} (hmem : hold ∈ books.holds)
    (hid : changed.id = hold.id) (hkey : changed.idempotencyKey = hold.idempotencyKey)
    (hwallet : changed.walletId = hold.walletId) : Keyed (books.setHold changed) where
  ids := by
    rw [Books.setHold_ids]
    exact h.ids
  keys := by
    rw [setHold_column (·.idempotencyKey) h.ids hmem hid hkey]
    exact h.keys
  owned other hother := by
    have hcolumn : other.walletId ∈ (books.setHold changed).holds.map (·.walletId) :=
      List.mem_map_of_mem hother
    rw [setHold_column (·.walletId) h.ids hmem hid hwallet] at hcolumn
    obtain ⟨earlier, hearlier, hsame⟩ := List.mem_map.mp hcolumn
    rw [← hsame]
    exact h.owned earlier hearlier

/-- The constraints speak of the holds and the id of the wallet only. -/
theorem Keyed.congr {after : Books} (h : Keyed books) (hholds : after.holds = books.holds)
    (hwallet : after.wallet.id = books.wallet.id) : Keyed after where
  ids := hholds ▸ h.ids
  keys := hholds ▸ h.keys
  owned hold hhold := hwallet ▸ h.owned hold (hholds ▸ hhold)

theorem Keyed.handle (h : Keyed books) (request : HoldCall) (chance : HoldCall.Chance) :
    Keyed (request.handle chance books).2 := by
  obtain ⟨hchange, hwallet⟩ := holdChange_handle request chance books
  generalize (request.handle chance books).2 = after at hchange hwallet
  generalize hholds : after.holds = holds at hchange
  cases hchange with
  | same => exact h.congr hholds hwallet
  | created hold howned hid hkey =>
    have hfreshId : ∀ other ∈ books.holds, other.id ≠ hold.id := by
      simpa [Books.hold] using hid
    have hfreshKey : ∀ other ∈ books.holds, other.idempotencyKey ≠ hold.idempotencyKey := by
      intro other hother hsame
      simp only [Books.holdByKey, List.find?_eq_none, decide_eq_true_eq] at hkey
      exact hkey other hother ⟨h.owned other hother, hsame⟩
    refine ⟨?_, ?_, fun other hother ↦ ?_⟩
    · rw [hholds]
      exact nodup_append_of_forall h.ids hfreshId
    · rw [hholds]
      exact nodup_append_of_forall h.keys hfreshKey
    · rw [hwallet]
      rw [hholds] at hother
      rcases List.mem_append.mp hother with hearlier | hnew
      · exact h.owned other hearlier
      · rw [List.mem_singleton.mp hnew]
        exact howned
  | captured hold hmem hcreated now =>
    have hset : Keyed (books.setHold { hold with status := .captured, capturedAt := some now }) :=
      h.setHold hmem rfl rfl rfl
    exact hset.congr hholds hwallet
  | released hold hmem hcreated now =>
    have hset : Keyed (books.setHold { hold with status := .released, releasedAt := some now }) :=
      h.setHold hmem rfl rfl rfl
    exact hset.congr hholds hwallet

/-- Every hold stays under its id and key, and is at most captured. -/
def HoldsStay (before after : Books) : Prop :=
  ∀ hold ∈ before.holds, ∃ later ∈ after.holds, later.id = hold.id ∧
    later.idempotencyKey = hold.idempotencyKey ∧
    (later.status = hold.status ∨ hold.status = .created ∧ later.status = .captured)

theorem HoldsStay.of_holds {after : Books} (hholds : after.holds = books.holds) :
    HoldsStay books after :=
  fun hold hhold ↦ ⟨hold, hholds ▸ hhold, rfl, rfl, .inl rfl⟩

theorem holdsStay_handle (hrelease : ∀ holdId, request ≠ .release holdId) (h : Keyed books) :
    HoldsStay books (request.handle chance books).2 := by
  cases request with
  | create walletId amount currency key =>
    unfold HoldCall.handle
    dsimp only
    cases hdone : createHold books walletId amount currency key chance.newId with
    | error raised => exact .of_holds rfl
    | ok result =>
      obtain ⟨after, hold⟩ := result
      rcases createHold_eq_ok hdone with ⟨rfl, -⟩ | ⟨-, -, -, -, -, -, rfl⟩
      · exact .of_holds rfl
      · exact fun other hother ↦ ⟨other, List.mem_append_left _ hother, rfl, rfl, .inl rfl⟩
  | capture holdId =>
    unfold HoldCall.handle
    dsimp only
    cases hdone : captureHold books holdId chance.now with
    | error raised => exact .of_holds rfl
    | ok result =>
      obtain ⟨after, captured⟩ := result
      rcases captureHold_eq_ok hdone with ⟨hold, hhold, hcreated, -, -, -, rfl⟩ | ⟨rfl, -, -⟩
      · intro other hother
        by_cases hsame : other.id = hold.id
        · have heq : other = hold :=
            List.inj_on_of_nodup_map h.ids hother (Books.mem_of_hold hhold).1 hsame
          subst heq
          refine ⟨_, List.mem_map.mpr ⟨other, hother, if_pos rfl⟩, rfl, rfl, .inr ⟨hcreated, rfl⟩⟩
        · exact ⟨other, List.mem_map.mpr ⟨other, hother, if_neg hsame⟩, rfl, rfl, .inl rfl⟩
      · exact .of_holds rfl
  | release holdId => exact absurd rfl (hrelease holdId)
  | post entry =>
    unfold HoldCall.handle
    dsimp only
    rcases postEntry_cases books entry with ⟨raised, hdone, -⟩ | ⟨-, _, -, hdone⟩
    · rw [hdone]
      exact .of_holds rfl
    · rw [hdone]
      exact .of_holds rfl
  | get holdId => exact .of_holds rfl
  | getByIdempotency walletId key => exact .of_holds rfl

theorem mem_of_holdByKey {walletId : Uuid} {key : String}
    (h : books.holdByKey walletId key = some hold) :
    hold ∈ books.holds ∧ hold.walletId = walletId ∧ hold.idempotencyKey = key :=
  ⟨List.mem_of_find?_eq_some h, by simpa using List.find?_some h⟩

/-- A hold that a call creates, or finds CREATED, stands among the holds. -/
theorem mem_of_create {walletId : Uuid} {amount : ℤ} {currency key : String}
    (h : (HoldCall.handle (.create walletId amount currency key) chance books).1 = .ok hold) :
    hold ∈ (HoldCall.handle (.create walletId amount currency key) chance books).2.holds ∧
      hold.idempotencyKey = key ∧ hold.status = .created := by
  unfold HoldCall.handle at h ⊢
  dsimp only at h ⊢
  cases hdone : createHold books walletId amount currency key chance.newId with
  | error raised =>
    rw [hdone] at h
    cases h
  | ok result =>
    obtain ⟨after, created⟩ := result
    rw [hdone] at h
    obtain rfl : created = hold := Except.ok.inj h
    rcases createHold_eq_ok hdone with ⟨rfl, hfound⟩ | ⟨-, -, -, -, -, rfl, rfl⟩
    · obtain ⟨hfound, hcreated⟩ := Option.filter_eq_some_iff.mp hfound
      obtain ⟨hmem, -, hkey⟩ := mem_of_holdByKey hfound
      exact ⟨hmem, hkey, of_decide_eq_true hcreated⟩
    · exact ⟨List.mem_append_right _ (List.mem_singleton_self _), rfl, rfl⟩

/-- A hold whose capture was answered is no longer CREATED. -/
theorem not_created_of_capture {holdId : Uuid} {captured : Option Hold} (h : Keyed books)
    (hreply : (HoldCall.handle (.capture holdId) chance books).1 = .ok captured) :
    ∀ hold ∈ (HoldCall.handle (.capture holdId) chance books).2.holds, hold.id = holdId →
      hold.status ≠ .created := by
  unfold HoldCall.handle at hreply ⊢
  dsimp only at hreply ⊢
  cases hdone : captureHold books holdId chance.now with
  | error raised =>
    rw [hdone] at hreply
    cases hreply
  | ok result =>
    obtain ⟨after, found⟩ := result
    intro hold hmem hid
    have hmem : hold ∈ after.holds := hmem
    rcases captureHold_eq_ok hdone with ⟨earlier, hearlier, -, -, -, -, rfl⟩ | ⟨rfl, -, hterminal⟩
    · obtain ⟨other, hother, rfl⟩ := List.mem_map.mp hmem
      obtain ⟨-, hearlierId⟩ := Books.mem_of_hold hearlier
      by_cases hsame : other.id = earlier.id
      · rw [if_pos hsame]
        exact fun h ↦ nomatch h
      · rw [if_neg hsame] at hid
        exact absurd (hid.trans hearlierId.symm) hsame
    · exact hterminal hold (hid ▸ Books.hold_of_mem h.ids hmem)

/-! ### Settled holds -/

/-- One call of any caller commits. -/
def HoldCall.commit (books : Books) (call : HoldCall × HoldCall.Chance) : Books :=
  (call.1.handle call.2 books).2

/-- A hold as it was created. -/
def Hold.asCreated (hold : Hold) : Hold :=
  { hold with status := .created, capturedAt := none, releasedAt := none }

/-- The holds keep what they reserve, and a captured or released one is as it was. -/
structure HoldsFinal (before after : List Hold) : Prop where
  reserved : before.map Hold.asCreated <+: after.map Hold.asCreated
  settled : ∀ hold ∈ before, hold.status ≠ .created → hold ∈ after

theorem HoldChange.final {holds : List Hold} (h : Keyed books) (hchange : HoldChange books holds) :
    HoldsFinal books.holds holds := by
  have hfinal {hold : Hold} (hmem : hold ∈ books.holds) (hcreated : hold.status = .created)
      (changed : Hold) (hsame : changed.asCreated = hold.asCreated) :
      HoldsFinal books.holds (books.setHold changed).holds := by
    have hid : changed.id = hold.id := congrArg (·.id) hsame
    refine ⟨?_, fun other hother hsettled ↦ ?_⟩
    · exact setHold_column Hold.asCreated h.ids hmem hid hsame ▸ List.prefix_rfl
    · refine List.mem_map.mpr ⟨other, hother, if_neg fun hother' ↦ hsettled ?_⟩
      rw [List.inj_on_of_nodup_map h.ids hother hmem (hother'.trans hid), hcreated]
  cases hchange with
  | same => exact ⟨List.prefix_rfl, fun _ hmem _ ↦ hmem⟩
  | created hold =>
    refine ⟨?_, fun _ hmem _ ↦ List.mem_append_left _ hmem⟩
    rw [List.map_append]
    exact List.prefix_append _ _
  | captured hold hmem hcreated => exact hfinal hmem hcreated _ rfl
  | released hold hmem hcreated => exact hfinal hmem hcreated _ rfl

/-- Whatever calls commit, in any order, ids and keys of the holds of a wallet stay unique, no hold is
lost or reserves something else, and a captured or released one never changes again. -/
theorem holds_settleOnce (books : Books) (earlier later : List (HoldCall × HoldCall.Chance)) :
    let before := run HoldCall.commit { books with holds := [] } earlier
    Keyed before ∧ HoldsFinal before.holds (run HoldCall.commit before later).holds := by
  intro before
  have hcommit (books : Books) call (h : Keyed books) : Keyed (HoldCall.commit books call) :=
    h.handle call.1 call.2
  have hbefore : Keyed before :=
    invariant_run hcommit earlier _ ⟨List.nodup_nil, List.nodup_nil, fun _ hmem ↦ by cases hmem⟩
  have hstep (books : Books) call (h : Keyed books) :
      HoldsFinal books.holds (HoldCall.commit books call).holds :=
    (holdChange_handle call.1 call.2 books).1.final h
  have htrans (first second third : Books) (h : HoldsFinal first.holds second.holds)
      (h' : HoldsFinal second.holds third.holds) : HoldsFinal first.holds third.holds :=
    ⟨h.reserved.trans h'.reserved, fun hold hmem hne ↦
      h'.settled hold (h.settled hold hmem hne) hne⟩
  refine ⟨hbefore, relation_run ?_ htrans hcommit hstep later before hbefore⟩
  exact fun _ ↦ ⟨List.prefix_rfl, fun _ hmem _ ↦ hmem⟩

end Change

end CloudPlatform.Wallets
