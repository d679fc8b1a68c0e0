import Mathlib.Logic.Function.Basic
import CloudPlatform.Renewals.Knowledge
import CloudPlatform.Wallets.HoldRows

/-!
# Advancing the renewal instant

Any number of passes and settlements work on one service. The charge of a period is captured at most
once, and every period that is advanced over has been captured, whatever the interleaving. The instant
itself goes back only by a write from a copy that another worker has overtaken: a run never goes back
exactly if every write finds the instant that its worker has loaded, or the one that it writes
(`renews_iff_notOvertaken`).
-/

namespace CloudPlatform.Renewals

open Transition
open Wallets (Books Hold HoldCall HoldsStay Keyed)

/-- The renewal instant of a row. -/
def RenewalRows.instant (rows : RenewalRows) : Option ℤ :=
  rows.record.bind (·.providerRenewalAt)

/-- The charge of the period that a renewal instant starts has been captured. -/
def PaidFor (books : Books) (serverId : Uuid) (renewalAt : ℤ) : Prop :=
  ∃ hold ∈ books.holds, hold.idempotencyKey = renewalChargeKey serverId (periodOf renewalAt) ∧
    hold.status = .captured

/-- The rows of a service and what has been seen of them: the renewal instants that the record has had,
and the one that each worker has loaded last. -/
structure InstantWatch where
  rows : RenewalRows
  past : List ℤ := []
  loaded : ℕ → Option ℤ := fun _ ↦ none

namespace InstantWatch

/-- What the workers have loaded after a call. -/
def observe (watch : InstantWatch) (me : ℕ) :
    (request : RenewalCall) → Result request.Out → ℕ → Option ℤ
  | .listActive, .ok (some record) => Function.update watch.loaded me record.providerRenewalAt
  | .lockForUpdate _, .ok (some record) => Function.update watch.loaded me record.providerRenewalAt
  | _, _ => watch.loaded

/-- One call of a worker. -/
def handle (me : ℕ) (request : RenewalCall) (chance : HoldCall.Chance) (watch : InstantWatch) :
    Result request.Out × InstantWatch :=
  ((request.handle chance watch.rows).1,
    { rows := (request.handle chance watch.rows).2
      past := watch.past ++ watch.rows.instant.toList
      loaded := watch.observe me request (request.handle chance watch.rows).1 })

end InstantWatch

/-- The charges of a service and its renewal instant: no period is captured twice, the instant is some
months after the initial one with each of them captured, it is not before one that it has had, and a
service that was advanced is not due or suspended for an earlier period. -/
structure Renews (serverId : Uuid) (initial : ℤ) (watch : InstantWatch) : Prop where
  once : ∀ renewalAt, (watch.rows.books.holds.filter fun hold ↦
    hold.idempotencyKey = renewalChargeKey serverId (periodOf renewalAt) ∧
      hold.status = .captured).length ≤ 1
  advances : ∃ count : ℕ, watch.rows.instant = some (initial + count * monthPeriod) ∧
    ∀ earlier < count, PaidFor watch.rows.books serverId (initial + earlier * monthPeriod)
  forward : ∀ past ∈ watch.past, ∀ renewalAt ∈ watch.rows.instant, past ≤ renewalAt
  settled : ∀ record ∈ watch.rows.record, ∀ renewalAt ∈ record.providerRenewalAt,
    (∃ past ∈ watch.past, renewalAt < past) →
      record.status ≠ .paymentDue ∧ record.status ≠ .suspended

/-- A write finds the instant that its worker has loaded, or the one that it writes. -/
def NotOvertaken (me : ℕ) (watch : InstantWatch) : RenewalCall → Prop
  | .upsert record =>
    watch.rows.instant = watch.loaded me ∨ watch.rows.instant = record.providerRenewalAt
  | _ => True

instance (me : ℕ) (watch : InstantWatch) : DecidablePred (NotOvertaken me watch)
  | .upsert record =>
    inferInstanceAs (Decidable
      (watch.rows.instant = watch.loaded me ∨ watch.rows.instant = record.providerRenewalAt))
  | .now => .isTrue trivial
  | .listActive => .isTrue trivial
  | .lockForUpdate _ => .isTrue trivial
  | .setAutoRenew .. => .isTrue trivial
  | .server _ => .isTrue trivial
  | .wallet _ => .isTrue trivial
  | .hold _ => .isTrue trivial

/-! ### What holds in every run -/

/-- The instant is some months after the initial one, each of them captured. -/
def Reached (serverId : Uuid) (initial : ℤ) (books : Books) (instant : Option ℤ) : Prop :=
  ∃ count : ℕ, instant = some (initial + count * monthPeriod) ∧
    ∀ earlier < count, PaidFor books serverId (initial + earlier * monthPeriod)

/-- The rows and the history of a service, in every run. -/
structure Sequenced (serverId : Uuid) (initial : ℤ) (watch : InstantWatch) : Prop where
  keyed : Keyed watch.rows.books
  owner : ∀ record ∈ watch.rows.record, record.serverId = serverId
  reached : Reached serverId initial watch.rows.books watch.rows.instant
  seen : ∀ me, ∀ renewalAt ∈ watch.loaded me,
    renewalAt ∈ watch.past ∨ renewalAt ∈ watch.rows.instant

/-- What a worker has learned is true: its copy reached its instant, and its hold is as it was seen. -/
structure Learned (serverId : Uuid) (initial : ℤ) (me : ℕ) (watch : InstantWatch) (l : Known) :
    Prop where
  copy : ∀ copy, l.copy = some copy → copy.serverId = serverId ∧
    watch.loaded me = copy.providerRenewalAt ∧
    Reached serverId initial watch.rows.books copy.providerRenewalAt
  hold : ∀ id, l.hold = some id → ∃ hold ∈ watch.rows.books.holds, hold.id = id ∧
    l.key = some hold.idempotencyKey ∧ (l.live = true → hold.status ≠ .released)
  paid : l.paid = true → ∃ hold ∈ watch.rows.books.holds, l.key = some hold.idempotencyKey ∧
    hold.status = .captured

section Stay

variable {serverId : Uuid} {initial : ℤ} {before after : Books} {instant : Option ℤ}

theorem PaidFor.mono {renewalAt : ℤ} (hstay : HoldsStay before after)
    (h : PaidFor before serverId renewalAt) : PaidFor after serverId renewalAt := by
  obtain ⟨hold, hhold, hkey, hcaptured⟩ := h
  obtain ⟨later, hlater, -, hlaterKey, hstatus⟩ := hstay hold hhold
  refine ⟨later, hlater, hlaterKey.trans hkey, ?_⟩
  rcases hstatus with hsame | ⟨hcreated, -⟩
  · rw [hsame, hcaptured]
  · rw [hcaptured] at hcreated
    cases hcreated

theorem Reached.mono (hstay : HoldsStay before after) (h : Reached serverId initial before instant) :
    Reached serverId initial after instant := by
  obtain ⟨count, hinstant, hpaid⟩ := h
  exact ⟨count, hinstant, fun earlier hearlier ↦ (hpaid earlier hearlier).mono hstay⟩

/-- The instant after a paid period is reached. -/
theorem Reached.succ {renewalAt : ℤ} (h : Reached serverId initial before (some renewalAt))
    (hpaid : PaidFor before serverId renewalAt) :
    Reached serverId initial before (some (renewalAt + monthPeriod)) := by
  obtain ⟨count, hinstant, hearlier⟩ := h
  obtain rfl := Option.some.inj hinstant
  refine ⟨count + 1, congrArg some (by push_cast; rw [Int.add_mul, Int.one_mul, Int.add_assoc]), ?_⟩
  intro earlier hlt
  rcases Nat.lt_succ_iff_lt_or_eq.mp hlt with hbefore | rfl
  · exact hearlier earlier hbefore
  · exact hpaid

variable {me : ℕ} {watch later : InstantWatch} {l : Known}

/-- What was learned stays true while the holds stay. -/
theorem Learned.mono (h : Learned serverId initial me watch l)
    (hstay : HoldsStay watch.rows.books later.rows.books) (hloaded : later.loaded me = watch.loaded me) :
    Learned serverId initial me later l where
  copy copy hcopy := by
    obtain ⟨hid, hsame, hreached⟩ := h.copy copy hcopy
    exact ⟨hid, hloaded.trans hsame, hreached.mono hstay⟩
  hold id hid := by
    obtain ⟨hold, hhold, hsame, hkey, hlive⟩ := h.hold id hid
    obtain ⟨last, hlast, hlastId, hlastKey, hstatus⟩ := hstay hold hhold
    refine ⟨last, hlast, hlastId.trans hsame, by rw [hkey, hlastKey], fun hl ↦ ?_⟩
    rcases hstatus with hkept | ⟨-, hcaptured⟩
    · rw [hkept]
      exact hlive hl
    · rw [hcaptured]
      exact fun h ↦ nomatch h
  paid hpaid := by
    obtain ⟨hold, hhold, hkey, hcaptured⟩ := h.paid hpaid
    obtain ⟨last, hlast, -, hlastKey, hstatus⟩ := hstay hold hhold
    refine ⟨last, hlast, by rw [hkey, hlastKey], ?_⟩
    rcases hstatus with hkept | ⟨hcreated, -⟩
    · rw [hkept, hcaptured]
    · rw [hcaptured] at hcreated
      cases hcreated

end Stay

/-! ### What one call keeps -/

section Calls

variable {serverId : Uuid} {initial : ℤ} {me : ℕ} {watch : InstantWatch} {l : Known}
  {request : RenewalCall} {chance : HoldCall.Chance}

/-- The holds stay under every call that the protocol permits. -/
theorem holdsStay_call (hpermits : l.permits request) (chance : HoldCall.Chance) (rows : RenewalRows)
    (h : Keyed rows.books) : HoldsStay rows.books (request.handle chance rows).2.books := by
  cases request with
  | hold request =>
    refine Wallets.holdsStay_handle (fun holdId heq ↦ ?_) h
    subst heq
    exact hpermits
  | setAutoRenew serverId enabled =>
    simp only [RenewalCall.handle]
    split <;> exact .of_holds rfl
  | _ => exact .of_holds rfl

/-- What the worker writes is a record of the service, at its own instant or at the next one. -/
theorem Learned.writes (h : Learned serverId initial me watch l) {copy record : RenewalRecord}
    (hcopy : l.copy = some copy) (hwrites : l.Writes copy record) : record.serverId = serverId ∧
      Reached serverId initial watch.rows.books record.providerRenewalAt ∧
      ∃ renewalAt, watch.loaded me = some renewalAt ∧ (record.providerRenewalAt = some renewalAt ∨
        record.providerRenewalAt = some (renewalAt + monthPeriod)) := by
  obtain ⟨hid, hloaded, hreached⟩ := h.copy copy hcopy
  obtain ⟨renewalAt, hinstant, hwritten⟩ := hwrites.instant
  rw [hinstant] at hloaded hreached
  refine ⟨hwrites.serverId.trans hid, ?_, renewalAt, hloaded, hwritten.imp_right And.right⟩
  rcases hwritten with hmark | ⟨hpaid, hadvance⟩
  · rw [hmark]
    exact hreached
  · rw [hadvance]
    obtain ⟨hold, hhold, hkey, hcaptured⟩ := h.paid hpaid
    refine hreached.succ ⟨hold, hhold, ?_, hcaptured⟩
    have hcopyKey : l.key = some (renewalChargeKey serverId (periodOf renewalAt)) := by
      rw [Known.key, hcopy, Option.bind_some, RenewalRecord.chargeKey, hinstant, Option.map_some, hid]
    exact Option.some.inj (hkey.symm.trans hcopyKey)

/-- The record after a call is of the service, at an instant that is reached. -/
theorem Sequenced.reached_call (h : Sequenced serverId initial watch)
    (hknow : Learned serverId initial me watch l) (hpermits : l.permits request)
    (chance : HoldCall.Chance) :
    (∀ record ∈ (request.handle chance watch.rows).2.record, record.serverId = serverId) ∧
      Reached serverId initial (request.handle chance watch.rows).2.books
        (request.handle chance watch.rows).2.instant := by
  have hstay := holdsStay_call hpermits chance watch.rows h.keyed
  cases request with
  | upsert record =>
    obtain ⟨copy, hcopy, hwrites⟩ := hpermits
    obtain ⟨hid, hreached, -⟩ := hknow.writes hcopy hwrites
    have hinstant : (upsert watch.rows.record record).providerRenewalAt = record.providerRenewalAt := by
      unfold upsert
      split <;> rfl
    refine ⟨fun saved hsaved ↦ ?_, ?_⟩
    · obtain rfl := Option.some.inj hsaved
      unfold upsert
      split
      · exact hid
      · rename_i row hrow
        exact h.owner row hrow
    · show Reached serverId initial watch.rows.books (upsert watch.rows.record record).providerRenewalAt
      rw [hinstant]
      exact hreached
  | setAutoRenew target enabled =>
    cases hfound : watch.rows.record.filter (·.serverId = target) with
    | none =>
      simp only [RenewalCall.handle, hfound]
      exact ⟨h.owner, h.reached⟩
    | some row =>
      have hrow := (Option.filter_eq_some_iff.mp hfound).1
      simp only [RenewalCall.handle, hfound]
      refine ⟨fun saved hsaved ↦ ?_, ?_⟩
      · obtain rfl := Option.some.inj hsaved
        exact h.owner row hrow
      · have hreached := h.reached
        rw [RenewalRows.instant, hrow] at hreached
        exact hreached
  | hold request => exact ⟨h.owner, h.reached.mono hstay⟩
  | _ => exact ⟨h.owner, h.reached⟩

/-- What a hold that was read teaches. -/
theorem Learned.read {hold : Hold} (h : Learned serverId initial me watch l) (live paid : Bool)
    (hmem : hold ∈ watch.rows.books.holds) (hkey : l.key = some hold.idempotencyKey)
    (hlive : live = true → hold.status ≠ .released)
    (hpaid : paid = true → l.paid = true ∨ hold.status = .captured) :
    Learned serverId initial me watch { l with hold := some hold.id, live := live, paid := paid } where
  copy := h.copy
  hold id hid := by
    obtain rfl := Option.some.inj hid
    exact ⟨hold, hmem, rfl, hkey, hlive⟩
  paid hseen := by
    rcases hpaid hseen with hbefore | hcaptured
    · exact h.paid hbefore
    · exact ⟨hold, hmem, hkey, hcaptured⟩

/-- What a reply of the books teaches is true. -/
theorem Learned.learnsHold {request : HoldCall} (h : Learned serverId initial me watch l)
    (hkeyed : Keyed watch.rows.books) (hpermits : l.permitsHold request) :
    Learned serverId initial me (InstantWatch.handle me (.hold request) chance watch).2
      (l.learnsHold request (request.handle chance watch.rows.books).1) := by
  have hcall : l.permits (.hold request) := hpermits
  have hstay : HoldsStay watch.rows.books (request.handle chance watch.rows.books).2 :=
    holdsStay_call hcall chance watch.rows hkeyed
  have hmono : Learned serverId initial me (InstantWatch.handle me (.hold request) chance watch).2 l :=
    h.mono hstay rfl
  cases request with
  | create walletId amount currency key =>
    cases hreply : (HoldCall.handle (.create walletId amount currency key) chance
        watch.rows.books).1 with
    | error raised => exact hmono
    | ok hold =>
      obtain ⟨hmem, hkey, hcreated⟩ := Wallets.mem_of_create hreply
      have hown : l.key = some hold.idempotencyKey := hkey ▸ hpermits.1
      have hlearns : l.learnsHold (.create walletId amount currency key) (.ok hold) =
          { l with hold := some hold.id, live := true } := if_pos hpermits.1
      rw [hlearns]
      exact hmono.read true l.paid hmem hown (fun _ hreleased ↦ by rw [hcreated] at hreleased; cases hreleased)
        fun hpaid ↦ .inl hpaid
  | getByIdempotency walletId key =>
    cases hfound : watch.rows.books.holdByKey walletId key with
    | none =>
      simp only [HoldCall.handle, hfound]
      exact hmono
    | some hold =>
      obtain ⟨hmem, -, hkey⟩ := Wallets.mem_of_holdByKey hfound
      simp only [HoldCall.handle, hfound]
      unfold Known.learnsHold
      by_cases hown : l.key = some key
      · simp only [if_pos hown]
        exact hmono.read _ _ hmem (hkey ▸ hown) of_decide_eq_true
          fun hpaid ↦ ((Bool.or_eq_true _ _).mp hpaid).imp_right of_decide_eq_true
      · simp only [if_neg hown]
        exact hmono
  | get id =>
    cases hfound : watch.rows.books.hold id with
    | none =>
      simp only [HoldCall.handle, hfound]
      exact hmono
    | some hold =>
      obtain ⟨hmem, hid⟩ := Books.mem_of_hold hfound
      simp only [HoldCall.handle, hfound]
      unfold Known.learnsHold
      by_cases hown : l.hold = some id
      · simp only [if_pos hown]
        obtain ⟨other, hother, hsame, hkey, hlive⟩ := h.hold id hown
        obtain rfl : other = hold :=
          List.inj_on_of_nodup_map hkeyed.ids hother hmem (hsame.trans hid.symm)
        have hread := hmono.read (l.live || other.status ≠ .released)
          (l.paid || other.status = .captured) hmem hkey ?_ ?_
        · rw [hsame, ← hown] at hread
          exact hread
        · exact fun hseen ↦ ((Bool.or_eq_true _ _).mp hseen).elim hlive of_decide_eq_true
        · exact fun hpaid ↦ ((Bool.or_eq_true _ _).mp hpaid).imp_right of_decide_eq_true
      · simp only [if_neg hown]
        exact hmono
  | capture id =>
    cases hreply : (HoldCall.handle (.capture id) chance watch.rows.books).1 with
    | error raised => exact hmono
    | ok captured =>
      have hlearns : l.learnsHold (.capture id) (.ok captured) = { l with paid := true } :=
        if_pos hpermits.1
      rw [hlearns]
      obtain ⟨hold, hmem, hid, hkey, hlive⟩ := hmono.hold id hpermits.1
      have hterminal := Wallets.not_created_of_capture hkeyed hreply hold hmem hid
      refine ⟨hmono.copy, hmono.hold, fun _ ↦ ⟨hold, hmem, hkey, ?_⟩⟩
      exact Wallets.HoldStatus.captured_of_ne hterminal (hlive hpermits.2.1)
  | release id => exact hpermits.elim
  | post entry => exact hmono

/-- What a worker has loaded is true. -/
theorem Sequenced.learned_load (h : Sequenced serverId initial watch) {record : RenewalRecord}
    (hrecord : watch.rows.record = some record) {later : InstantWatch} (hrows : later.rows = watch.rows)
    (hloaded : later.loaded me = record.providerRenewalAt) :
    Learned serverId initial me later (l.loaded (some record)) where
  copy copy hcopy := by
    obtain rfl := Option.some.inj hcopy
    have hreached := h.reached
    rw [RenewalRows.instant, hrecord, Option.bind_some] at hreached
    exact ⟨h.owner record hrecord, hloaded, hrows ▸ hreached⟩
  hold _ hid := nomatch hid
  paid hpaid := nomatch hpaid

/-- What a reply teaches is true. -/
theorem Learned.learns (h : Learned serverId initial me watch l)
    (hseq : Sequenced serverId initial watch) (hpermits : l.permits request) :
    Learned serverId initial me (InstantWatch.handle me request chance watch).2
      (l.learns request (request.handle chance watch.rows).1) := by
  have hnothing : Learned serverId initial me (InstantWatch.handle me request chance watch).2
      (l.loaded none) :=
    ⟨fun _ hcopy ↦ (nomatch hcopy), fun _ hid ↦ (nomatch hid), fun hpaid ↦ (nomatch hpaid)⟩
  cases request with
  | listActive =>
    cases hlisted : watch.rows.record.filter (·.status ≠ .cancelled) with
    | none =>
      simp only [RenewalCall.handle, hlisted]
      exact hnothing
    | some record =>
      simp only [RenewalCall.handle, InstantWatch.handle, hlisted]
      exact hseq.learned_load (Option.filter_eq_some_iff.mp hlisted).1 rfl (Function.update_self ..)
  | lockForUpdate target =>
    cases hlocked : watch.rows.record.filter (·.serverId = target) with
    | none =>
      simp only [RenewalCall.handle, hlocked]
      exact hnothing
    | some record =>
      simp only [RenewalCall.handle, InstantWatch.handle, hlocked]
      exact hseq.learned_load (Option.filter_eq_some_iff.mp hlocked).1 rfl (Function.update_self ..)
  | hold request => exact h.learnsHold hseq.keyed hpermits
  | setAutoRenew target enabled =>
    have hstay := holdsStay_call hpermits chance watch.rows hseq.keyed
    exact h.mono hstay rfl
  | _ => exact h.mono (.of_holds rfl) rfl

/-- A call moves the loaded instant of no other worker. -/
theorem loaded_of_ne {other : ℕ} (watch : InstantWatch) (hother : other ≠ me)
    (reply : Result request.Out) : watch.observe me request reply other = watch.loaded other := by
  unfold InstantWatch.observe
  split
  · exact Function.update_of_ne hother ..
  · exact Function.update_of_ne hother ..
  · rfl

/-- An instant that a worker has loaded is one that the record has had. -/
theorem Sequenced.seen_call (h : Sequenced serverId initial watch) (other : ℕ) :
    ∀ renewalAt ∈ watch.observe me request (request.handle chance watch.rows).1 other,
      renewalAt ∈ watch.past ++ watch.rows.instant.toList := by
  have hbefore : ∀ renewalAt ∈ watch.loaded other,
      renewalAt ∈ watch.past ++ watch.rows.instant.toList := by
    intro renewalAt hloaded
    rcases h.seen other renewalAt hloaded with hpast | hnow
    · exact List.mem_append_left _ hpast
    · exact List.mem_append_right _ (Option.mem_toList.mpr hnow)
  have hload : ∀ record : RenewalRecord, watch.rows.record = some record →
      ∀ renewalAt ∈ Function.update watch.loaded me record.providerRenewalAt other,
        renewalAt ∈ watch.past ++ watch.rows.instant.toList := by
    intro record hrecord renewalAt hloaded
    by_cases hother : other = me
    · subst hother
      rw [Function.update_self] at hloaded
      refine List.mem_append_right _ (Option.mem_toList.mpr ?_)
      rw [RenewalRows.instant, hrecord]
      exact hloaded
    · rw [Function.update_of_ne hother] at hloaded
      exact hbefore renewalAt hloaded
  cases request with
  | listActive =>
    cases hlisted : watch.rows.record.filter (·.status ≠ .cancelled) with
    | none =>
      simp only [RenewalCall.handle, hlisted]
      exact hbefore
    | some record =>
      simp only [RenewalCall.handle, hlisted]
      exact hload record (Option.filter_eq_some_iff.mp hlisted).1
  | lockForUpdate target =>
    cases hlocked : watch.rows.record.filter (·.serverId = target) with
    | none =>
      simp only [RenewalCall.handle, hlocked]
      exact hbefore
    | some record =>
      simp only [RenewalCall.handle, hlocked]
      exact hload record (Option.filter_eq_some_iff.mp hlocked).1
  | _ => exact hbefore

/-- The rows stay in sequence under every call that the protocol permits. -/
theorem Sequenced.call (h : Sequenced serverId initial watch)
    (hknow : Learned serverId initial me watch l) (hpermits : l.permits request) :
    Sequenced serverId initial (InstantWatch.handle me request chance watch).2 := by
  obtain ⟨howner, hreached⟩ := h.reached_call hknow hpermits chance
  refine ⟨?_, howner, hreached, fun other renewalAt hloaded ↦ .inl (h.seen_call other _ hloaded)⟩
  cases request with
  | hold request => exact h.keyed.handle request chance
  | setAutoRenew target enabled =>
    simp only [InstantWatch.handle, RenewalCall.handle]
    split <;> exact h.keyed
  | _ => exact h.keyed

theorem instant_sound (serverId : Uuid) (initial : ℤ) :
    renewalProtocol.Sound InstantWatch.handle (Sequenced serverId initial)
      (Learned serverId initial) fun _ _ _ ↦ True where
  truthful _ request chance watch _ := truthful_handle request chance watch.rows
  kept _ _ _ _ _ hseq hknow hpermits _ := hseq.call hknow hpermits
  learned _ _ _ _ _ hseq hknow hpermits _ := hknow.learns hseq hpermits
  others _ _ chance watch _ hseq _ hpermits _ _ hother _ hother' :=
    hother'.mono (holdsStay_call hpermits chance watch.rows hseq.keyed) (loaded_of_ne watch hother _)

/-- Only a write moves the instant. -/
theorem instant_of_ne (hupsert : ∀ record, request ≠ .upsert record) (rows : RenewalRows) :
    (request.handle chance rows).2.instant = rows.instant := by
  cases request with
  | upsert record => exact absurd rfl (hupsert record)
  | setAutoRenew target enabled =>
    cases hfound : rows.record.filter (·.serverId = target) with
    | none => simp only [RenewalCall.handle, hfound]
    | some row =>
      rw [RenewalRows.instant, RenewalRows.instant, (Option.filter_eq_some_iff.mp hfound).1]
      simp only [RenewalCall.handle, hfound, Option.bind_some]
  | _ => rfl

/-- A write puts the instant of its record. -/
theorem instant_upsert (record : RenewalRecord) (chance : HoldCall.Chance) (rows : RenewalRows) :
    (RenewalCall.handle (.upsert record) chance rows).2.instant = record.providerRenewalAt := by
  show (upsert rows.record record).providerRenewalAt = record.providerRenewalAt
  unfold upsert
  split <;> rfl

end Calls

/-! ### Never back -/

/-- Rows in sequence whose instant is not before one that it has had. -/
structure NeverBack (serverId : Uuid) (initial : ℤ) (watch : InstantWatch) : Prop
    extends Sequenced serverId initial watch where
  forward : ∀ past ∈ watch.past, ∀ renewalAt ∈ watch.rows.instant, past ≤ renewalAt

/-- At most one captured hold has a key. -/
theorem length_captured_le_one {books : Books} (h : Keyed books) (key : String) :
    (books.holds.filter fun hold ↦ hold.idempotencyKey = key ∧ hold.status = .captured).length ≤ 1 := by
  let charged : List Hold := books.holds.filter fun hold ↦
    hold.idempotencyKey = key ∧ hold.status = .captured
  have hsame : ∀ hold ∈ charged, hold.idempotencyKey = key := by
    intro hold hhold
    have hmatches := (List.mem_filter.mp hhold).2
    exact (of_decide_eq_true hmatches).1
  have hsub : (charged.map (·.idempotencyKey)).Sublist (books.holds.map (·.idempotencyKey)) :=
    List.filter_sublist.map _
  have hnodup := h.keys.sublist hsub
  rw [List.map_eq_replicate_iff.mpr hsame] at hnodup
  exact List.nodup_replicate.mp hnodup

section Step

variable {serverId : Uuid} {initial : ℤ} {me : ℕ} {watch : InstantWatch} {request : RenewalCall}
  {chance : HoldCall.Chance}

theorem NeverBack.renews (h : NeverBack serverId initial watch) : Renews serverId initial watch where
  once renewalAt := length_captured_le_one h.keyed _
  advances := h.reached
  forward := h.forward
  settled record hrecord renewalAt hinstant hpast := by
    obtain ⟨past, hmem, hlt⟩ := hpast
    have hnow : renewalAt ∈ watch.rows.instant := by
      rw [RenewalRows.instant, Option.mem_def.mp hrecord, Option.bind_some]
      exact hinstant
    exact absurd (h.forward past hmem renewalAt hnow) (not_le.mpr hlt)

/-- A write that is not overtaken does not go back. -/
theorem NeverBack.step (h : NeverBack serverId initial watch)
    (hinformed : Informed renewalProtocol (Sequenced serverId initial) (Learned serverId initial) me
      watch request) (hcondition : NotOvertaken me watch request) :
    NeverBack serverId initial (InstantWatch.handle me request chance watch).2 := by
  obtain ⟨hseq, l, hknow, hpermits⟩ := hinformed
  refine ⟨hseq.call hknow hpermits, fun past hpast renewalAt hnow ↦ ?_⟩
  have hbefore : ∀ current ∈ watch.rows.instant, past ≤ current := by
    intro current hcurrent
    rcases List.mem_append.mp hpast with hearlier | hlast
    · exact h.forward past hearlier current hcurrent
    · rw [Option.mem_unique (Option.mem_toList.mp hlast) hcurrent]
  by_cases hupsert : ∃ record, request = .upsert record
  · obtain ⟨record, rfl⟩ := hupsert
    have hwritten : record.providerRenewalAt = some renewalAt := (instant_upsert record chance _).symm.trans hnow
    obtain ⟨copy, hcopy, hwrites⟩ := hpermits
    obtain ⟨-, -, loaded, hloaded, hadvance⟩ := hknow.writes hcopy hwrites
    rcases hcondition with hsame | hsame
    · have hle := hbefore loaded (hsame.trans hloaded)
      have hmonth : 0 < monthPeriod := by decide
      rcases hadvance with hmark | hnext
      · rw [hwritten] at hmark
        rwa [Option.some.inj hmark]
      · rw [hwritten] at hnext
        rw [Option.some.inj hnext]
        omega
    · exact hbefore renewalAt (hsame.trans hwritten)
  · have hsame : (request.handle chance watch.rows).2.instant = watch.rows.instant :=
      instant_of_ne (fun record heq ↦ hupsert ⟨record, heq⟩) watch.rows
    exact hbefore renewalAt (hsame ▸ hnow)

/-- A write that does not go back is not overtaken. -/
theorem notOvertaken_of_renews
    (hinformed : Informed renewalProtocol (Sequenced serverId initial) (Learned serverId initial) me
      watch request) (hbefore : Renews serverId initial watch)
    (hafter : Renews serverId initial (InstantWatch.handle me request chance watch).2) :
    NotOvertaken me watch request := by
  obtain ⟨hseq, l, hknow, hpermits⟩ := hinformed
  cases request with
  | upsert record =>
    obtain ⟨copy, hcopy, hwrites⟩ := hpermits
    obtain ⟨-, hreached, loaded, hloaded, hadvance⟩ := hknow.writes hcopy hwrites
    obtain ⟨count, hcurrent, -⟩ := hseq.reached
    obtain ⟨written, hwritten, -⟩ := hreached
    have hpast : initial + count * monthPeriod ∈ watch.past ++ watch.rows.instant.toList :=
      List.mem_append_right _ (Option.mem_toList.mpr hcurrent)
    have hforward : initial + count * monthPeriod ≤ initial + written * monthPeriod :=
      hafter.forward _ hpast _ ((instant_upsert record chance _).trans hwritten)
    have hsince : loaded ≤ initial + count * monthPeriod := by
      rcases hseq.seen me loaded hloaded with hearlier | hnow
      · exact hbefore.forward loaded hearlier _ hcurrent
      · rw [Option.mem_unique hnow hcurrent]
    have hmonth : monthPeriod = 2592000000000 := by decide
    rw [NotOvertaken, hloaded, hcurrent, hwritten]
    rw [hmonth] at hforward hsince ⊢
    rcases hadvance with hmark | hnext
    · have hsame := Option.some.inj (hwritten.symm.trans hmark)
      rw [hmonth] at hsame
      exact .inl (congrArg some (by omega))
    · have hsame := Option.some.inj (hwritten.symm.trans hnext)
      rw [hmonth] at hsame
      by_cases hequal : count = written
      · exact .inr (by rw [hequal])
      · exact .inl (congrArg some (by omega))
  | _ => trivial

end Step

/-- One event of the workers on one service. -/
abbrev instantStep (policy : CommerceRenewalPolicy) (serverId : Uuid) :
    Pool Raised RenewalCall RenewalCall.Out InstantWatch →
      PoolEvent RenewalEntry HoldCall.Chance → Pool Raised RenewalCall RenewalCall.Out InstantWatch :=
  Pool.step InstantWatch.handle (RenewalEntry.program policy serverId)

/-- In every run on a service with a renewal instant, the charges and the instant are in order throughout
exactly if no write is overtaken. -/
theorem renews_iff_notOvertaken (policy : CommerceRenewalPolicy) (rows : RenewalRows)
    (record : RenewalRecord) (initial : ℤ) (hrecord : rows.record = some record)
    (hinitial : record.providerRenewalAt = some initial) (hkeyed : Keyed rows.books)
    (events : List (PoolEvent RenewalEntry HoldCall.Chance)) :
    Throughout (instantStep policy record.serverId)
        (fun pool ↦ Renews record.serverId initial pool.shared) ⟨{ rows := rows }, []⟩ events ↔
      Along (instantStep policy record.serverId) (Pool.Allowed (fun _ ↦ True) NotOvertaken)
        ⟨{ rows := rows }, []⟩ events := by
  have hstart : NeverBack record.serverId initial { rows := rows } := by
    refine ⟨⟨hkeyed, fun row hrow ↦ ?_, ⟨0, ?_, fun _ hlt ↦ absurd hlt (Nat.not_lt_zero _)⟩,
      fun _ _ hloaded ↦ (nomatch hloaded)⟩, fun _ hpast ↦ (nomatch hpast)⟩
    · rw [Option.mem_unique hrow hrecord]
    · rw [RenewalRows.instant, hrecord, Option.bind_some, hinitial]
      simp
  refine Pool.throughout_iff_allowed (instant_sound record.serverId initial)
    (fun entry ↦ { automatic := entry = .pass })
    (fun entry _ ↦ follows_program policy record.serverId entry)
    (fun _ _ _ _ ↦ ⟨fun _ hcopy ↦ (nomatch hcopy), fun _ hid ↦ (nomatch hid), fun hpaid ↦ (nomatch hpaid)⟩)
    (fun _ h ↦ h.renews) ?_ ?_ events _ hstart.toSequenced hstart (Pool.along_allowed_true _ _ events _)
  · exact fun me watch request chance hinformed h hcondition ↦ h.step hinformed hcondition
  · exact fun me watch request chance hinformed hbefore hafter ↦
      notOvertaken_of_renews hinformed hbefore hafter

/-- In every run, overtaken writes or not, the renewal instant is the initial one plus as many months as
were captured in a row, and no two holds are of one month: no service gets a month that is not paid. -/
theorem instant_isPaid (policy : CommerceRenewalPolicy) (rows : RenewalRows) (record : RenewalRecord)
    (initial : ℤ) (hrecord : rows.record = some record)
    (hinitial : record.providerRenewalAt = some initial) (hkeyed : Keyed rows.books)
    (events : List (PoolEvent RenewalEntry HoldCall.Chance)) :
    Throughout (instantStep policy record.serverId) (fun pool ↦ Keyed pool.shared.rows.books ∧
        Reached record.serverId initial pool.shared.rows.books pool.shared.rows.instant)
      ⟨{ rows := rows }, []⟩ events := by
  have hstart : Sequenced record.serverId initial { rows := rows } := by
    refine ⟨hkeyed, fun row hrow ↦ ?_, ⟨0, ?_, fun _ hlt ↦ absurd hlt (Nat.not_lt_zero _)⟩,
      fun _ _ hloaded ↦ (nomatch hloaded)⟩
    · rw [Option.mem_unique hrow hrecord]
    · rw [RenewalRows.instant, hrecord, Option.bind_some, hinitial]
      simp
  have hsequenced := Pool.throughout_of_follows (instant_sound record.serverId initial)
    (fun entry ↦ { automatic := entry = .pass })
    (fun entry _ ↦ follows_program policy record.serverId entry)
    (fun _ _ _ _ ↦ ⟨fun _ hcopy ↦ (nomatch hcopy), fun _ hid ↦ (nomatch hid), fun hpaid ↦ (nomatch hpaid)⟩)
    events _ hstart (Pool.along_allowed_true _ _ events _)
  exact hsequenced.mono fun _ h ↦ ⟨h.keyed, h.reached⟩

namespace AdvanceRuns

def serverId : Uuid :=
  ⟨"b6e3a1c2-0000-4000-8000-000000000001", .refl true⟩

def account : Uuid :=
  ⟨"b6e3a1c2-0000-4000-8000-000000000002", .refl true⟩

def record : RenewalRecord where
  serverId := serverId
  purchasedAt := 0
  customerPriceMinor := 500
  currency := "EUR"
  providerRenewalAt := some 0
  price_pos := fiveHundred_pos
  currency_length := length_eur

/-- A service whose period has ended, and a wallet that covers the next one. -/
def rows : RenewalRows where
  books := { wallet := ⟨account, account, 1000, "EUR"⟩ }
  record := some record
  server := some
    { id := serverId
      userId := account
      providerKey := "hetzner"
      state := .running }

def chance : HoldCall.Chance :=
  ⟨Calendar.hour, account⟩

/-- One pass that charges the period. -/
def charged : List (PoolEvent RenewalEntry HoldCall.Chance) :=
  .spawn .pass :: List.replicate 14 (.advance 0 chance)

/-- A pass that has loaded the record, another that charges the period, and the first one's write. -/
def overtaken : List (PoolEvent RenewalEntry HoldCall.Chance) :=
  .spawn .pass :: List.replicate 5 (.advance 0 chance) ++
    .spawn .pass :: List.replicate 14 (.advance 1 chance) ++ [.advance 0 chance]

end AdvanceRuns

theorem keyed_rows : Keyed AdvanceRuns.rows.books where
  ids := List.nodup_nil
  keys := List.nodup_nil
  owned _ hhold := nomatch hhold

theorem renews_iff_notOvertaken_charged :
    (run (instantStep {} AdvanceRuns.record.serverId) ⟨{ rows := AdvanceRuns.rows }, []⟩
      AdvanceRuns.charged).shared.rows.instant = some monthPeriod ∧
    Throughout (instantStep {} AdvanceRuns.record.serverId)
      (fun pool ↦ Renews AdvanceRuns.record.serverId 0 pool.shared) ⟨{ rows := AdvanceRuns.rows }, []⟩
      AdvanceRuns.charged := by
  refine ⟨by decide +kernel, ?_⟩
  refine (renews_iff_notOvertaken {} AdvanceRuns.rows AdvanceRuns.record 0 rfl rfl keyed_rows
    AdvanceRuns.charged).mpr ?_
  decide +kernel

theorem instant_isPaid_overtaken :
    Throughout (instantStep {} AdvanceRuns.record.serverId) (fun pool ↦ Keyed pool.shared.rows.books ∧
        Reached AdvanceRuns.record.serverId 0 pool.shared.rows.books pool.shared.rows.instant)
      ⟨{ rows := AdvanceRuns.rows }, []⟩ AdvanceRuns.overtaken :=
  instant_isPaid {} AdvanceRuns.rows AdvanceRuns.record 0 rfl rfl keyed_rows AdvanceRuns.overtaken

/-- A pass that marks the service due from its earlier copy takes back the advance of another. -/
theorem not_renews_of_overtaken :
    ¬ ∀ (policy : CommerceRenewalPolicy) (rows : RenewalRows) (record : RenewalRecord) (initial : ℤ),
      rows.record = some record → record.providerRenewalAt = some initial → Keyed rows.books →
      ∀ events : List (PoolEvent RenewalEntry HoldCall.Chance),
        Along (instantStep policy record.serverId)
          (Pool.Allowed (fun entry ↦ entry = .pass ∨ entry = .settleNow) fun _ _ _ ↦ True)
          ⟨{ rows := rows }, []⟩ events →
        Throughout (instantStep policy record.serverId)
          (fun pool ↦ Renews record.serverId initial pool.shared) ⟨{ rows := rows }, []⟩ events := by
  intro h
  have hrun := h {} AdvanceRuns.rows AdvanceRuns.record 0 rfl rfl keyed_rows AdvanceRuns.overtaken
    (by decide +kernel)
  rw [throughout_iff_forall_take] at hrun
  have hpast : monthPeriod ∈ (run (instantStep {} AdvanceRuns.record.serverId)
      ⟨{ rows := AdvanceRuns.rows }, []⟩ (AdvanceRuns.overtaken.take 22)).shared.past := by
    decide +kernel
  have hnow : (0 : ℤ) ∈ (run (instantStep {} AdvanceRuns.record.serverId)
      ⟨{ rows := AdvanceRuns.rows }, []⟩ (AdvanceRuns.overtaken.take 22)).shared.rows.instant := by
    decide +kernel
  exact absurd ((hrun 22).forward _ hpast _ hnow) (by decide)

end CloudPlatform.Renewals
