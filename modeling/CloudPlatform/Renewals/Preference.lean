import Mathlib.Logic.Function.Basic
import CloudPlatform.Renewals.Knowledge

/-!
# The renewal preference

A customer turns automatic renewal off while passes and settlements work on their copies of the
record. Every write stores the preference of the copy, so the preference stays off exactly as long as
no worker writes from a copy that it loaded while automatic renewal was on
(`respected_iff_writesLoadedOff`).
-/

namespace CloudPlatform.Renewals

open Transition
open Wallets (Books HoldCall)

/-- The rows of a service and what has been seen of them. `off` says that the customer has turned
automatic renewal off and not on again, `loaded` is the preference that each worker has loaded last,
`bound` marks the passes that loaded the record while it was off, and `debited` says that one of these
has debited the wallet. -/
structure PreferenceWatch where
  rows : RenewalRows
  off : Bool := false
  loaded : ℕ → Option Bool := fun _ ↦ none
  bound : ℕ → Bool := fun _ ↦ false
  debited : Bool := false

namespace PreferenceWatch

/-- What is seen of a call of a worker. -/
def observe (watch : PreferenceWatch) (me : ℕ) :
    (request : RenewalCall) → Result request.Out → PreferenceWatch
  | .listActive, .ok (some record) =>
    { watch with
      loaded := Function.update watch.loaded me (some record.autoChargeEnabled)
      bound := Function.update watch.bound me watch.off }
  | .lockForUpdate _, .ok (some record) =>
    { watch with
      loaded := Function.update watch.loaded me (some record.autoChargeEnabled)
      bound := Function.update watch.bound me false }
  | .setAutoRenew _ enabled, .ok _ => { watch with off := !enabled }
  | _, _ => watch

/-- The call takes money from the wallet. -/
def debits (before after : Books) : Bool :=
  after.wallet.balance < before.wallet.balance

/-- One call of a worker. -/
def handle (me : ℕ) (request : RenewalCall) (chance : HoldCall.Chance) (watch : PreferenceWatch) :
    Result request.Out × PreferenceWatch :=
  ((request.handle chance watch.rows).1,
    { watch.observe me request (request.handle chance watch.rows).1 with
      rows := (request.handle chance watch.rows).2
      debited := watch.debited ||
        watch.bound me && debits watch.rows.books (request.handle chance watch.rows).2.books })

end PreferenceWatch

/-- While automatic renewal is off the record says so, and no pass that has loaded the record since
has debited the wallet. -/
structure Respected (watch : PreferenceWatch) : Prop where
  stays : watch.off = true → ∀ record ∈ watch.rows.record, record.autoChargeEnabled = false
  spared : watch.debited = false

/-- While automatic renewal is off, a write comes from a copy that was loaded with it off. -/
def WritesLoadedOff (me : ℕ) (watch : PreferenceWatch) : RenewalCall → Prop
  | .upsert _ => watch.off = true → watch.loaded me = some false
  | _ => True

/-! ### What the workers know of their copies -/

/-- A worker knows the preference that it has loaded. -/
def KnowsPreference (me : ℕ) (watch : PreferenceWatch) (l : Known) : Prop :=
  ∀ copy, l.copy = some copy → watch.loaded me = some copy.autoChargeEnabled ∧
    (watch.bound me = true → l.automatic = true)

namespace KnowsPreference

variable {me other : ℕ} {watch after : PreferenceWatch} {l later : Known}

theorem mono (h : KnowsPreference me watch l) (hextends : l.Extends later)
    (hloaded : after.loaded me = watch.loaded me) (hbound : after.bound me = watch.bound me) :
    KnowsPreference me after later := by
  intro copy hcopy
  rw [hloaded, hbound, hextends.automatic]
  exact h copy (hextends.copy ▸ hcopy)

end KnowsPreference

section Calls

variable {me other : ℕ} {watch : PreferenceWatch} {l : Known} {request : RenewalCall}
  {chance : HoldCall.Chance}

/-- A call teaches nothing about the copies of the others. -/
theorem observe_of_ne (watch : PreferenceWatch) (hother : other ≠ me) (reply : Result request.Out) :
    (watch.observe me request reply).loaded other = watch.loaded other ∧
      (watch.observe me request reply).bound other = watch.bound other := by
  cases request with
  | listActive =>
    match reply with
    | .ok (some record) => exact ⟨Function.update_of_ne hother .., Function.update_of_ne hother ..⟩
    | .ok none => exact ⟨rfl, rfl⟩
    | .error _ => exact ⟨rfl, rfl⟩
  | lockForUpdate serverId =>
    match reply with
    | .ok (some record) => exact ⟨Function.update_of_ne hother .., Function.update_of_ne hother ..⟩
    | .ok none => exact ⟨rfl, rfl⟩
    | .error _ => exact ⟨rfl, rfl⟩
  | setAutoRenew serverId enabled => cases reply <;> exact ⟨rfl, rfl⟩
  | _ => exact ⟨rfl, rfl⟩

/-- What a worker learns of the preference is what is seen of its calls. -/
theorem KnowsPreference.learns (h : KnowsPreference me watch l) (hpermits : l.permits request)
    (reply : Result request.Out) :
    KnowsPreference me (watch.observe me request reply) (l.learns request reply) := by
  cases request with
  | listActive =>
    match reply with
    | .ok (some record) =>
      intro copy hcopy
      obtain rfl := Option.some.inj hcopy
      exact ⟨Function.update_self .., fun _ ↦ hpermits⟩
    | .ok none => exact fun copy hcopy ↦ nomatch hcopy
    | .error _ => exact h
  | lockForUpdate serverId =>
    match reply with
    | .ok (some record) =>
      intro copy hcopy
      obtain rfl := Option.some.inj hcopy
      refine ⟨Function.update_self .., fun hbound ↦ ?_⟩
      have hfree : Function.update watch.bound me false me = true := hbound
      rw [Function.update_self] at hfree
      cases hfree
    | .ok none => exact fun copy hcopy ↦ nomatch hcopy
    | .error _ => exact h
  | setAutoRenew serverId enabled => cases reply <;> exact h
  | hold request => exact h.mono (.of_learnsHold l request reply) rfl rfl
  | _ => exact h

theorem preference_sound :
    renewalProtocol.Sound PreferenceWatch.handle (fun _ ↦ True) KnowsPreference
      fun _ _ _ ↦ True where
  truthful me request chance watch _ := truthful_handle request chance watch.rows
  kept _ _ _ _ _ _ _ _ _ := trivial
  learned me request chance watch l _ hknow hpermits _ := hknow.learns hpermits _
  others me request chance watch l _ _ _ _ other hother l' hother' := by
    obtain ⟨hloaded, hbound⟩ := observe_of_ne watch hother
      (request.handle chance watch.rows).1
    exact hother'.mono (.refl l') hloaded hbound

/-- The preference that is written is the one that was loaded. -/
theorem loaded_of_upsert {record : RenewalRecord}
    (h : Informed renewalProtocol (fun _ ↦ True) KnowsPreference me watch (.upsert record)) :
    watch.loaded me = some record.autoChargeEnabled := by
  obtain ⟨-, l, hknow, copy, hcopy, hwrites⟩ := h
  rw [(hknow copy hcopy).1, hwrites.preference]

/-- A pass captures only with a copy that has automatic renewal on. -/
theorem loaded_of_capture {holdId : Uuid} (hbound : watch.bound me = true)
    (h : Informed renewalProtocol (fun _ ↦ True) KnowsPreference me watch (.hold (.capture holdId))) :
    watch.loaded me = some true := by
  obtain ⟨-, l, hknow, -, -, copy, hcopy, hfree⟩ := h
  obtain ⟨hloaded, hautomatic⟩ := hknow copy hcopy
  rw [hloaded, hfree (hautomatic hbound)]

/-- Only a capture takes money from the wallet. -/
theorem debits_eq_false (hcapture : ∀ holdId, request ≠ .hold (.capture holdId)) (rows : RenewalRows) :
    PreferenceWatch.debits rows.books (request.handle chance rows).2.books = false := by
  have hwallet : (request.handle chance rows).2.books.wallet = rows.books.wallet := by
    cases request with
    | hold request =>
      exact Wallets.handle_wallet fun holdId heq ↦ hcapture holdId (congrArg RenewalCall.hold heq)
    | setAutoRenew serverId enabled =>
      simp only [RenewalCall.handle]
      split <;> rfl
    | _ => rfl
  rw [PreferenceWatch.debits, hwallet]
  exact decide_eq_false (lt_irrefl _)

end Calls

/-! ### What one call keeps -/

/-- A respected preference, which the passes that are bound have loaded. -/
structure Bound (watch : PreferenceWatch) : Prop extends Respected watch where
  bound : ∀ me, watch.bound me = true → watch.loaded me = some false

section Step

variable {me : ℕ} {watch : PreferenceWatch} {request : RenewalCall} {chance : HoldCall.Chance}

/-- A pass that is bound after a call has loaded the preference. -/
theorem Bound.observe (h : Bound watch) (other : ℕ)
    (hbound : (watch.observe me request (request.handle chance watch.rows).1).bound other = true) :
    (watch.observe me request (request.handle chance watch.rows).1).loaded other = some false := by
  by_cases hother : other = me
  · subst hother
    cases request with
    | listActive =>
      cases hlisted : watch.rows.record.filter (·.status ≠ .cancelled) with
      | none =>
        simp only [RenewalCall.handle, hlisted, PreferenceWatch.observe] at hbound ⊢
        exact h.bound other hbound
      | some record =>
        simp only [RenewalCall.handle, hlisted, PreferenceWatch.observe, Function.update_self]
          at hbound ⊢
        rw [h.stays hbound record (Option.filter_eq_some_iff.mp hlisted).1]
    | lockForUpdate serverId =>
      cases hlocked : watch.rows.record.filter (·.serverId = serverId) with
      | none =>
        simp only [RenewalCall.handle, hlocked, PreferenceWatch.observe] at hbound ⊢
        exact h.bound other hbound
      | some record =>
        simp only [RenewalCall.handle, hlocked, PreferenceWatch.observe, Function.update_self]
          at hbound
        cases hbound
    | setAutoRenew serverId enabled =>
      generalize (RenewalCall.handle (.setAutoRenew serverId enabled) chance watch.rows).1 = reply
        at hbound ⊢
      cases reply with
      | ok record => exact h.bound other hbound
      | error raised => exact h.bound other hbound
    | _ => exact h.bound other hbound
  · have hsame := observe_of_ne watch hother
      (request.handle chance watch.rows).1
    rw [hsame.1]
    exact h.bound other (hsame.2 ▸ hbound)

/-- The record after a call still says that automatic renewal is off. -/
theorem Respected.stays_step (h : Respected watch)
    (hinformed : Informed renewalProtocol (fun _ ↦ True) KnowsPreference me watch request)
    (hwrites : WritesLoadedOff me watch request)
    (hoff : (watch.observe me request (request.handle chance watch.rows).1).off = true) :
    ∀ record ∈ (request.handle chance watch.rows).2.record, record.autoChargeEnabled = false := by
  cases request with
  | upsert written =>
    intro record hrecord
    obtain rfl := Option.some.inj hrecord
    have hloaded := hwrites hoff
    rw [loaded_of_upsert hinformed] at hloaded
    have hpreference : (upsert watch.rows.record written).autoChargeEnabled =
        written.autoChargeEnabled := by
      unfold upsert
      split <;> rfl
    rw [hpreference, Option.some.inj hloaded]
  | setAutoRenew serverId enabled =>
    cases hfound : watch.rows.record.filter (·.serverId = serverId) with
    | none =>
      simp only [RenewalCall.handle, hfound] at hoff ⊢
      exact h.stays hoff
    | some row =>
      simp only [RenewalCall.handle, hfound, PreferenceWatch.observe, Bool.not_eq_true'] at hoff ⊢
      intro record hrecord
      obtain rfl := Option.some.inj hrecord
      exact hoff
  | listActive =>
    have hsame : (watch.observe me .listActive (RenewalCall.handle .listActive chance watch.rows).1).off =
        watch.off := by
      unfold PreferenceWatch.observe
      split <;> simp_all
    exact h.stays (hsame ▸ hoff)
  | lockForUpdate serverId =>
    have hsame : (watch.observe me (.lockForUpdate serverId)
        (RenewalCall.handle (.lockForUpdate serverId) chance watch.rows).1).off = watch.off := by
      unfold PreferenceWatch.observe
      split <;> simp_all
    exact h.stays (hsame ▸ hoff)
  | _ => exact h.stays hoff

theorem Bound.step (h : Bound watch)
    (hinformed : Informed renewalProtocol (fun _ ↦ True) KnowsPreference me watch request)
    (hwrites : WritesLoadedOff me watch request) :
    Bound (PreferenceWatch.handle me request chance watch).2 := by
  refine ⟨⟨?_, ?_⟩, fun other hbound ↦ ?_⟩
  · exact fun hoff ↦ h.toRespected.stays_step hinformed hwrites hoff
  · show (watch.debited || _) = false
    rw [h.spared, Bool.false_or]
    by_cases hcapture : ∃ holdId, request = .hold (.capture holdId)
    · obtain ⟨holdId, rfl⟩ := hcapture
      cases hbound : watch.bound me with
      | false => rfl
      | true =>
        have hloaded := loaded_of_capture hbound hinformed
        rw [h.bound me hbound] at hloaded
        cases hloaded
    · rw [debits_eq_false (fun holdId heq ↦ hcapture ⟨holdId, heq⟩), Bool.and_false]
  · exact h.observe other hbound

/-- A write while automatic renewal is off needs a copy that was loaded with it off. -/
theorem writesLoadedOff_of_respected
    (hinformed : Informed renewalProtocol (fun _ ↦ True) KnowsPreference me watch request)
    (hafter : Respected (PreferenceWatch.handle me request chance watch).2) :
    WritesLoadedOff me watch request := by
  cases request with
  | upsert written =>
    intro hoff
    have hpreference := hafter.stays hoff (upsert watch.rows.record written) rfl
    have hwritten : written.autoChargeEnabled = false := by
      rw [← hpreference]
      unfold upsert
      split <;> rfl
    rw [loaded_of_upsert hinformed, hwritten]
  | _ => trivial

end Step

/-- One event of the workers and the customer on one service. -/
abbrev preferenceStep (policy : CommerceRenewalPolicy) (serverId : Uuid) :
    Pool Raised RenewalCall RenewalCall.Out PreferenceWatch →
      PoolEvent RenewalEntry HoldCall.Chance →
      Pool Raised RenewalCall RenewalCall.Out PreferenceWatch :=
  Pool.step PreferenceWatch.handle (RenewalEntry.program policy serverId)

/-- In every run of passes, settlements and changes of the preference, turning automatic renewal off is
respected exactly if no write, while it is off, comes from a copy that was loaded with it on. -/
theorem respected_iff_writesLoadedOff (policy : CommerceRenewalPolicy) (serverId : Uuid)
    (rows : RenewalRows) (events : List (PoolEvent RenewalEntry HoldCall.Chance)) :
    Throughout (preferenceStep policy serverId) (fun pool ↦ Respected pool.shared)
        ⟨{ rows := rows }, []⟩ events ↔
      Along (preferenceStep policy serverId) (Pool.Allowed (fun _ ↦ True) WritesLoadedOff)
        ⟨{ rows := rows }, []⟩ events := by
  have hinit : Bound { rows := rows } := ⟨⟨fun h ↦ (nomatch h), rfl⟩, fun _ h ↦ (nomatch h)⟩
  refine Pool.throughout_iff_allowed preference_sound
    (fun entry ↦ { automatic := entry = .pass }) (fun entry _ ↦ follows_program policy serverId entry)
    (fun _ _ _ _ _ hcopy ↦ (nomatch hcopy)) (fun _ h ↦ h.toRespected) ?_ ?_ events _ trivial hinit
    (Pool.along_allowed_true _ _ events _)
  · exact fun me watch request chance hinformed h hwrites ↦ h.step hinformed hwrites
  · exact fun me watch request chance hinformed _ hafter ↦
      writesLoadedOff_of_respected hinformed hafter

namespace PreferenceRuns

def serverId : Uuid :=
  ⟨"5f1f9d8e-0000-4000-8000-000000000001", .refl true⟩

def account : Uuid :=
  ⟨"5f1f9d8e-0000-4000-8000-000000000002", .refl true⟩

/-- A service whose period has ended, and a wallet that does not cover the next one. -/
def rows : RenewalRows where
  books := { wallet := ⟨account, account, 0, "EUR"⟩ }
  record := some
    { serverId := serverId
      purchasedAt := 0
      customerPriceMinor := 500
      currency := "EUR"
      providerRenewalAt := some 0
      price_pos := fiveHundred_pos
      currency_length := length_eur }
  server := some
    { id := serverId
      userId := account
      providerKey := "hetzner"
      state := .running }

def chance : HoldCall.Chance :=
  ⟨Calendar.hour, account⟩

/-- The customer turns automatic renewal off between the load of a pass and its write. -/
def overtaken : List (PoolEvent RenewalEntry HoldCall.Chance) :=
  [.spawn .pass, .advance 0 chance, .spawn (.setAutoRenew false), .advance 1 chance] ++
    List.replicate 5 (.advance 0 chance)

end PreferenceRuns

/-- A pass that marks the service due from its earlier copy turns automatic renewal on again. -/
theorem not_respected_of_overtaken :
    ¬ ∀ (policy : CommerceRenewalPolicy) (serverId : Uuid) (rows : RenewalRows)
        (events : List (PoolEvent RenewalEntry HoldCall.Chance)),
      Along (preferenceStep policy serverId)
        (Pool.Allowed (fun entry ↦ entry = .pass ∨ entry = .setAutoRenew false) fun _ _ _ ↦ True)
        ⟨{ rows := rows }, []⟩ events →
      Throughout (preferenceStep policy serverId) (fun pool ↦ Respected pool.shared)
        ⟨{ rows := rows }, []⟩ events := by
  intro h
  have hrun := h {} PreferenceRuns.serverId PreferenceRuns.rows PreferenceRuns.overtaken (by decide)
  rw [throughout_iff_forall_take] at hrun
  have hlast := (hrun 9).stays (by decide)
  have hon : (run (preferenceStep {} PreferenceRuns.serverId) ⟨{ rows := PreferenceRuns.rows }, []⟩
      (PreferenceRuns.overtaken.take 9)).shared.rows.record.all (·.autoChargeEnabled) = true := by
    decide
  rw [Option.all_eq_true] at hon
  have hsome : (run (preferenceStep {} PreferenceRuns.serverId) ⟨{ rows := PreferenceRuns.rows }, []⟩
      (PreferenceRuns.overtaken.take 9)).shared.rows.record.isSome = true := by
    decide
  obtain ⟨record, hrecord⟩ := Option.isSome_iff_exists.mp hsome
  have hoff := hlast record hrecord
  rw [hon record hrecord] at hoff
  cases hoff

end CloudPlatform.Renewals
