import CloudPlatform.Renewals.Checker
import CloudPlatform.Transition.Protocol

/-!
# What a renewal worker knows

A worker writes the record that it loaded, with a change: it marks it, or, once it has seen the hold of
its period CAPTURED, advances it. `renewalProtocol` is this rule over what the worker has learned; it
says nothing of the row that is really there. The programs of the checker follow it
(`follows_program`), so that each property of their interleavings is one fact about their calls.
-/

namespace CloudPlatform.Renewals

open Compute (CloudServer)
open Transition
open Wallets (Hold HoldCall HoldProgram)

/-- The charge key of the period of a record. -/
def RenewalRecord.chargeKey (record : RenewalRecord) : Option String :=
  record.providerRenewalAt.map fun renewalAt ↦
    renewalChargeKey record.serverId (periodOf renewalAt)

/-- What a worker has learned. `automatic` marks a pass, `copy` is the record as it was loaded, `hold`
a hold under the charge key of its period, `live` says that this was seen not released, and `paid` that
it was seen captured. -/
structure Known where
  automatic : Bool
  copy : Option RenewalRecord := none
  hold : Option Uuid := none
  live : Bool := false
  paid : Bool := false

namespace Known

/-- The charge key of the period of the copy. -/
def key (l : Known) : Option String :=
  l.copy.bind RenewalRecord.chargeKey

/-- The worker may charge: a pass needs the preference of its copy. -/
def MayCharge (l : Known) : Prop :=
  ∃ copy, l.copy = some copy ∧ (l.automatic = true → copy.autoChargeEnabled = true)

/-- The record that is written is the copy with a mark, or advanced by one paid period. -/
structure Writes (l : Known) (copy record : RenewalRecord) : Prop where
  serverId : record.serverId = copy.serverId
  preference : record.autoChargeEnabled = copy.autoChargeEnabled
  instant : ∃ renewalAt, copy.providerRenewalAt = some renewalAt ∧
    (record.providerRenewalAt = some renewalAt ∨
      l.paid = true ∧ record.providerRenewalAt = some (renewalAt + monthPeriod))

/-- The rule of the calls on the books. -/
def permitsHold (l : Known) : HoldCall → Prop
  | .create _ _ _ key => l.key = some key ∧ l.MayCharge
  | .capture id => l.hold = some id ∧ l.live = true ∧ l.MayCharge
  | .release _ => False
  | .get _ => True
  | .getByIdempotency .. => True
  | .post _ => True

/-- The rule of the calls. -/
def permits (l : Known) : RenewalCall → Prop
  | .upsert record => ∃ copy, l.copy = some copy ∧ l.Writes copy record
  | .listActive => l.automatic = true
  | .hold request => l.permitsHold request
  | _ => True

/-- What a reply of the books teaches. -/
def learnsHold (l : Known) : (request : HoldCall) → Result request.Out → Known
  | .create _ _ _ key, .ok hold =>
    if l.key = some key then { l with hold := some hold.id, live := true } else l
  | .getByIdempotency _ key, .ok (some hold) =>
    if l.key = some key then
      { l with
        hold := some hold.id
        live := hold.status ≠ .released
        paid := l.paid || hold.status = .captured }
    else l
  | .get id, .ok (some hold) =>
    if l.hold = some id then
      { l with
        live := l.live || hold.status ≠ .released
        paid := l.paid || hold.status = .captured }
    else l
  | .capture id, .ok _ => if l.hold = some id then { l with paid := true } else l
  | _, _ => l

/-- The worker has loaded a record. -/
def loaded (l : Known) (record : Option RenewalRecord) : Known where
  automatic := l.automatic
  copy := record

/-- What a reply teaches. -/
def learns (l : Known) : (request : RenewalCall) → Result request.Out → Known
  | .listActive, .ok record => l.loaded record
  | .lockForUpdate _, .ok record => l.loaded record
  | .hold request, reply => l.learnsHold request reply
  | _, _ => l

end Known

/-- What is true of every reply of the books. -/
def truthfulHold : (request : HoldCall) → Result request.Out → Prop
  | .get id, .ok (some hold) => hold.id = id
  | _, _ => True

/-- What is true of every reply. -/
def truthful : (request : RenewalCall) → Result request.Out → Prop
  | .lockForUpdate serverId, .ok (some record) => record.serverId = serverId
  | .server serverId, .ok (some server) => server.id = serverId
  | .hold request, reply => truthfulHold request reply
  | _, _ => True

theorem truthfulHold_handle (request : HoldCall) (chance : HoldCall.Chance) (books : Wallets.Books) :
    truthfulHold request (request.handle chance books).1 := by
  cases request with
  | get id =>
    cases hfound : books.hold id with
    | none => simp only [HoldCall.handle, hfound, truthfulHold]
    | some hold =>
      simp only [HoldCall.handle, hfound, truthfulHold]
      exact (Wallets.Books.mem_of_hold hfound).2
  | _ => trivial

theorem truthful_handle (request : RenewalCall) (chance : HoldCall.Chance) (rows : RenewalRows) :
    truthful request (request.handle chance rows).1 := by
  cases request with
  | lockForUpdate serverId =>
    cases hfound : rows.record.filter (·.serverId = serverId) with
    | none => simp only [RenewalCall.handle, hfound, truthful]
    | some record =>
      simp only [RenewalCall.handle, hfound, truthful]
      exact of_decide_eq_true (Option.filter_eq_some_iff.mp hfound).2
  | server serverId =>
    cases hfound : rows.server.filter (·.id = serverId) with
    | none => simp only [RenewalCall.handle, hfound, truthful]
    | some server =>
      simp only [RenewalCall.handle, hfound, truthful]
      exact of_decide_eq_true (Option.filter_eq_some_iff.mp hfound).2
  | hold request => exact truthfulHold_handle request chance rows.books
  | _ => trivial

/-- The protocol of the renewal workers. -/
def renewalProtocol : Protocol Raised RenewalCall RenewalCall.Out Known where
  permits l request := l.permits request
  truthful request reply := truthful request reply
  learns l request reply := l.learns request reply

/-- The part of the protocol that the hold service sees. -/
def holdProtocol : Protocol Raised HoldCall HoldCall.Out Known where
  permits l request := l.permitsHold request
  truthful request reply := truthfulHold request reply
  learns l request reply := l.learnsHold request reply

/-! ### What a program leaves of what was known -/

/-- The copy and what has been paid stay. -/
structure Known.Extends (l after : Known) : Prop where
  automatic : after.automatic = l.automatic
  copy : after.copy = l.copy
  paid : l.paid = true → after.paid = true

namespace Known.Extends

theorem refl (l : Known) : l.Extends l :=
  ⟨rfl, rfl, id⟩

theorem trans {first second third : Known} (h₁ : first.Extends second)
    (h₂ : second.Extends third) : first.Extends third :=
  ⟨h₂.automatic.trans h₁.automatic, h₂.copy.trans h₁.copy, h₂.paid ∘ h₁.paid⟩

variable {l after : Known}

theorem key (h : l.Extends after) : after.key = l.key := by
  rw [Known.key, Known.key, h.copy]

theorem mayCharge (h : l.Extends after) (hl : l.MayCharge) : after.MayCharge := by
  obtain ⟨copy, hcopy, hfree⟩ := hl
  exact ⟨copy, h.copy.trans hcopy, fun hautomatic ↦ hfree (h.automatic ▸ hautomatic)⟩

/-- A reply of the books teaches nothing about the copy. -/
theorem of_learnsHold (l : Known) (request : HoldCall) (reply : Result request.Out) :
    l.Extends (l.learnsHold request reply) := by
  unfold learnsHold
  split
  · split
    · exact ⟨rfl, rfl, id⟩
    · exact refl l
  · split
    · exact ⟨rfl, rfl, fun h ↦ by simp [h]⟩
    · exact refl l
  · split
    · exact ⟨rfl, rfl, fun h ↦ by simp [h]⟩
    · exact refl l
  · split
    · exact ⟨rfl, rfl, fun _ ↦ rfl⟩
    · exact refl l
  · exact refl l

end Known.Extends

/-- The program ends with what it knew, and with more when it returns. -/
def Leaves {α : Type} (l : Known) (Q : α → Known → Prop) (outcome : Result α) (after : Known) :
    Prop :=
  l.Extends after ∧ ∀ value, outcome = .ok value → Q value after

namespace Leaves

variable {α : Type} {l : Known} {Q : α → Known → Prop}

theorem ok {value : α} {after : Known} (hextends : l.Extends after) (h : Q value after) :
    Leaves l Q (.ok value) after :=
  ⟨hextends, fun _ heq ↦ Except.ok.inj heq ▸ h⟩

theorem error {raised : Raised} {after : Known} (hextends : l.Extends after) :
    Leaves l Q (.error raised) after :=
  ⟨hextends, fun _ heq ↦ nomatch heq⟩

end Leaves

/-! ### Rules -/

section Rules

variable {Call : Type} {Out : Call → Type} {P : Protocol Raised Call Out Known} {α β : Type}
  {l start : Known} {Q : α → Known → Prop} {R : β → Known → Prop}

/-- Sequencing. -/
theorem follows_andThen {p : Program Raised Call Out α} {f : α → Program Raised Call Out β}
    (hp : Follows P (Leaves l Q) p l) (hf : ∀ value after, l.Extends after → Q value after →
      Follows P (Leaves after R) (f value) after) : Follows P (Leaves l R) (p >>= f) l := by
  refine follows_bind (hp.mono fun outcome after hleaves ↦ ?_)
  cases outcome with
  | ok value =>
    refine (hf value after hleaves.1 (hleaves.2 value rfl)).mono fun outcome last hlast ↦ ?_
    exact ⟨hleaves.1.trans hlast.1, hlast.2⟩
  | error raised => exact .error hleaves.1

/-- One call and what follows it. -/
theorem follows_call {request : Call} {f : Out request → Program Raised Call Out β}
    (hextends : ∀ reply, l.Extends (P.learns l request reply)) (hpermits : P.permits l request)
    (hok : ∀ value, P.truthful request (.ok value) →
      Follows P (Leaves (P.learns l request (.ok value)) R) (f value)
        (P.learns l request (.ok value))) :
    Follows P (Leaves l R) (Program.perform request >>= f) l := by
  refine follows_perform hpermits (fun value htrue ↦ ?_) fun raised _ ↦ .error (hextends _)
  exact (hok value htrue).mono fun outcome last hlast ↦ ⟨(hextends _).trans hlast.1, hlast.2⟩

theorem follows_value {value : α} (h : Q value l) :
    Follows P (Leaves l Q) (pure value : Program Raised Call Out α) l :=
  Leaves.ok (.refl l) h

/-- A program with a handler that ends at once. -/
theorem follows_recover {p : Program Raised Call Out α} {handler : Raised → Program Raised Call Out α}
    (hp : Follows P (Leaves l Q) p l)
    (hhandler : ∀ raised after, l.Extends after → Follows P (Leaves after Q) (handler raised) after) :
    Follows P (Leaves l Q) (tryCatch p handler) l := by
  refine follows_tryCatch (hp.mono fun outcome after hleaves ↦ ?_)
  cases outcome with
  | ok value => exact hleaves
  | error raised =>
    refine (hhandler raised after hleaves.1).mono fun outcome last hlast ↦ ?_
    exact ⟨hleaves.1.trans hlast.1, hlast.2⟩

end Rules

/-! ### The hold service -/

section Holds

variable {l : Known} {walletId holdId : Uuid} {key : String}

/-- A call of the hold service keeps what is known. -/
theorem follows_holdCall {α : Type} {Q : α → Known → Prop} {request : HoldCall}
    {f : request.Out → HoldProgram α} (hpermits : l.permitsHold request)
    (hok : ∀ value, truthfulHold request (.ok value) →
      Follows holdProtocol (Leaves (l.learnsHold request (.ok value)) Q) (f value)
        (l.learnsHold request (.ok value))) :
    Follows holdProtocol (Leaves l Q) (Wallets.HoldService.perform request >>= f) l :=
  follows_call (P := holdProtocol) (fun reply ↦ .of_learnsHold l request reply) hpermits hok

/-- What is known of a hold that was read. -/
structure Resolved (row : Hold) (l : Known) : Prop where
  hold : l.hold = some row.id
  live : row.status ≠ .released → l.live = true
  paid : row.status = .captured → l.paid = true

theorem resolved_getByIdempotency (hkey : l.key = some key) (hold : Hold) :
    Resolved hold (l.learnsHold (.getByIdempotency walletId key) (.ok (some hold))) := by
  have hlearns : l.learnsHold (.getByIdempotency walletId key) (.ok (some hold)) =
      { l with
        hold := some hold.id
        live := hold.status ≠ .released
        paid := l.paid || hold.status = .captured } := if_pos hkey
  rw [hlearns]
  exact ⟨rfl, fun h ↦ decide_eq_true h, fun h ↦ by simp [h]⟩

theorem resolved_get (hhold : l.hold = some holdId) {hold : Hold} (hid : hold.id = holdId) :
    Resolved hold (l.learnsHold (.get holdId) (.ok (some hold))) := by
  have hlearns : l.learnsHold (.get holdId) (.ok (some hold)) =
      { l with
        live := l.live || hold.status ≠ .released
        paid := l.paid || hold.status = .captured } := if_pos hhold
  rw [hlearns]
  exact ⟨hid ▸ hhold, fun h ↦ by simp [h], fun h ↦ by simp [h]⟩

theorem follows_resolveHold (hkey : l.key = some key) (hhold : l.hold = some holdId) :
    Follows holdProtocol (Leaves l Resolved)
      (Wallets.HoldService.resolveHold walletId holdId key) l := by
  refine follows_holdCall trivial fun found htrue ↦ ?_
  cases found with
  | some hold => exact follows_value (resolved_get hhold htrue)
  | none =>
    refine follows_holdCall trivial fun found _ ↦ ?_
    cases found with
    | some hold => exact follows_value (resolved_getByIdempotency hkey hold)
    | none => exact Leaves.error (.refl _)

/-- A hold that was not released is known to be captured once its capture has returned. -/
theorem follows_captureCreated {resolved : Hold} (hresolved : Resolved resolved l)
    (hopen : resolved.status ≠ .released) (hcharge : l.MayCharge) :
    Follows holdProtocol (Leaves l fun _ after ↦ after.paid = true)
      (Wallets.HoldService.captureCreated holdId resolved) l := by
  unfold Wallets.HoldService.captureCreated
  by_cases hcreated : resolved.status = .created
  · rw [if_pos hcreated]
    refine follows_holdCall ⟨hresolved.hold, hresolved.live hopen, hcharge⟩ fun captured _ ↦ ?_
    have hpaid : (l.learnsHold (.capture resolved.id) (.ok captured)).paid = true := by
      have hlearns : l.learnsHold (.capture resolved.id) (.ok captured) = { l with paid := true } :=
        if_pos hresolved.hold
      rw [hlearns]
    cases captured with
    | some hold => exact follows_value hpaid
    | none =>
      refine follows_holdCall trivial fun found _ ↦ ?_
      exact follows_value ((Known.Extends.of_learnsHold _ _ _).paid hpaid)
  · rw [if_neg hcreated]
    exact follows_value (hresolved.paid (Wallets.HoldStatus.captured_of_ne hcreated hopen))

theorem follows_postOnce (entry : Wallets.PostCall) :
    Follows holdProtocol (Leaves l fun _ _ ↦ True) (Wallets.HoldService.postOnce entry) l := by
  refine follows_recover (follows_holdCall trivial fun _ _ ↦ follows_value trivial) ?_
  intro raised after _
  by_cases hkind : raised.kind = .duplicateIdempotency
  · rw [if_pos hkind]
    exact follows_value trivial
  · rw [if_neg hkind]
    exact Leaves.error (.refl after)

/-- `capture_hold` returns once the hold is known to be captured. -/
theorem follows_captureHold (hkey : l.key = some key) (hhold : l.hold = some holdId)
    (hcharge : l.MayCharge) : Follows holdProtocol (Leaves l fun _ after ↦ after.paid = true)
      (Wallets.HoldService.captureHold walletId holdId key) l := by
  refine follows_andThen (follows_resolveHold hkey hhold) fun resolved after hextends hresolved ↦ ?_
  refine follows_lift (fun _ hguard ↦ ?_) fun raised _ ↦ .error (.refl after)
  have hopen : resolved.status ≠ .released := of_decide_eq_false (rejectIf_eq_ok.mp hguard)
  refine follows_andThen (follows_captureCreated hresolved hopen (hextends.mayCharge hcharge))
    fun hold captured _ hpaid ↦ ?_
  refine follows_andThen (follows_postOnce _) fun _ posted hposted _ ↦ ?_
  exact follows_value (hposted.paid hpaid)

end Holds

/-! ### The checker -/

section Checker

variable {l : Known} {record : RenewalRecord} {renewalAt : ℤ} {server : CloudServer}

variable {α : Type} {Q : α → Known → Prop}

/-- A program over the holds, as the checker calls it. -/
theorem follows_onHolds {p : HoldProgram α} (h : Follows holdProtocol (Leaves l Q) p l) :
    Follows renewalProtocol (Leaves l Q) (onHolds p) l := by
  unfold onHolds
  refine h.lift ?_ ?_ ?_
  · exact fun _ _ hpermits ↦ hpermits
  · intro request reply htrue
    cases reply <;> exact htrue
  · intro l request reply
    cases reply <;> rfl

/-- A call that teaches nothing about the copy. -/
theorem follows_renewalCall {request : RenewalCall} {f : request.Out → RenewalProgram α}
    (hextends : ∀ reply, l.Extends (l.learns request reply)) (hpermits : l.permits request)
    (hok : ∀ value, truthful request (.ok value) →
      Follows renewalProtocol (Leaves (l.learns request (.ok value)) Q) (f value)
        (l.learns request (.ok value))) :
    Follows renewalProtocol (Leaves l Q) (perform request >>= f) l :=
  follows_call (P := renewalProtocol) hextends hpermits hok

/-- A call on the books. -/
theorem follows_bookCall {request : HoldCall} {f : request.Out → RenewalProgram α}
    (hpermits : l.permitsHold request) (hok : ∀ value, truthfulHold request (.ok value) →
      Follows renewalProtocol (Leaves (l.learnsHold request (.ok value)) Q) (f value)
        (l.learnsHold request (.ok value))) :
    Follows renewalProtocol (Leaves l Q) (perform (.hold request) >>= f) l :=
  follows_renewalCall (fun reply ↦ Known.Extends.of_learnsHold l request reply) hpermits hok

theorem follows_now {f : ℤ → RenewalProgram α}
    (h : ∀ now, Follows renewalProtocol (Leaves l Q) (f now) l) :
    Follows renewalProtocol (Leaves l Q) (perform .now >>= f) l :=
  follows_renewalCall (fun _ ↦ .refl l) trivial fun now _ ↦ h now

/-- The worker has loaded the record of the service with this renewal instant. -/
structure Holding (l : Known) (record : RenewalRecord) (renewalAt : ℤ) : Prop where
  copy : ∃ copy, l.copy = some copy ∧ record.serverId = copy.serverId ∧
    record.autoChargeEnabled = copy.autoChargeEnabled ∧ copy.providerRenewalAt = some renewalAt
  instant : record.providerRenewalAt = some renewalAt

theorem Holding.extends {after : Known} (h : Holding l record renewalAt) (hextends : l.Extends after) :
    Holding after record renewalAt := by
  obtain ⟨copy, hcopy, hrest⟩ := h.copy
  exact ⟨⟨copy, hextends.copy.trans hcopy, hrest⟩, h.instant⟩

theorem Holding.key (h : Holding l record renewalAt) (hserver : server.id = record.serverId) :
    l.key = some (renewalChargeKey server.id (periodOf renewalAt)) := by
  obtain ⟨copy, hcopy, hid, -, hinstant⟩ := h.copy
  rw [Known.key, hcopy, Option.bind_some, RenewalRecord.chargeKey, hinstant, Option.map_some,
    hserver, hid]

theorem Holding.mayCharge (h : Holding l record renewalAt)
    (hfree : l.automatic = true → record.autoChargeEnabled = true) : l.MayCharge := by
  obtain ⟨copy, hcopy, -, hpreference, -⟩ := h.copy
  exact ⟨copy, hcopy, fun hautomatic ↦ hpreference ▸ hfree hautomatic⟩

/-- The hold of the period is one that the worker has seen. -/
theorem follows_holdOfPeriod {walletId : Uuid} {key : String} {existing : Option Hold}
    (hkey : l.key = some key) (hcharge : l.MayCharge)
    (hexisting : ∀ hold ∈ existing, Resolved hold l) :
    Follows renewalProtocol (Leaves l fun found after ↦ ∀ hold ∈ found, after.hold = some hold.id)
      (holdOfPeriod record walletId key existing) l := by
  unfold holdOfPeriod
  split
  · rename_i hold hhold
    refine follows_value fun found hfound ↦ ?_
    obtain rfl := Option.some.inj hfound
    exact (hexisting hold (Option.filter_eq_some_iff.mp hhold).1).hold
  · refine follows_recover ?_ fun raised after hextends ↦ ?_
    · refine follows_bookCall ⟨hkey, hcharge⟩ fun hold _ ↦ follows_value fun found hfound ↦ ?_
      obtain rfl := Option.some.inj hfound
      have hlearns : l.learnsHold (.create walletId record.customerPriceMinor record.currency key)
          (.ok hold) = { l with hold := some hold.id, live := true } := if_pos hkey
      rw [hlearns]
    · by_cases hinsufficient : raised.kind = .insufficientHoldBalance
      · rw [if_pos hinsufficient]
        exact follows_value fun _ hnone ↦ nomatch hnone
      · rw [if_neg hinsufficient]
        by_cases hintegrity : raised.kind = .integrityError
        · rw [if_pos hintegrity]
          refine ⟨trivial, fun reply _ ↦ ?_⟩
          cases reply with
          | error raised => exact Leaves.error (.refl after)
          | ok found =>
            have hextends' := Known.Extends.of_learnsHold after (.getByIdempotency walletId key)
              (.ok found)
            refine Leaves.ok hextends' fun hold hhold ↦ ?_
            obtain rfl := Option.mem_def.mp hhold
            have hresolved : Resolved hold (after.learnsHold (.getByIdempotency walletId key)
              (.ok (some hold))) := resolved_getByIdempotency (hextends.key.trans hkey) hold
            exact hresolved.hold
        · rw [if_neg hintegrity]
          exact Leaves.error (.refl after)

/-- `_charge` returns true once the period is known to be paid. -/
theorem follows_charge (hholding : Holding l record renewalAt) (hserver : server.id = record.serverId)
    (hfree : l.automatic = true → record.autoChargeEnabled = true) :
    Follows renewalProtocol (Leaves l fun charged after ↦ charged = true → after.paid = true)
      (charge record server (periodOf renewalAt)) l := by
  have hkey := hholding.key hserver
  have hcharge := hholding.mayCharge hfree
  refine follows_renewalCall (fun _ ↦ .refl l) trivial fun wallet _ ↦ ?_
  cases wallet with
  | none => exact follows_value fun h ↦ nomatch h
  | some wallet =>
    refine follows_bookCall trivial fun existing _ ↦ ?_
    have hexisting : ∀ hold ∈ existing, Resolved hold
        (l.learnsHold (.getByIdempotency wallet.id (renewalChargeKey server.id
          (periodOf renewalAt))) (.ok existing)) := by
      intro hold hhold
      obtain rfl := Option.mem_def.mp hhold
      exact resolved_getByIdempotency hkey hold
    have hextends := Known.Extends.of_learnsHold l (.getByIdempotency wallet.id
      (renewalChargeKey server.id (periodOf renewalAt))) (.ok existing)
    by_cases hcaptured : existing.any (·.status = .captured) = true
    · simp only [if_pos hcaptured]
      refine follows_value fun _ ↦ ?_
      rw [Option.any_eq_true] at hcaptured
      obtain ⟨hold, hhold, hstatus⟩ := hcaptured
      exact (hexisting hold hhold).paid (of_decide_eq_true hstatus)
    · simp only [if_neg hcaptured]
      refine follows_andThen (follows_holdOfPeriod (hextends.key.trans hkey)
        (hextends.mayCharge hcharge) hexisting) fun found after hafter hfound ↦ ?_
      cases found with
      | none => exact follows_value fun h ↦ nomatch h
      | some hold =>
        have hlater := hextends.trans hafter
        refine follows_recover ?_ fun raised last _ ↦ follows_value fun h ↦ nomatch h
        refine follows_andThen (follows_onHolds (follows_captureHold (hlater.key.trans hkey)
          (hfound hold rfl) (hlater.mayCharge hcharge))) fun _ last _ hpaid ↦ ?_
        exact follows_value fun _ ↦ hpaid

/-- A write of the copy with a change that the worker may make. -/
theorem follows_upsert {written : RenewalRecord} {f : RenewalRecord → RenewalProgram α}
    (hwrites : ∃ copy, l.copy = some copy ∧ l.Writes copy written)
    (h : ∀ saved, Follows renewalProtocol (Leaves l Q) (f saved) l) :
    Follows renewalProtocol (Leaves l Q) (perform (.upsert written) >>= f) l :=
  follows_renewalCall (fun _ ↦ .refl l) hwrites fun saved _ ↦ h saved

/-- A mark on the record that was loaded. -/
theorem Holding.marks (h : Holding l record renewalAt) (written : RenewalRecord)
    (hid : written.serverId = record.serverId)
    (hpreference : written.autoChargeEnabled = record.autoChargeEnabled)
    (hinstant : written.providerRenewalAt = record.providerRenewalAt) :
    (∃ copy, l.copy = some copy ∧ l.Writes copy written) ∧ Holding l written renewalAt := by
  obtain ⟨copy, hcopy, hcopyId, hcopyPreference, hcopyInstant⟩ := h.copy
  have hwritten : written.providerRenewalAt = some renewalAt := hinstant.trans h.instant
  refine ⟨⟨copy, hcopy, hid.trans hcopyId, hpreference.trans hcopyPreference,
    renewalAt, hcopyInstant, .inl hwritten⟩, ?_, hwritten⟩
  exact ⟨copy, hcopy, hid.trans hcopyId, hpreference.trans hcopyPreference, hcopyInstant⟩

/-- The advance of a paid period. -/
theorem Holding.advances (h : Holding l record renewalAt) (hpaid : l.paid = true) (now : ℤ) :
    ∃ copy, l.copy = some copy ∧ l.Writes copy (advanced record renewalAt now) := by
  obtain ⟨copy, hcopy, hcopyId, hcopyPreference, hcopyInstant⟩ := h.copy
  exact ⟨copy, hcopy, hcopyId, hcopyPreference, renewalAt, hcopyInstant, .inr ⟨hpaid, rfl⟩⟩

theorem follows_settle {balance : ℤ} (hholding : Holding l record renewalAt)
    (hserver : server.id = record.serverId)
    (hfree : l.automatic = true → record.autoChargeEnabled = true) :
    Follows renewalProtocol (Leaves l fun _ _ ↦ True) (settle record server balance renewalAt) l := by
  refine follows_andThen (follows_charge hholding hserver hfree) fun charged after hextends hpaid ↦ ?_
  by_cases hcharged : charged = true
  · rw [if_pos hcharged]
    refine follows_now fun now ↦ ?_
    refine follows_upsert ((hholding.extends hextends).advances (hpaid hcharged) now) fun _ ↦ ?_
    exact follows_value trivial
  · rw [if_neg hcharged]
    exact follows_value trivial

variable (policy : CommerceRenewalPolicy)

/-- `_mark_due` leaves the record that was loaded, marked. -/
theorem follows_markDue (hholding : Holding l record renewalAt) : Follows renewalProtocol
      (Leaves l fun marked after ↦ Holding after marked renewalAt ∧ marked.serverId = record.serverId)
      (markDue policy record renewalAt) l := by
  have hkeep : Follows renewalProtocol
      (Leaves l fun marked after ↦ Holding after marked renewalAt ∧ marked.serverId = record.serverId)
      (pure record) l := follows_value ⟨hholding, rfl⟩
  unfold markDue
  by_cases hdue : record.status = .paymentDue ∨ record.status = .gracePeriod
  · rw [if_pos hdue]
    by_cases hgrace : record.graceUntil = none
    · rw [if_pos hgrace]
      refine follows_now fun now ↦ ?_
      have hmark := hholding.marks { record with
        graceUntil := some (policy.graceEnd renewalAt), lastCheckedAt := some now } rfl rfl rfl
      exact follows_upsert hmark.1 fun _ ↦ follows_value ⟨hmark.2, rfl⟩
    · rw [if_neg hgrace]
      exact hkeep
  · rw [if_neg hdue]
    by_cases hactive : record.status = .active
    · rw [if_pos hactive]
      refine follows_now fun now ↦ ?_
      have hmark := hholding.marks { record with
        status := .paymentDue, graceUntil := some (policy.graceEnd renewalAt)
        lastCheckedAt := some now } rfl rfl rfl
      exact follows_upsert hmark.1 fun _ ↦ follows_value ⟨hmark.2, rfl⟩
    · rw [if_neg hactive]
      exact hkeep

theorem follows_suspend {balance : ℤ} (hholding : Holding l record renewalAt) :
    Follows renewalProtocol (Leaves l fun _ _ ↦ True) (suspend record balance) l := by
  unfold suspend
  by_cases hsuspended : record.status = .suspended
  · rw [if_pos hsuspended]
    exact follows_value trivial
  · rw [if_neg hsuspended]
    refine follows_now fun now ↦ ?_
    have hmark := hholding.marks { record with
      status := .suspended, lastCheckedAt := some now } rfl rfl rfl
    exact follows_upsert hmark.1 fun _ ↦ follows_value trivial

theorem follows_checkEnded {balance now : ℤ} (hholding : Holding l record renewalAt)
    (hserver : server.id = record.serverId) : Follows renewalProtocol (Leaves l fun _ _ ↦ True)
      (checkEnded policy record server balance renewalAt now) l := by
  refine follows_andThen (follows_markDue policy hholding) fun marked after _ hmarked ↦ ?_
  by_cases hgrace : marked.graceUntil.getD (policy.graceEnd renewalAt) ≤ now
  · rw [if_pos hgrace]
    exact follows_suspend hmarked.1
  · rw [if_neg hgrace]
    by_cases hcharge : marked.autoChargeEnabled ∧ marked.customerPriceMinor ≤ balance
    · rw [if_pos hcharge]
      exact follows_settle hmarked.1 (hserver.trans hmarked.2.symm) fun _ ↦ hcharge.1
    · rw [if_neg hcharge]
      exact follows_value trivial

theorem follows_walletBalance :
    Follows renewalProtocol (Leaves l fun _ _ ↦ True) (walletBalance server) l :=
  follows_renewalCall (fun _ ↦ .refl l) trivial fun _ _ ↦ follows_value trivial

theorem follows_check (hcopy : l.copy = some record) :
    Follows renewalProtocol (Leaves l fun _ _ ↦ True) (check policy record) l := by
  refine follows_now fun now ↦ ?_
  cases hinstant : record.providerRenewalAt with
  | none => exact follows_value trivial
  | some renewalAt =>
    refine follows_renewalCall (fun _ ↦ .refl l) trivial fun server htrue ↦ ?_
    cases server with
    | none => exact follows_value trivial
    | some server =>
      have hholding : Holding l record renewalAt := ⟨⟨record, hcopy, rfl, rfl, hinstant⟩, hinstant⟩
      refine follows_andThen follows_walletBalance fun balance after hextends _ ↦ ?_
      have hafter := hholding.extends hextends
      by_cases hbefore : now < renewalAt
      · rw [if_pos hbefore]
        by_cases hcharge : record.autoChargeEnabled ∧ policy.chargeWindowOpen (renewalAt - now) ∧
            record.customerPriceMinor ≤ balance
        · rw [if_pos hcharge]
          exact follows_settle hafter htrue fun _ ↦ hcharge.1
        · rw [if_neg hcharge]
          exact follows_value trivial
      · rw [if_neg hbefore]
        exact follows_checkEnded policy hafter htrue

/-! ### The entries -/

/-- A program that loads a record and works on it. -/
theorem follows_load {request : RenewalCall} {f : request.Out → RenewalProgram α}
    (hpermits : l.permits request) (hok : ∀ value, truthful request (.ok value) →
      Follows renewalProtocol (fun _ _ ↦ True) (f value) (l.learns request (.ok value))) :
    Follows renewalProtocol (fun _ _ ↦ True) (perform request >>= f) l :=
  follows_perform hpermits hok fun _ _ ↦ trivial

/-- What is left does not matter at the end. -/
theorem follows_done {p : RenewalProgram α} (h : Follows renewalProtocol (Leaves l Q) p l) :
    Follows renewalProtocol (fun _ _ ↦ True) p l :=
  h.mono fun _ _ _ ↦ trivial

theorem follows_runPass (hautomatic : l.automatic = true) :
    Follows renewalProtocol (fun _ _ ↦ True) (runPass policy) l := by
  unfold runPass
  by_cases henabled : policy.enabled = true
  · rw [if_pos henabled]
    refine follows_load hautomatic fun found _ ↦ ?_
    cases found with
    | none => exact trivial
    | some record =>
      refine follows_done (Q := fun _ _ ↦ True) (follows_recover ?_ fun _ _ _ ↦ follows_value trivial)
      exact follows_andThen (follows_check policy rfl) fun _ _ _ _ ↦ follows_value trivial
  · rw [if_neg henabled]
    exact trivial

theorem follows_periodCaptured {wallet : Option Wallets.Wallet} {serverId : Uuid} {period : ℤ} :
    Follows renewalProtocol (Leaves l fun _ _ ↦ True) (periodCaptured serverId wallet period) l := by
  cases wallet with
  | none => exact follows_value trivial
  | some wallet =>
    refine follows_recover ?_ fun _ _ _ ↦ follows_value trivial
    exact follows_bookCall trivial fun _ _ ↦ follows_value trivial

theorem follows_settlePayable {serverId : Uuid} {base : RenewalNowOutcome}
    (hholding : Holding l record renewalAt) (hid : record.serverId = serverId)
    (hcustomer : l.automatic = false) : Follows renewalProtocol (Leaves l fun _ _ ↦ True)
      (settlePayable serverId record renewalAt base) l := by
  refine follows_renewalCall (fun _ ↦ .refl l) trivial fun server htrue ↦ ?_
  cases server with
  | none => exact follows_value trivial
  | some server =>
    refine follows_renewalCall (fun _ ↦ .refl l) trivial fun wallet _ ↦ ?_
    refine follows_andThen follows_periodCaptured fun already after hextends _ ↦ ?_
    have hfree : after.automatic = true → record.autoChargeEnabled = true := fun hautomatic ↦ by
      have hsame : after.automatic = l.automatic := hextends.automatic
      rw [hsame, hcustomer] at hautomatic
      exact nomatch hautomatic
    have hserver : server.id = record.serverId := htrue.trans hid.symm
    refine follows_andThen (follows_settle (hholding.extends hextends) hserver hfree)
      fun outcome last _ _ ↦ ?_
    by_cases hcharged : outcome.action ≠ "charged"
    · rw [if_pos hcharged]
      exact follows_value trivial
    · rw [if_neg hcharged]
      exact follows_value trivial

theorem follows_settleNow (serverId : Uuid) (hcustomer : l.automatic = false) :
    Follows renewalProtocol (fun _ _ ↦ True) (settleNow serverId) l := by
  refine follows_load trivial fun found htrue ↦ ?_
  cases found with
  | none => exact trivial
  | some record =>
    dsimp only
    cases hinstant : record.providerRenewalAt with
    | none => exact trivial
    | some renewalAt =>
      refine follows_done (Q := fun _ _ ↦ True) (follows_now fun now ↦ ?_)
      have hholding : Holding (l.loaded (some record)) record renewalAt :=
        ⟨⟨record, rfl, rfl, rfl, hinstant⟩, hinstant⟩
      by_cases hpayable : record.status ∉ payableStatuses ∨ now < renewalAt
      · rw [if_pos hpayable]
        exact follows_value trivial
      · rw [if_neg hpayable]
        by_cases hlate : monthPeriod < now - renewalAt
        · rw [if_pos hlate]
          exact follows_value trivial
        · rw [if_neg hlate]
          exact follows_settlePayable hholding htrue hcustomer

theorem follows_setAutoRenew (serverId : Uuid) (enabled : Bool) :
    Follows renewalProtocol (Leaves l fun _ _ ↦ True) (setAutoRenew serverId enabled) l := by
  refine follows_recover ?_ fun raised after _ ↦ ?_
  · exact follows_renewalCall (fun _ ↦ .refl l) trivial fun _ _ ↦ follows_value trivial
  · by_cases hkind : raised.kind = .lookupError
    · rw [if_pos hkind]
      exact follows_value trivial
    · rw [if_neg hkind]
      exact Leaves.error (.refl after)

/-- Every entry follows the protocol, and knows at its start whether it is a pass. -/
theorem follows_program (serverId : Uuid) (entry : RenewalEntry) :
    Follows renewalProtocol (fun _ _ ↦ True) (entry.program policy serverId)
      { automatic := entry = .pass } := by
  cases entry with
  | pass => exact follows_runPass policy rfl
  | settleNow =>
    refine follows_bind ((follows_settleNow serverId rfl).mono fun outcome after _ ↦ ?_)
    cases outcome <;> exact trivial
  | setAutoRenew enabled =>
    refine follows_done (Q := fun _ _ ↦ True) (follows_andThen (follows_setAutoRenew serverId enabled) ?_)
    exact fun _ _ _ _ ↦ follows_value trivial

end Checker

end CloudPlatform.Renewals
