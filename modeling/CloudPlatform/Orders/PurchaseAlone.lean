import CloudPlatform.Orders.Purchase

/-!
# Workflows without others

The rules of `Solo.Safe` at the calls of a purchase: a call that meets a fault leaves the rows and
ends its program, so only the served call is to be looked at.
-/

namespace CloudPlatform.Orders

open Transition

section Rules

variable {scan : RecoveryScan} {inv : Purchase → Prop} {allowed : Purchase → OrderCall → Prop}
  {α β : Type} {Q : β → Purchase → Prop} {s : Purchase}

/-- A program that runs alone on the rows of a purchase. -/
abbrev AloneSafe (scan : RecoveryScan) (inv : Purchase → Prop)
    (allowed : Purchase → OrderCall → Prop) (Q : β → Purchase → Prop) (p : OrderProgram β)
    (s : Purchase) : Prop :=
  Solo.Safe (OrderCall.handle scan) inv allowed Q p s

variable {request : OrderCall}

/-- The rule of one call. -/
theorem alone_perform {f : request.Out → OrderProgram β}
    (answer : Chance → Result request.Out × Purchase)
    (hcall : ∀ chance, OrderCall.handle scan request chance s = chance.meets s (answer chance))
    (h : inv s → allowed s request → ∀ chance, inv (answer chance).2 ∧
      ∀ value, (answer chance).1 = .ok value →
        AloneSafe scan inv allowed Q (f value) (answer chance).2) :
    AloneSafe scan inv allowed Q (perform request >>= f) s := by
  refine Solo.safe_perform fun hinv hallowed chance ↦ ?_
  rw [hcall]
  rcases chance.meets_cases s (answer chance) with ⟨raised, hfault⟩ | hserved
  · rw [hfault]
    exact ⟨hinv, fun value hvalue ↦ by cases hvalue⟩
  · rw [hserved]
    exact h hinv hallowed chance

/-- The rule of a read. -/
theorem alone_read {f : request.Out → OrderProgram β} {value : request.Out}
    (hcall : ∀ chance, OrderCall.handle scan request chance s = chance.meets s (.ok value, s))
    (h : inv s → AloneSafe scan inv allowed Q (f value) s) :
    AloneSafe scan inv allowed Q (perform request >>= f) s := by
  refine alone_perform (fun _ ↦ (.ok value, s)) hcall fun hinv _ chance ↦ ?_
  refine ⟨hinv, fun other hother ↦ ?_⟩
  obtain rfl := Except.ok.inj hother
  exact h hinv

/-- The rule of one call with what is known of either outcome. -/
theorem alone_call {post : Result request.Out → Purchase → Prop}
    (answer : Chance → Result request.Out × Purchase)
    (hcall : ∀ chance, OrderCall.handle scan request chance s = chance.meets s (answer chance))
    (hfault : inv s → ∀ raised, post (.error raised) s)
    (h : inv s → allowed s request → ∀ chance, inv (answer chance).2 ∧
      post (answer chance).1 (answer chance).2) :
    Safe (fun _ ↦ OrderCall.handle scan) (.solo inv allowed) 0 post (perform request) s := by
  intro s' hrely hinv hallowed chance
  obtain rfl := hrely rfl
  rw [safe_done]
  beta_reduce
  rw [hcall]
  rcases chance.meets_cases s (answer chance) with ⟨raised, hraised⟩ | hserved
  · rw [hraised]
    exact ⟨⟨hinv, fun other hother hzero ↦ absurd hzero hother⟩, hfault hinv raised⟩
  · rw [hserved]
    obtain ⟨hkept, hpost⟩ := h hinv hallowed chance
    exact ⟨⟨hkept, fun other hother hzero ↦ absurd hzero hother⟩, hpost⟩

/-! ### What the transactions leave -/

theorem insertServer_eq_ok {server created : Compute.CloudServer} {key : String} {now : ℤ}
    (h : (s.insertServer server key now).1 = .ok created) :
    s.server = none ∧ (s.insertServer server key now).2 = { s with server := some created } := by
  unfold Purchase.insertServer at h ⊢
  split at h
  · cases h
  · rename_i hnone
    rw [← Except.ok.inj h]
    exact ⟨hnone, rfl⟩

theorem insertOrder_of_none (hnone : s.order = none) (row : ProviderOrder) (chance : Chance) :
    s.insertOrder row chance = (.ok { row with id := chance.newId, createdAt := some chance.now },
        { s with order := some { row with id := chance.newId, createdAt := some chance.now } }) := by
  simp only [Purchase.insertOrder, hnone]

theorem ensureOperation_rows (key : String) (resourceId : Uuid) (providerKey : String)
    (chance : Chance) : ∃ operation, s.ensureOperation key resourceId providerKey chance =
      (.ok operation, { s with operation := some operation }) := by
  unfold Purchase.ensureOperation
  split
  · rename_i existing hexisting
    refine ⟨existing, ?_⟩
    rw [← hexisting]
  · exact ⟨_, rfl⟩

end Rules

/-! ### A sample purchase -/

namespace PurchaseRuns

def walletId : Uuid :=
  ⟨"00000000-0000-4000-8000-0000000000aa", .refl true⟩

def userId : Uuid :=
  ⟨"00000000-0000-4000-8000-0000000000bb", .refl true⟩

def serverId : Uuid :=
  ⟨"00000000-0000-4000-8000-0000000000cc", .refl true⟩

def offerId : Uuid :=
  ⟨"00000000-0000-4000-8000-0000000000dd", .refl true⟩

def rowId : Uuid :=
  ⟨"00000000-0000-4000-8000-000000000001", .refl true⟩

/-- An offer at 1000. -/
def offer : Offers.SellableOffer where
  id := offerId
  providerKey := "leaseweb"
  productId := "vps-1"
  locationId := "AMS-01"
  name := "VPS 1"
  providerCostMinor := 700
  providerCostCurrency := "EUR"
  sellingPriceMinor := 1000
  sellingCurrency := "EUR"

/-- A wallet of 5000 before any purchase. -/
def unsold : Purchase where
  books := { wallet := ⟨walletId, userId, 5000, "EUR"⟩ }
  offer := some offer

/-- The clock stands, and new rows get one id. -/
def chance : Chance where
  now := 0
  newId := rowId

/-- A scan that answers as it is told. -/
def scan : RecoveryScan :=
  fun _ chance ↦ chance.recovery

end PurchaseRuns

end CloudPlatform.Orders
