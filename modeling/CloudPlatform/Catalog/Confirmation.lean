import CloudPlatform.Compute.CreateServer
import CloudPlatform.Navigation.Callbacks
import CloudPlatform.Pricing.Domain
import CloudPlatform.Transition.Evaluation

/-!
# The confirmation screen

Before a purchase the customer sees the price, the first hold and what it does to the wallet. The screen
and the create command read the same catalog row and the same price book, but the screen compares the
price with the balance and the command with what the holds leave of it. The screen tells the truth about
a command exactly if the holds of the wallet make no difference (`agrees_iff_fits`).
-/

namespace CloudPlatform.Catalog

open Compute (CreateCall CreateChance CreateProgram CreateRows CreateServerCommand
  CreateServerSettings OfferRef createHoldKey)
open Navigation (encodeCallback)
open Pricing (OfferCost PriceBookVersion SellingPrice)
open Rows
open Wallets (Books Hold Wallet)

/-! ### Values -/

/-- A row of the catalog, with its specs. -/
structure CatalogEntry extends Compute.CatalogOffer where
  providerKey : String
  planId : String
  locationId : String
  name : String
  architecture : String
  vcpu : ℤ
  memoryMb : ℤ
  diskGb : ℤ
  quantumSeconds : ℤ

/-- The provider, plan and location of a row; no two rows share them. -/
def CatalogEntry.place (entry : CatalogEntry) : String × String × String :=
  (entry.providerKey, entry.planId, entry.locationId)

/-- The catalog. -/
abbrev CatalogRows := Table CatalogEntry.place

/-- `SqlAlchemyCatalogRepository.get_by_id`. -/
def getById (catalog : CatalogRows) (offerId : Uuid) : Option CatalogEntry :=
  catalog.rows.find? (·.id = offerId)

/-- `SqlAlchemyCatalogRepository.get_offer`. -/
def getOffer (catalog : CatalogRows) (ref : OfferRef) : Option CatalogEntry :=
  catalog.get (ref.providerKey, ref.planId, ref.locationId)

/-- The price policy of the screen. -/
structure PurchasePolicy where
  sellingMinorPerQuantum : ℤ
  currency : String
  quantumSeconds : ℤ
  marginFactor : Option Decimals.Decimal
  bookName : String
  bookVersion : ℤ
  monthlyCapMinor : Option ℤ
  holdMinor : ℤ

/-- What the order does to the wallet. -/
structure WalletImpact where
  hasWallet : Bool
  balanceMinor : ℤ
  holdMinor : ℤ
  balanceAfterHoldMinor : ℤ
  sufficient : Bool

/-- The offer as the customer sees it. -/
structure CatalogOfferView where
  offerId : Uuid
  providerKey : String
  planId : String
  locationId : String
  name : String
  architecture : String
  vcpu : ℤ
  memoryMb : ℤ
  diskGb : ℤ
  currency : String
  pricePerQuantum : ℤ
  quantumSeconds : ℤ

/-- The buy.confirm screen. -/
structure PurchaseConfirmationView where
  providerKey : String
  locationId : String
  offer : CatalogOfferView
  imageId : Option String
  policy : PurchasePolicy
  wallet : WalletImpact
  confirmCallback : String
  backCallback : String
  cancelCallback : String

/-- `BuyFlowViewService._offer_view`. -/
def offerView (offer : CatalogEntry) : CatalogOfferView where
  offerId := offer.id
  providerKey := offer.providerKey
  planId := offer.planId
  locationId := offer.locationId
  name := offer.name
  architecture := offer.architecture
  vcpu := offer.vcpu
  memoryMb := offer.memoryMb
  diskGb := offer.diskGb
  currency := offer.currency
  pricePerQuantum := offer.pricePerQuantum
  quantumSeconds := offer.quantumSeconds

/-! ### The screen -/

/-- The catalog and the price books. -/
structure Storefront where
  catalog : CatalogRows
  versions : List PriceBookVersion

/-- The wallet of a user. -/
def walletOf (books : Books) (userId : Uuid) : Option Wallet :=
  if books.wallet.userId = userId then some books.wallet else none

/-- The offer that the screen is about. -/
def chosenOffer (catalog : CatalogRows) (providerKey locationId : String) (offerId : Uuid) :
    Result CatalogEntry :=
  match getById catalog offerId with
  | none => notFound
  | some offer =>
    if offer.providerKey ≠ providerKey ∨ offer.locationId ≠ locationId then notFound
    else if !offer.enabled ∨ offer.vcpu ≤ 0 then
      raise .purchaseConfirmation s!"offer {offerId.text} is not sellable"
    else .ok offer
where
  notFound : Result CatalogEntry :=
    raise .purchaseConfirmation s!"offer {offerId.text} not found at {providerKey}/{locationId}"

/-- The price of an offer, as the screen asks for it. -/
def quote (versions : List PriceBookVersion) (bookName : String) (offer : CatalogEntry) (now : ℤ) :
    Result SellingPrice := do
  let cost ← OfferCost.construct offer.providerKey offer.planId offer.locationId
    offer.pricePerQuantum offer.currency
  Pricing.sellPrice versions bookName cost now

def policyOf (offer : CatalogEntry) (price : SellingPrice) : PurchasePolicy where
  sellingMinorPerQuantum := price.sellingMinor
  currency := offer.currency
  quantumSeconds := offer.quantumSeconds
  marginFactor := price.rule.marginFactor
  bookName := price.bookName
  bookVersion := price.version
  monthlyCapMinor := price.rule.monthlyCapMinor
  holdMinor := price.sellingMinor

def impactOf (policy : PurchasePolicy) : Option Wallet → WalletImpact
  | none => ⟨false, 0, policy.holdMinor, 0, false⟩
  | some wallet => {
    hasWallet := true
    balanceMinor := wallet.balance
    holdMinor := policy.holdMinor
    balanceAfterHoldMinor := wallet.balance - policy.holdMinor
    sufficient := policy.holdMinor ≤ wallet.balance }

section Screen

/- The hexadecimal HMAC-SHA256 of a message under a key. -/
variable (hmac : String → String → String) (signingKey bookName : String)

/-- `PurchaseConfirmationService.confirmation`. -/
def confirmation (store : Storefront) (books : Books) (userId : Uuid)
    (providerKey locationId : String) (offerId : Uuid) (imageId : Option String) (now : ℤ) :
    Result PurchaseConfirmationView := do
  let offer ← chosenOffer store.catalog providerKey locationId offerId
  let price ← quote store.versions bookName offer now
  let policy := policyOf offer price
  let imageField := if truthy imageId then imageId.getD "none" else "none"
  let args := [providerKey, locationId, offerId.text, imageField]
  let confirm ← encodeCallback hmac signingKey ⟨"buy", "confirm", args⟩
  let back ← encodeCallback hmac signingKey ⟨"buy", "os", args⟩
  let cancel ← encodeCallback hmac signingKey ⟨"main", "menu", []⟩
  return {
    providerKey := providerKey
    locationId := locationId
    offer := offerView offer
    imageId := imageId
    policy := policy
    wallet := impactOf policy (walletOf books userId)
    confirmCallback := confirm
    backCallback := back
    cancelCallback := cancel }

end Screen

/-! ### The command -/

/-- A selling price as the create command keeps it. -/
def priceOf (price : SellingPrice) : Compute.SellingPrice where
  offer := price.offer.toOfferCost
  sellingMinor := price.sellingMinor
  rule := price.rule.toMarginRule
  sellingCurrency := price.sellingCurrency

namespace Storefront

/-- A call of a command about an offer, at an instant at which nothing fails. -/
def handle (store : Storefront) (ref : OfferRef) :
    (request : CreateCall) → CreateChance → CreateRows → Result request.Out × CreateRows
  | .getOffer ref, _, rows => (.ok ((getOffer store.catalog ref).map (·.toCatalogOffer)), rows)
  | .sellPrice bookName cost pricedAt, chance, rows => (do
      let offer ← OfferCost.construct ref.providerKey ref.planId ref.locationId cost.costMinor
        cost.currency
      let price ← Pricing.sellPrice store.versions bookName offer (pricedAt.getD chance.now)
      return priceOf price, rows)
  | .wallet userId, _, rows => (.ok (walletOf rows.books userId), rows)
  | .hold request, chance, rows => rows.onBooks request chance
  | request, chance, rows => request.handle chance rows

end Storefront

open Compute.CreateServer in
/-- The steps of `create_server` that price and reserve: those that the screen speaks of. -/
def reservation (settings : CreateServerSettings) (command : CreateServerCommand) (userId : Uuid) :
    CreateProgram (Uuid × Hold) := do
  let offer ← requireOffer command.offerRef
  let cost ← offerCost offer
  let price ← perform (.sellPrice settings.bookName cost command.pricedAt)
  reservePrice command userId offer price

/-- The outcome of these steps on the rows of a wallet. -/
def reserved (store : Storefront) (settings : CreateServerSettings) (command : CreateServerCommand)
    (userId : Uuid) (chance : CreateChance) (rows : CreateRows) :
    Result (Uuid × Hold) × CreateRows :=
  (reservation settings command userId).eval (store.handle command.offerRef) (fun _ ↦ chance) rows

/-! ### Agreement -/

/-- The screen tells the truth about a command: what it shows is what is held, and it shows a sufficient
wallet exactly if there is one and the hold is not refused for its balance. -/
structure Agrees (view : PurchaseConfirmationView) (outcome : Result (Uuid × Hold)) : Prop where
  shown : ∀ walletId hold, outcome = .ok (walletId, hold) →
    hold.amount = view.policy.holdMinor ∧ hold.currency = view.policy.currency
  sufficient : view.wallet.sufficient = true ↔ view.wallet.hasWallet = true ∧
    ∀ message, outcome ≠ .error ⟨.insufficientHoldBalance, message⟩

/-- The holds of the wallet make no difference to a hold: one of its key that is still CREATED is the
same and within the balance, and otherwise the balance covers it exactly if what the holds leave does. -/
def Unaffected (books : Books) (key : String) (amount : ℤ) (currency : String) : Prop :=
  match books.createdHold books.wallet.id key with
  | some hold => (hold.amount = amount ∧ hold.currency = currency) ∧ amount ≤ books.wallet.balance
  | none => amount ≤ books.wallet.balance ↔ amount ≤ books.wallet.balance - books.held

/-- The condition on a command: the holds of its user's wallet make no difference to the first hold of
the offer. -/
def Fits (store : Storefront) (bookName : String) (books : Books) (command : CreateServerCommand)
    (userId : Uuid) (now : ℤ) : Prop :=
  ∀ offer price, getOffer store.catalog command.offerRef = some offer →
    quote store.versions bookName offer now = .ok price → books.wallet.userId = userId →
      Unaffected books (createHoldKey command.idempotencyKey) price.sellingMinor offer.currency

section Screen

variable {hmac : String → String → String} {signingKey bookName : String} {store : Storefront}
  {books : Books} {userId offerId : Uuid} {providerKey locationId : String}
  {imageId : Option String} {now : ℤ} {view : PurchaseConfirmationView}

/-- The offer of a screen is a row of the catalog that is on sale. -/
theorem chosenOffer_eq_ok {offer : CatalogEntry}
    (h : chosenOffer store.catalog providerKey locationId offerId = .ok offer) :
    offer ∈ store.catalog.rows ∧ offer.providerKey = providerKey ∧ offer.locationId = locationId ∧
      offer.enabled = true := by
  unfold chosenOffer at h
  cases hfound : getById store.catalog offerId with
  | none =>
    rw [hfound] at h
    exact absurd h raise_ne_ok
  | some found =>
    rw [hfound] at h
    dsimp only at h
    split_ifs at h with hplace hsold
    · exact absurd h raise_ne_ok
    · exact absurd h raise_ne_ok
    · obtain rfl := Except.ok.inj h
      obtain ⟨hprovider, hlocation⟩ := not_or.mp hplace
      have henabled := (not_or.mp hsold).1
      exact ⟨List.mem_of_find?_eq_some hfound, not_not.mp hprovider, not_not.mp hlocation,
        by simpa using henabled⟩

/-- A screen shows the policy of its offer at the quoted price, and what it does to the wallet. -/
theorem confirmation_eq_ok
    (h : confirmation hmac signingKey bookName store books userId providerKey locationId offerId
      imageId now = .ok view) :
    ∃ offer price, chosenOffer store.catalog providerKey locationId offerId = .ok offer ∧
      quote store.versions bookName offer now = .ok price ∧ view.offer = offerView offer ∧
      view.policy = policyOf offer price ∧
      view.wallet = impactOf (policyOf offer price) (walletOf books userId) := by
  obtain ⟨offer, hoffer, hpriced⟩ := bind_eq_ok.mp h
  obtain ⟨price, hprice, hsigned⟩ := bind_eq_ok.mp hpriced
  obtain ⟨confirm, -, hback⟩ := bind_eq_ok.mp hsigned
  obtain ⟨back, -, hcancel⟩ := bind_eq_ok.mp hback
  obtain ⟨cancel, -, hview⟩ := bind_eq_ok.mp hcancel
  obtain rfl := pure_eq_ok.mp hview
  exact ⟨offer, price, hoffer, hprice, rfl, rfl, rfl⟩

end Screen

section Command

open Transition

variable {store : Storefront} {settings : CreateServerSettings} {command : CreateServerCommand}
  {userId : Uuid} {chance : CreateChance} {rows : CreateRows} {offer : CatalogEntry}
  {price : SellingPrice}

/-- The cost that the command passes to the price book is the one that the screen quotes. -/
theorem quote_eq_ok (rows : CreateRows)
    (hoffer : getOffer store.catalog command.offerRef = some offer)
    (hquote : quote store.versions settings.bookName offer (command.pricedAt.getD chance.now) =
      .ok price) : Compute.CreateServer.offerCost offer.toCatalogOffer =
        .ok { costMinor := offer.pricePerQuantum, currency := offer.currency } ∧
      (store.handle command.offerRef (.sellPrice settings.bookName
        { costMinor := offer.pricePerQuantum, currency := offer.currency } command.pricedAt)
        chance rows) = (.ok (priceOf price), rows) := by
  have hplace : offer.place = (command.offerRef.providerKey, command.offerRef.planId,
      command.offerRef.locationId) := Table.key_of_get hoffer
  obtain ⟨hprovider, hrest⟩ := Prod.mk.inj hplace
  obtain ⟨hplan, hlocation⟩ := Prod.mk.inj hrest
  obtain ⟨cost, hcost, hsell⟩ := bind_eq_ok.mp hquote
  obtain ⟨-, -, hcurrency, hnonneg⟩ := OfferCost.construct_eq_ok hcost
  constructor
  · unfold Compute.CreateServer.offerCost
    rw [rejectIf_bind (by simpa using hcurrency), rejectIf_bind (by simpa using hnonneg)]
    rfl
  · rw [hprovider, hplan, hlocation] at hcost
    show (_, rows) = (_, rows)
    rw [hcost, ok_bind, hsell, ok_bind]
    rfl

/-- The steps up to the wallet. -/
theorem ends_reservation {post : Result (Uuid × Hold) → CreateRows → Prop}
    (hoffer : getOffer store.catalog command.offerRef = some offer) (henabled : offer.enabled = true)
    (hquote : quote store.versions settings.bookName offer (command.pricedAt.getD chance.now) =
      .ok price)
    (h : Ends (store.handle command.offerRef) (fun outcome _ after ↦ post outcome after)
      (Compute.CreateServer.reservePrice command userId offer.toCatalogOffer (priceOf price))
      (fun _ ↦ chance) rows) :
    Ends (store.handle command.offerRef) (fun outcome _ after ↦ post outcome after)
      (reservation settings command userId) (fun _ ↦ chance) rows := by
  obtain ⟨hcost, hsell⟩ := quote_eq_ok rows hoffer hquote
  have hget : store.handle command.offerRef (.getOffer command.offerRef) chance rows =
      (.ok (some offer.toCatalogOffer), rows) := by
    show (Except.ok ((getOffer store.catalog command.offerRef).map _), rows) = _
    rw [hoffer]
    rfl
  unfold reservation
  refine ends_bind ?_
  unfold Compute.CreateServer.requireOffer
  refine ends_perform ?_
  rw [hget]
  dsimp only
  rw [if_pos henabled]
  refine ends_pure ?_
  refine ends_lift (fun cost hok ↦ ?_) fun raised herror ↦ absurd (hcost.symm.trans herror) (by simp)
  obtain rfl := Except.ok.inj (hcost.symm.trans hok)
  refine ends_perform ?_
  rw [rest_apply, hsell]
  exact h

/-- A hold of the price in the wallet of the user, if there is one. -/
theorem ends_reservePrice {post : Result (Uuid × Hold) → CreateRows → Prop}
    {offer : Compute.CatalogOffer} {price : Compute.SellingPrice}
    (hnone : walletOf rows.books userId = none →
      post (raise .noWallet s!"user {userId.text} has no wallet") rows)
    (hsome : ∀ wallet, walletOf rows.books userId = some wallet →
      post (((rows.onBooks (.create wallet.id price.sellingMinor offer.currency
        (createHoldKey command.idempotencyKey)) chance).1).map (wallet.id, ·))
        (rows.onBooks (.create wallet.id price.sellingMinor offer.currency
          (createHoldKey command.idempotencyKey)) chance).2) :
    Ends (store.handle command.offerRef) (fun outcome _ after ↦ post outcome after)
      (Compute.CreateServer.reservePrice command userId offer price) (fun _ ↦ chance) rows := by
  unfold Compute.CreateServer.reservePrice
  refine ends_perform ?_
  show Ends _ _ _ _ _
  cases hwallet : walletOf rows.books userId with
  | none => exact ends_throw (hnone hwallet)
  | some wallet =>
    refine ends_perform ?_
    have hpost := hsome wallet hwallet
    simp only [rest_apply, Storefront.handle]
    cases hreply : rows.onBooks (.create wallet.id price.sellingMinor offer.currency
        (createHoldKey command.idempotencyKey)) chance with
    | mk reply after =>
      rw [hreply] at hpost
      cases reply with
      | ok hold => exact ends_pure hpost
      | error raised => exact hpost

/-- What the command reserves: a hold of the price in the wallet of the user. -/
theorem reserved_eq (hoffer : getOffer store.catalog command.offerRef = some offer)
    (henabled : offer.enabled = true)
    (hquote : quote store.versions settings.bookName offer (command.pricedAt.getD chance.now) =
      .ok price) :
    (reserved store settings command userId chance rows).1 = match walletOf rows.books userId with
      | none => raise .noWallet s!"user {userId.text} has no wallet"
      | some wallet => (Wallets.createHold rows.books wallet.id price.sellingMinor offer.currency
          (createHoldKey command.idempotencyKey) chance.newId).map fun done ↦ (wallet.id, done.2) := by
  refine (@ends_reservation _ _ _ _ _ _ _ _ (fun outcome _ ↦ outcome = _) hoffer henabled hquote
    (ends_reservePrice (fun hnone ↦ ?_) fun wallet hwallet ↦ ?_)).eval
  · rw [hnone]
  · rw [hwallet]
    show Except.map _ (transaction _ (Wallets.createHold rows.books wallet.id
      price.sellingMinor offer.currency _ chance.newId)).1 = Except.map _ (Wallets.createHold
        rows.books wallet.id price.sellingMinor offer.currency _ chance.newId)
    cases Wallets.createHold rows.books wallet.id price.sellingMinor offer.currency
        (createHoldKey command.idempotencyKey) chance.newId with
    | error raised => rfl
    | ok done => rfl

end Command

/-- A new hold is refused for the balance exactly if what the holds leave does not cover it. -/
theorem createHold_refused_iff {books : Books} {amount : ℤ} {currency key : String} {newId : Uuid}
    (hnone : books.createdHold books.wallet.id key = none) :
    (∃ message, Wallets.createHold books books.wallet.id amount currency key newId =
      .error ⟨.insufficientHoldBalance, message⟩) ↔ books.wallet.balance - books.held < amount := by
  unfold Wallets.createHold
  rw [hnone]
  dsimp only
  rw [rejectIf_bind (by simp)]
  by_cases havailable : books.wallet.balance - books.held < amount
  · simp [rejectIf, havailable, raise, bind, Except.bind]
  · rw [rejectIf_bind (decide_eq_false havailable)]
    refine iff_of_false ?_ havailable
    rintro ⟨message, hrefused⟩
    simp only [rejectIf, raise, bind, Except.bind, pure, Except.pure] at hrefused
    split_ifs at hrefused <;> simp at hrefused

/-- The screen of a price agrees with the hold of that price exactly if the holds of the wallet make no
difference. -/
theorem agrees_hold_iff {view : PurchaseConfirmationView} {offer : CatalogEntry}
    {price : SellingPrice} {books : Books} {key : String} {newId : Uuid}
    (hpolicy : view.policy = policyOf offer price)
    (hwallet : view.wallet = impactOf (policyOf offer price) (some books.wallet)) :
    Agrees view ((Wallets.createHold books books.wallet.id price.sellingMinor offer.currency key
        newId).map fun done ↦ (books.wallet.id, done.2)) ↔
      Unaffected books key price.sellingMinor offer.currency := by
  have hhas : view.wallet.hasWallet = true := by rw [hwallet]; rfl
  have hsufficient : view.wallet.sufficient = true ↔ price.sellingMinor ≤ books.wallet.balance := by
    rw [hwallet]
    exact decide_eq_true_iff
  unfold Unaffected
  cases hheld : books.createdHold books.wallet.id key with
  | some hold =>
    have hcreate : Wallets.createHold books books.wallet.id price.sellingMinor offer.currency key
        newId = .ok (books, hold) := by
      unfold Wallets.createHold
      rw [hheld]
    rw [hcreate]
    constructor
    · intro h
      have hshown := h.shown books.wallet.id hold rfl
      rw [hpolicy] at hshown
      refine ⟨hshown, ?_⟩
      rw [← hsufficient, h.sufficient]
      exact ⟨hhas, fun message hrefused ↦ by cases hrefused⟩
    · rintro ⟨hsame, hcovered⟩
      constructor
      · intro walletId other hother
        obtain ⟨-, rfl⟩ := Prod.mk.inj (Except.ok.inj hother)
        rw [hpolicy]
        exact hsame
      · rw [hsufficient]
        exact iff_of_true hcovered ⟨hhas, fun message hrefused ↦ by cases hrefused⟩
  | none =>
    have hrefused : (∃ message, Wallets.createHold books books.wallet.id price.sellingMinor
        offer.currency key newId = .error ⟨.insufficientHoldBalance, message⟩) ↔
          books.wallet.balance - books.held < price.sellingMinor := createHold_refused_iff hheld
    have hmap : (∀ message, (Wallets.createHold books books.wallet.id price.sellingMinor
        offer.currency key newId).map (fun done ↦ (books.wallet.id, done.2)) ≠
          .error ⟨.insufficientHoldBalance, message⟩) ↔
        price.sellingMinor ≤ books.wallet.balance - books.held := by
      rw [← not_lt, ← hrefused, not_exists]
      refine forall_congr' fun message ↦ not_congr ?_
      cases Wallets.createHold books books.wallet.id price.sellingMinor offer.currency key newId with
      | error raised => simp [Except.map]
      | ok done => simp [Except.map]
    constructor
    · intro h
      rw [← hsufficient, h.sufficient, hmap, and_iff_right hhas]
    · intro hcovered
      constructor
      · intro walletId hold hdone
        cases hcreate : Wallets.createHold books books.wallet.id price.sellingMinor offer.currency key
            newId with
        | error raised =>
          rw [hcreate] at hdone
          cases hdone
        | ok done =>
          obtain ⟨after, created⟩ := done
          rw [hcreate] at hdone
          obtain ⟨-, rfl⟩ := Prod.mk.inj (Except.ok.inj hdone)
          rcases Wallets.createHold_eq_ok hcreate with ⟨-, hexisting⟩ | ⟨-, -, -, -, -, hold, -⟩
          · rw [hheld] at hexisting
            cases hexisting
          · rw [hold, hpolicy]
            exact ⟨rfl, rfl⟩
      · rw [hsufficient, hmap, and_iff_right hhas]
        exact hcovered

/-- A confirmation screen agrees with the reservation of the command for its offer, at the instant at
which the command is priced, exactly if the holds of the wallet make no difference to the first hold. -/
theorem agrees_iff_fits {hmac : String → String → String} {signingKey : String}
    {store : Storefront} {settings : CreateServerSettings} {command : CreateServerCommand}
    {userId offerId : Uuid} {imageId : Option String} {chance : CreateChance} {rows : CreateRows}
    {view : PurchaseConfirmationView}
    (hview : confirmation hmac signingKey settings.bookName store rows.books userId
      command.offerRef.providerKey command.offerRef.locationId offerId imageId
      (command.pricedAt.getD chance.now) = .ok view)
    (hplan : view.offer.planId = command.offerRef.planId) :
    Agrees view (reserved store settings command userId chance rows).1 ↔
      Fits store settings.bookName rows.books command userId (command.pricedAt.getD chance.now) := by
  obtain ⟨offer, price, hchosen, hquote, hoffer, hpolicy, hwallet⟩ := confirmation_eq_ok hview
  obtain ⟨hmem, hprovider, hlocation, henabled⟩ := chosenOffer_eq_ok hchosen
  have hget : getOffer store.catalog command.offerRef = some offer := by
    have hrow := Table.mem_iff_get.mp hmem
    rw [hoffer] at hplan
    rw [CatalogEntry.place, hprovider, hlocation, show offer.planId = _ from hplan] at hrow
    exact hrow
  have hfits : Fits store settings.bookName rows.books command userId
        (command.pricedAt.getD chance.now) ↔ (rows.books.wallet.userId = userId →
      Unaffected rows.books (createHoldKey command.idempotencyKey) price.sellingMinor
        offer.currency) := by
    constructor
    · exact fun h ↦ h offer price hget hquote
    · intro h other cost hother hcost
      obtain rfl := Option.some.inj (hget.symm.trans hother)
      obtain rfl := Except.ok.inj (hquote.symm.trans hcost)
      exact h
  rw [hfits, reserved_eq hget henabled hquote]
  by_cases huser : rows.books.wallet.userId = userId
  · have hfound : walletOf rows.books userId = some rows.books.wallet := if_pos huser
    rw [hfound] at hwallet ⊢
    rw [forall_prop_of_true huser]
    exact agrees_hold_iff hpolicy hwallet
  · have hfound : walletOf rows.books userId = none := if_neg huser
    rw [hfound] at hwallet ⊢
    refine iff_of_true ?_ fun h ↦ absurd h huser
    constructor
    · exact fun walletId hold hdone ↦ absurd hdone raise_ne_ok
    · rw [hwallet]
      exact iff_of_false (by simp [impactOf]) (by simp [impactOf])

/-! ### A wallet with a hold -/

namespace HeldWallet

def userId : Uuid :=
  ⟨"8d1e5a20-0000-4000-8000-000000000001", .refl true⟩

def walletId : Uuid :=
  ⟨"8d1e5a20-0000-4000-8000-000000000002", .refl true⟩

def offerId : Uuid :=
  ⟨"8d1e5a20-0000-4000-8000-00000000000a", .refl true⟩

/-- An offer that costs 50 an hour. -/
def entry : CatalogEntry where
  id := offerId
  currency := "EUR"
  pricePerQuantum := 50
  enabled := true
  providerKey := "hetzner"
  planId := "cx22"
  locationId := "fsn1"
  name := "CX22"
  architecture := "x86"
  vcpu := 2
  memoryMb := 4096
  diskGb := 40
  quantumSeconds := 3600

theorem fixed_nonneg : (0 : ℤ) ≤ 0 := le_rfl

theorem cap_nonneg : ∀ cap ∈ (none : Option ℤ), 0 ≤ cap := by simp

theorem book_ne : strip "default" ≠ "" := by decide

theorem version_pos : (1 : ℤ) ≤ 1 := le_rfl

/-- A price book without a margin. -/
def version : PriceBookVersion where
  bookName := "default"
  version := 1
  effectiveAt := 0
  rules := [{
    provider := "*"
    plan := "*"
    location := "*"
    marginFactor := some ⟨false, 1, 0⟩
    provider_pattern := Pricing.isPattern_wildcard
    plan_pattern := Pricing.isPattern_wildcard
    location_pattern := Pricing.isPattern_wildcard
    margin_pos := by decide
    fixed_nonneg := fixed_nonneg
    cap_nonneg := cap_nonneg }]
  book_ne := book_ne
  version_pos := version_pos
  rules_ne := by simp
  accepted := by decide

def store : Storefront where
  catalog := ⟨[entry], by decide⟩
  versions := [version]

def command : CreateServerCommand where
  user := { id := some userId }
  offerRef := ⟨"hetzner", "cx22", "fsn1", by decide, by decide, by decide⟩
  idempotencyKey := "first"
  pricedAt := some 1000000
  serverId := ⟨"8d1e5a20-0000-4000-8000-000000000003", .refl true⟩

/-- A wallet of 100. -/
def free : CreateRows where
  books := { wallet := ⟨walletId, userId, 100, "EUR"⟩ }

/-- The same wallet with 80 reserved for another server. -/
def held : CreateRows where
  books := { free.books with
    holds := [⟨⟨"8d1e5a20-0000-4000-8000-000000000004", .refl true⟩, walletId, 80, "EUR",
      "server-create:other", .created, none, none⟩] }

/-- What a call meets. -/
def chance : CreateChance where
  now := 2000000
  newId := ⟨"8d1e5a20-0000-4000-8000-000000000005", .refl true⟩
  price := priceOf ⟨⟨⟨50, "EUR", none⟩, "hetzner", "cx22", "fsn1", by decide, by decide, by decide,
    by decide, by decide⟩, 50, version.rules.head version.rules_ne, "default", 1, 1000000, "EUR"⟩

/-- The digests of the keys of the screen under the key "secret". -/
def digest (_ message : String) : String :=
  if message = "main:menu" then "e8f1047a9f4762b2ff2286b064beffdd6622fc99d7f8c54cfa526b8867208156"
  else if message = "buy:os:hetzner:fsn1:8d1e5a20-0000-4000-8000-00000000000a:none" then
    "0552fbb45138dd7930179f410ca25d3deaf0721ac572cc2d21b0e26bf1f0a652"
  else "890b4b600bf62963e9d8342ec0b1550059d3656fb18146b173b1ae02a2a3f42f"

/-- The screen of the offer. -/
def screen (rows : CreateRows) : Result PurchaseConfirmationView :=
  confirmation digest "secret" "default" store rows.books userId "hetzner" "fsn1" offerId none 1000000

theorem exists_screen (rows : CreateRows) (h : (screen rows).toOption.isSome = true) :
    ∃ view, screen rows = .ok view := by
  cases hscreen : screen rows with
  | error raised =>
    rw [hscreen] at h
    cases h
  | ok view => exact ⟨view, rfl⟩

theorem planId_screen {rows : CreateRows} {view : PurchaseConfirmationView}
    (h : screen rows = .ok view) : view.offer.planId = "cx22" := by
  obtain ⟨offer, price, hchosen, -, hoffer, -, -⟩ := confirmation_eq_ok h
  have hrow := (chosenOffer_eq_ok hchosen).1
  rw [hoffer, List.mem_singleton.mp hrow]
  rfl

/-- Without other holds the screen agrees with the command. -/
theorem agrees_free : ∃ view, screen free = .ok view ∧
    Agrees view (reserved store {} command userId chance free).1 := by
  obtain ⟨view, hview⟩ := exists_screen free (by decide +kernel)
  refine ⟨view, hview, (@agrees_iff_fits _ _ _ {} command _ _ _ chance _ _ hview
    (planId_screen hview)).mpr fun offer price _ _ _ ↦ ?_⟩
  have hnone : free.books.createdHold free.books.wallet.id (createHoldKey "first") = none := by decide
  have hheld : free.books.held = 0 := by decide
  show Unaffected free.books (createHoldKey "first") _ _
  rw [Unaffected, hnone, hheld, sub_zero]

/-- The screen shows that 100 suffice for 50 while the hold of 50 is refused: 80 are reserved. -/
theorem not_agrees_held : ∃ view message, screen held = .ok view ∧ view.wallet.sufficient = true ∧
    (reserved store {} command userId chance held).1 =
      .error ⟨.insufficientHoldBalance, message⟩ ∧
    ¬ Agrees view (reserved store {} command userId chance held).1 := by
  obtain ⟨view, hview⟩ := exists_screen held (by decide +kernel)
  have hrefused : (reserved store {} command userId chance held).1 =
      .error ⟨.insufficientHoldBalance,
        "available balance 20 < hold amount 50 (balance 100, held 80)"⟩ := by
    decide +kernel
  have hshown : (screen held).toOption.map (·.wallet.sufficient) = some true := by decide +kernel
  have hsufficient : view.wallet.sufficient = true := by
    rw [hview] at hshown
    exact Option.some.inj hshown
  refine ⟨view, _, hview, hsufficient, hrefused, fun h ↦ ?_⟩
  exact (h.sufficient.mp hsufficient).2 _ hrefused

end HeldWallet
end CloudPlatform.Catalog
