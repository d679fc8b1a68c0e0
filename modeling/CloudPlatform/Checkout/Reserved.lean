import CloudPlatform.Checkout.MonthlyCheckout
import CloudPlatform.Orders.PurchaseAlone

/-!
# What is reserved is what is sold

Any number of attempts of one purchase command run one after another, each abandoned after any call,
while the catalog rewrites the offer between them. The hold is found again by the command key alone,
so an attempt after a reprice sells at the new price what an abandoned attempt reserved at the old
one; and nothing compares the offer's currency with the wallet's
(`not_reserved_of_repricedAttempt`). Whenever the hold is taken at its own price and in the wallet's
currency, every order that is returned as new is the one that was reserved (`reserved_of_ownPrice`).
-/

namespace CloudPlatform.Checkout

open Offers (SellableOffer)
open Orders
open Transition
open Wallets (Hold HoldCall Wallet)

/-- An attempt of a purchase command, or a write of the catalog. -/
inductive SaleEntry
  | purchase (command : OrderCommand)
  | reprice (offer : Option SellableOffer)

/-- The program of an entry; a purchase returns its result. -/
def SaleEntry.program (settings : CheckoutSettings) :
    SaleEntry → OrderProgram (Option MonthlyCheckoutResult)
  | .purchase command => do
    let result ← createOrder settings command
    return some result
  | .reprice offer => do
    perform (.writeOffer offer)
    return none

/-- The machine of the attempts and the catalog. -/
abbrev Sales := Solo Raised OrderCall OrderCall.Out Purchase (Option MonthlyCheckoutResult)

/-- One event of the sales. -/
abbrev Sales.step (scan : RecoveryScan) (settings : CheckoutSettings) :
    Sales → SoloEvent SaleEntry Chance → Sales :=
  Solo.step (OrderCall.handle scan) (SaleEntry.program settings)

/-- The result that a purchase has returned. -/
def Sales.returned (sales : Sales) : Option MonthlyCheckoutResult :=
  match sales.current with
  | some (.done (.ok outcome)) => outcome
  | _ => none

/-- The hold of a result reserves the selling price of its order, in the wallet's currency. -/
def ReservesSale (wallet : Wallet) (result : MonthlyCheckoutResult) : Prop :=
  ∃ hold ∈ result.hold, result.order.sellingPriceMinor = some hold.amount ∧
    result.order.sellingCurrency = some hold.currency ∧ hold.currency = wallet.currency

/-- What a purchase establishes when it returns. -/
def NewReserved (result : MonthlyCheckoutResult) (s : Purchase) : Prop :=
  result.replayed = false → ReservesSale s.books.wallet result

/-- Every order that has been returned as new is reserved. -/
def Sales.Reserved (sales : Sales) : Prop :=
  ∀ result ∈ sales.returned, NewReserved result sales.shared

/-- The arguments of a call that takes a hold. -/
structure HoldTaking where
  walletId : Uuid
  amount : ℤ
  currency : String
  key : String

/-- The hold that a call takes. -/
def takenHold : OrderCall → Option HoldTaking
  | .hold (.create walletId amount currency key) => some ⟨walletId, amount, currency, key⟩
  | _ => none

/-- The hold is taken at its own price: no CREATED hold of the key has another amount or currency,
and the currency is the wallet's. -/
def TakesOwnPrice (s : Purchase) (request : OrderCall) : Prop :=
  ∀ taken ∈ takenHold request, (∀ hold ∈ s.books.createdHold taken.walletId taken.key,
    hold.amount = taken.amount ∧ hold.currency = taken.currency) ∧
      taken.currency = s.books.wallet.currency

instance (s : Purchase) (request : OrderCall) : Decidable (TakesOwnPrice s request) :=
  inferInstanceAs (Decidable (∀ taken ∈ takenHold request, _ ∧ _))

/-- There is no order without its server. -/
def OrderHasServer (s : Purchase) : Prop :=
  s.server = none → s.order = none

/-! ### The steps of a purchase -/

section Steps

variable {scan : RecoveryScan} {settings : CheckoutSettings} {command : OrderCommand}
  {userId : Uuid} {offer : SellableOffer} {account : Option String} {hold : Hold} {s : Purchase}

/-- A purchase that runs alone. -/
abbrev SaleSafe {β : Type} (scan : RecoveryScan) (Q : β → Purchase → Prop) (p : OrderProgram β)
    (s : Purchase) : Prop :=
  AloneSafe scan OrderHasServer TakesOwnPrice Q p s

theorem orderHasServer_insert (h : OrderHasServer s) (server : Compute.CloudServer) (key : String)
    (now : ℤ) : OrderHasServer (s.insertServer server key now).2 := by
  unfold Purchase.insertServer
  split
  · exact h
  · exact fun hnone ↦ by cases hnone

theorem orderHasServer_update (h : OrderHasServer s) (copy : Compute.CloudServer) (now : ℤ) :
    OrderHasServer (s.updateServer copy now).2 := by
  unfold Purchase.updateServer
  split
  · exact h
  · exact fun hnone ↦ by cases hnone

theorem sale_releaseHold : SaleSafe scan (fun _ _ ↦ True) (releaseHold hold) s := by
  refine safe_attempt (alone_call (s.onBooks (.release hold.id)) (fun _ ↦ rfl) ?_ ?_)
  · exact fun _ _ ↦ trivial
  · exact fun hs _ _ ↦ ⟨hs, trivial⟩

variable (created : Compute.CloudServer)

theorem sale_failIntent : SaleSafe scan (fun _ _ ↦ True) (failIntent created hold) s := by
  refine safe_attempt ?_
  cases created.transitionTo .error with
  | error raised => exact sale_releaseHold
  | ok failed =>
    refine alone_call (fun chance ↦ s.updateServer failed chance.now) (fun _ ↦ rfl) ?_ ?_
    · exact fun _ _ ↦ sale_releaseHold
    · exact fun hinv _ chance ↦ ⟨orderHasServer_update hinv failed chance.now,
        sale_releaseHold⟩

/-- A commit that fails raises, once it is compensated. -/
theorem sale_orFailIntent {α β : Type} {Q : β → Purchase → Prop} {commit : OrderProgram α}
    {f : α → OrderProgram β}
    (h : SaleSafe scan (fun value after ↦ SaleSafe scan Q (f value) after) commit s) :
    SaleSafe scan Q (orFailIntent created hold commit >>= f) s := by
  refine safe_bind (safe_tryCatch (h.mono fun outcome after houtcome ↦ ?_))
  cases outcome with
  | ok value => exact houtcome
  | error raised =>
    exact safe_bind ((sale_failIntent created).mono fun outcome _ _ ↦ by cases outcome <;> trivial)

/-- A new order sells at the price of the offer, and returns the hold it was given. -/
theorem sale_persistOrder (hserver : s.server ≠ none) (horder : s.order = none)
    (hamount : hold.amount = offer.sellingPriceMinor)
    (hcurrency : hold.currency = offer.sellingCurrency)
    (hwallet : hold.currency = s.books.wallet.currency) :
    SaleSafe scan (fun result after ↦ ReservesSale after.books.wallet result)
      (persistOrder settings command offer account hold created) s := by
  refine sale_orFailIntent created (alone_call
    (s.insertOrder (orderIntent settings command offer account created)) (fun _ ↦ rfl)
    (fun _ _ ↦ trivial) fun _ _ chance ↦ ?_)
  rw [insertOrder_of_none horder]
  refine ⟨fun hnone ↦ absurd hnone hserver, ?_⟩
  refine sale_orFailIntent created (alone_call (Purchase.ensureOperation _ _ _ _) (fun _ ↦ rfl)
    (fun _ _ ↦ trivial) fun _ _ chance ↦ ?_)
  obtain ⟨operation, hensured⟩ := ensureOperation_rows (orderOperationKey created.id) _
    offer.providerKey chance
  rw [hensured]
  refine ⟨fun hnone ↦ absurd hnone hserver, ?_⟩
  refine alone_read (fun _ ↦ rfl) fun _ ↦ ?_
  exact ⟨hold, rfl, congrArg some hamount.symm, congrArg some hcurrency.symm, hwallet⟩

theorem sale_resolveDuplicate (raised : Raised) :
    SaleSafe scan (fun result _ ↦ result.replayed = true)
      (resolveDuplicate command userId offer hold raised) s := by
  refine alone_read (fun _ ↦ rfl) fun _ ↦ ?_
  split
  · refine alone_read (fun _ ↦ rfl) fun _ ↦ ?_
    split
    · trivial
    · rfl
  · exact safe_returns_bind sale_releaseHold fun _ _ _ ↦ trivial

/-- A server row that is refused ends in a replay or an exception. -/
theorem sale_createRefused (raised : Raised) : SaleSafe scan NewReserved
      (if raised.kind = .serverCreate then resolveDuplicate command userId offer hold raised
        else throw raised) s := by
  by_cases hkind : raised.kind = .serverCreate
  · rw [if_pos hkind]
    refine (sale_resolveDuplicate raised).mono fun outcome _ houtcome ↦ ?_
    cases outcome with
    | error _ => trivial
    | ok result => exact fun hnew ↦ absurd (houtcome.symm.trans hnew) (by decide)
  · rw [if_neg hkind]
    trivial

/-- The intent behind a hold of the offer's price. -/
theorem sale_persistIntent (hamount : hold.amount = offer.sellingPriceMinor)
    (hcurrency : hold.currency = offer.sellingCurrency)
    (hwallet : hold.currency = s.books.wallet.currency) :
    SaleSafe scan NewReserved (persistIntent settings command userId offer account hold) s := by
  refine safe_returns_lift fun _ _ ↦ safe_attempt (alone_call (fun chance ↦ s.insertServer
    (serverIntent command userId offer account) command.idempotencyKey chance.now) (fun _ ↦ rfl)
    (fun _ raised ↦ sale_createRefused raised)
    fun hs _ chance ↦ ⟨orderHasServer_insert hs _ _ _, ?_⟩)
  cases hcreated : (s.insertServer (serverIntent command userId offer account)
      command.idempotencyKey chance.now).1 with
  | ok created =>
    obtain ⟨hnone, hafter⟩ := insertServer_eq_ok hcreated
    rw [hafter]
    have hserver : (some created : Option Compute.CloudServer) ≠ none := by simp
    refine (sale_persistOrder (s := { s with server := some created }) created hserver (hs hnone)
      hamount hcurrency hwallet).mono fun outcome _ houtcome ↦ ?_
    cases outcome with
    | error _ => trivial
    | ok result => exact fun _ ↦ houtcome
  | error raised => exact sale_createRefused raised

/-- A hold that is taken at its own price. -/
theorem sale_reservePrice (command : OrderCommand) :
    SaleSafe scan (fun hold after ↦ hold.amount = offer.sellingPriceMinor ∧
        hold.currency = offer.sellingCurrency ∧ hold.currency = after.books.wallet.currency)
      (reservePrice command userId offer) s := by
  refine alone_read (fun _ ↦ rfl) fun _ ↦ ?_
  split
  · trivial
  · rename_i wallet hwallet
    refine alone_call (s.onBooks (.create wallet.id offer.sellingPriceMinor offer.sellingCurrency
      (holdKey command.idempotencyKey))) (fun _ ↦ rfl) (fun _ _ ↦ trivial) fun hs hown chance ↦ ?_
    refine ⟨hs, ?_⟩
    obtain ⟨hsame, hcurrency⟩ := hown _ rfl
    simp only [Purchase.onBooks, HoldCall.handle, transaction]
    cases hdone : Wallets.createHold s.books wallet.id offer.sellingPriceMinor
        offer.sellingCurrency (holdKey command.idempotencyKey) chance.newId with
    | error raised => trivial
    | ok result =>
      obtain ⟨after, hold⟩ := result
      rcases Wallets.createHold_eq_ok hdone with ⟨rfl, hold_found⟩ | ⟨-, -, -, -, -, rfl, rfl⟩
      · obtain ⟨hamount, hheld⟩ := hsame hold hold_found
        exact ⟨hamount, hheld, hheld.trans hcurrency⟩
      · exact ⟨rfl, rfl, hcurrency⟩

theorem sale_replay (existing : Compute.CloudServer) :
    SaleSafe scan NewReserved (replay command userId existing) s := by
  have hreplayed : SaleSafe scan (fun result _ ↦ result.replayed = true)
      (replay command userId existing) s := by
    refine safe_returns_lift fun _ _ ↦ alone_read (fun _ ↦ rfl) fun _ ↦ ?_
    have hhold : SaleSafe scan (fun _ _ ↦ True)
        (originalHold userId command.idempotencyKey) s := by
      refine alone_read (fun _ ↦ rfl) fun _ ↦ ?_
      split
      · trivial
      · exact alone_call (s.onBooks (.getByIdempotency _ _)) (fun _ ↦ rfl) (fun _ _ ↦ trivial)
          fun hs _ _ ↦ ⟨hs, trivial⟩
    refine safe_returns_bind hhold fun hold after _ ↦ ?_
    split
    · trivial
    · rfl
  refine hreplayed.mono fun outcome _ houtcome ↦ ?_
  cases outcome with
  | error _ => trivial
  | ok result => exact fun hnew ↦ absurd (houtcome.symm.trans hnew) (by decide)

/-- A purchase that takes its hold at its own price returns a reserved order, or an old one. -/
theorem sale_createOrder (command : OrderCommand) :
    SaleSafe scan NewReserved (createOrder settings command) s := by
  refine safe_returns_lift fun userId _ ↦ alone_read (fun _ ↦ rfl) fun _ ↦ ?_
  split
  · exact sale_replay _
  · refine alone_read (fun _ ↦ rfl) fun _ ↦ safe_returns_lift fun offer _ ↦ ?_
    refine alone_perform (fun chance ↦ (.ok chance.account, s)) (fun _ ↦ rfl) fun hs _ chance ↦ ?_
    refine ⟨hs, fun account _ ↦ alone_read (fun _ ↦ rfl) fun _ ↦ ?_⟩
    refine safe_returns_bind (sale_reservePrice command) fun hold after hhold ↦ ?_
    exact sale_persistIntent hhold.1 hhold.2.1 hhold.2.2

/-- Every entry of the sales establishes what it returns. -/
theorem sale_program (entry : SaleEntry) :
    SaleSafe scan (fun outcome after ↦ ∀ result ∈ outcome, NewReserved result after)
      (entry.program settings) s := by
  cases entry with
  | purchase command =>
    refine safe_returns_bind (sale_createOrder command) fun result after hresult ↦ ?_
    rintro _ ⟨⟩
    exact hresult
  | reprice offer =>
    refine alone_perform (fun _ ↦ (.ok (), { s with offer := offer })) (fun _ ↦ rfl)
      fun hs _ _ ↦ ⟨hs, fun _ _ ↦ ?_⟩
    rintro _ ⟨⟩

end Steps

/-- Whatever attempts were made of a purchase, and however the offer was repriced between them: when
every hold is taken at its own price and in the wallet's currency, each order that is returned as
new sells for the amount and in the currency of its hold, which is the wallet's currency. -/
theorem reserved_of_ownPrice (scan : RecoveryScan) (settings : CheckoutSettings)
    (events : List (SoloEvent SaleEntry Chance)) (start : Purchase) (hstart : OrderHasServer start)
    (htakes : Along (Sales.step scan settings) (Solo.Allowed TakesOwnPrice) ⟨start, none⟩ events) :
    Throughout (Sales.step scan settings) Sales.Reserved ⟨start, none⟩ events := by
  refine (Solo.throughout_sound (fun entry _ _ ↦ sale_program entry) events start hstart
    htakes).mono fun sales hsales result hresult ↦ ?_
  unfold Sales.returned at hresult
  split at hresult
  · rename_i outcome hcurrent
    exact hsales.2 outcome hcurrent result hresult
  · cases hresult

namespace SaleRuns

open PurchaseRuns

def command : OrderCommand where
  user := { id := some userId }
  offerId := offerId
  osName := "Debian 12"
  idempotencyKey := "buy"
  serverId := serverId

/-- One attempt of the purchase, as far as so many calls. -/
def attempt (calls : ℕ) : List (SoloEvent SaleEntry Chance) :=
  .start (.purchase command) :: List.replicate calls (.advance chance)

/-- The offer at another price. -/
def repriced : SoloEvent SaleEntry Chance :=
  .start (.reprice (some { offer with sellingPriceMinor := 1500 }))

/-- An attempt that is abandoned behind its hold, and one that completes. -/
def resumed : List (SoloEvent SaleEntry Chance) :=
  attempt 6 ++ attempt 10

/-- The same with a reprice between the two. -/
def repricedAttempt : List (SoloEvent SaleEntry Chance) :=
  attempt 6 ++ repriced :: .advance chance :: attempt 10

end SaleRuns

theorem reserved_of_ownPrice_resumed :
    (run (Sales.step PurchaseRuns.scan {}) ⟨PurchaseRuns.unsold, none⟩
      SaleRuns.resumed).returned.isSome ∧
    Throughout (Sales.step PurchaseRuns.scan {}) Sales.Reserved ⟨PurchaseRuns.unsold, none⟩
      SaleRuns.resumed :=
  ⟨by decide +kernel, reserved_of_ownPrice PurchaseRuns.scan {} SaleRuns.resumed PurchaseRuns.unsold
    (fun _ ↦ rfl) (by decide +kernel)⟩

/-- The abandoned attempt has reserved 1000; the next one sells at 1500 against that hold. -/
theorem not_reserved_of_repricedAttempt :
    ¬ ∀ (scan : RecoveryScan) (settings : CheckoutSettings)
      (events : List (SoloEvent SaleEntry Chance)) (start : Purchase), OrderHasServer start →
        Throughout (Sales.step scan settings) Sales.Reserved ⟨start, none⟩ events := by
  intro h
  have hrun := h PurchaseRuns.scan {} SaleRuns.repricedAttempt PurchaseRuns.unsold fun _ ↦ rfl
  rw [throughout_iff_forall_take] at hrun
  have hlast := hrun SaleRuns.repricedAttempt.length
  rw [List.take_length] at hlast
  have hsold : ((run (Sales.step PurchaseRuns.scan {}) ⟨PurchaseRuns.unsold, none⟩
      SaleRuns.repricedAttempt).returned.map fun result ↦
        (result.replayed, result.hold.map (·.amount), result.order.sellingPriceMinor)) =
      some (false, some 1000, some 1500) := by
    decide +kernel
  obtain ⟨result, hresult, hfacts⟩ := Option.map_eq_some_iff.mp hsold
  obtain ⟨hnew, hprices⟩ := Prod.mk.inj hfacts
  obtain ⟨hamount, hprice⟩ := Prod.mk.inj hprices
  obtain ⟨hold, hhold, hreserved, -, -⟩ := hlast result hresult hnew
  rw [hhold, Option.map_some] at hamount
  rw [hprice, hamount] at hreserved
  exact absurd hreserved (by decide)

end CloudPlatform.Checkout
