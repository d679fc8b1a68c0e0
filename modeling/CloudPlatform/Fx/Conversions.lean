import CloudPlatform.Fx.Ages

/-!
# Conversions from market quotes

What `FxResolver` makes of the quotes that a conversion uses: one quote of a foreign currency against
IRT, directly or with an exact leg between IRT and IRR, or two for a cross rate. `USDT` stands for
`USD`. `convert_provenance` says which of a conversion's fields come from the quotes, and how.
-/

namespace CloudPlatform.Fx

open Billing.Usage (addSeconds)
open Calendar (InRange)
open ConversionSnapshot (unstorable)
open Decimals

/-- One validated market quote, constructed at some instant. -/
structure FxMarketQuote where
  baseCurrency : String
  quoteCurrency : String
  buyRate : Decimal
  sellRate : Decimal
  source : String
  sourceMarket : String
  observedAt : ℤ
  expiresAt : ℤ
  proxy : Bool := false
  proxyAsset : String := ""
  constructedAt : ℤ
  base_normal : normalizeCurrency baseCurrency = .ok baseCurrency
  quote_normal : normalizeCurrency quoteCurrency = .ok quoteCurrency
  buyRate_pos : buyRate.positive = true
  sellRate_pos : sellRate.positive = true
  source_ne : strip source ≠ ""
  market_ne : strip sourceMarket ≠ ""
  asset_of_proxy : proxy = decide (strip proxyAsset ≠ "")
  lives : observedAt < expiresAt
  observed : observedAt ≤ constructedAt
  observedAt_range : InRange observedAt
  expiresAt_range : InRange expiresAt

/-- One completed conversion with full audit metadata. -/
structure ResolvedMoney where
  sourceAmountMinor : ℤ
  sourceCurrency : String
  targetAmountMinor : ℤ
  targetCurrency : String
  rate : Decimal
  purpose : FxPurpose
  source : String
  path : String
  observedAt : ℤ
  expiresAt : ℤ
  stale : Bool := false
  proxy : Bool := false
  proxyAsset : String := ""

/-- `_validate_quote_timestamps`, of aware datetimes. -/
def validateQuoteTimestamps (observedAt expiresAt now : ℤ) : Result Unit := do
  rejectIf (expiresAt ≤ observedAt) .fxInvalidQuote "quote expires_at must be after observed_at"
  rejectIf (now < observedAt) .fxInvalidQuote "quote observed_at must not be in the future"

/-- `ResolvedMoney.__post_init__`. -/
def ResolvedMoney.construct (given : ResolvedMoney) (now : ℤ) : Result ResolvedMoney := do
  let source ← normalizeCurrency given.sourceCurrency
  let target ← normalizeCurrency given.targetCurrency
  rejectIf (unstorable given.sourceAmountMinor) .valueError
    "source_amount_minor must be a non-negative int"
  rejectIf (unstorable given.targetAmountMinor) .valueError
    "target_amount_minor must be a non-negative int"
  rejectIf (!given.rate.positive) .valueError "rate must be a positive finite Decimal"
  rejectIf (512 < numDigits given.rate.coefficient || 1000 < given.rate.exponent.natAbs)
    .valueError "rate exceeds the audited numeric range"
  rejectIf (strip given.source = "" || strip given.path = "") .valueError
    "resolved FX provenance must be non-empty"
  let major ← minorToMajor given.sourceAmountMinor source
  let product ← decimalMul major given.rate
  let expected ← majorToMinor product target given.purpose
  rejectIf (expected ≠ given.targetAmountMinor) .valueError
    "resolved FX amounts do not match the exact rate"
  let asset := upper (strip given.proxyAsset)
  rejectIf (given.proxy && asset ≠ "USDT") .valueError
    "proxy conversion must identify the audited USDT asset"
  rejectIf (!given.proxy && asset ≠ "") .valueError
    "non-proxy conversion must not identify a proxy asset"
  validateQuoteTimestamps given.observedAt given.expiresAt now
  return { given with sourceCurrency := source, targetCurrency := target, proxyAsset := asset }

/-- What the constructor keeps. -/
theorem ResolvedMoney.construct_eq_ok {given resolved : ResolvedMoney} {now : ℤ}
    (h : given.construct now = .ok resolved) :
    resolved.observedAt = given.observedAt ∧ resolved.expiresAt = given.expiresAt ∧
      resolved.stale = given.stale ∧ resolved.proxy = given.proxy := by
  obtain ⟨source, -, h⟩ := bind_eq_ok.mp h
  obtain ⟨target, -, h⟩ := bind_eq_ok.mp h
  obtain ⟨-, h⟩ := rejectIf_bind_eq_ok.mp h
  obtain ⟨-, h⟩ := rejectIf_bind_eq_ok.mp h
  obtain ⟨-, h⟩ := rejectIf_bind_eq_ok.mp h
  obtain ⟨-, h⟩ := rejectIf_bind_eq_ok.mp h
  obtain ⟨-, h⟩ := rejectIf_bind_eq_ok.mp h
  obtain ⟨major, -, h⟩ := bind_eq_ok.mp h
  obtain ⟨product, -, h⟩ := bind_eq_ok.mp h
  obtain ⟨expected, -, h⟩ := bind_eq_ok.mp h
  obtain ⟨-, h⟩ := rejectIf_bind_eq_ok.mp h
  obtain ⟨-, h⟩ := rejectIf_bind_eq_ok.mp h
  obtain ⟨-, h⟩ := rejectIf_bind_eq_ok.mp h
  obtain ⟨_, -, h⟩ := bind_eq_ok.mp h
  rw [← pure_eq_ok.mp h]
  exact ⟨rfl, rfl, rfl, rfl⟩

/-- The arguments of `resolve`. -/
structure FxQuery where
  amountMinor : ℤ
  sourceCurrency : String
  targetCurrency : String
  purpose : FxPurpose

/-- A call whose arguments `resolve` has accepted, with its currencies. -/
structure FxRequest where
  query : FxQuery
  source : String
  target : String
  source_normal : normalizeCurrency query.sourceCurrency = .ok source
  target_normal : normalizeCurrency query.targetCurrency = .ok target
  amount_nonneg : 0 ≤ query.amountMinor

namespace FxRequest

variable (request : FxRequest)

def amount : ℤ :=
  request.query.amountMinor

def purpose : FxPurpose :=
  request.query.purpose

/-- The two currencies are the given ones, in some order. -/
def between (first second : String) : Bool :=
  request.source = first && request.target = second ||
    request.source = second && request.target = first

/-- `_identity`. -/
def identity (quoteTtlSeconds : ℤ) (now : Instant) : Result ResolvedMoney := do
  let expiresAt ← addSeconds now.val quoteTtlSeconds
  ResolvedMoney.construct {
    sourceAmountMinor := request.amount
    sourceCurrency := request.source
    targetAmountMinor := request.amount
    targetCurrency := request.source
    rate := .ofNat 1
    purpose := request.purpose
    source := "identity"
    path := "identity"
    observedAt := now.val
    expiresAt := expiresAt } now.val

/-- The amount and the rate of `_exact_irt_irr`. -/
def exactAmounts : Result (ℤ × Decimal) :=
  if request.source = "IRT" ∧ request.target = "IRR" then
    .ok (request.amount * 10, .ofNat 10)
  else do
    let major ← minorToMajor request.amount "IRR"
    let tenth ← arithmetic (Context.divide ⟨50, 999999, -999999⟩ major (.ofNat 10))
    let target ← majorToMinor tenth "IRT" request.purpose
    return (target, { negative := false, coefficient := 1, exponent := -1 })

/-- `_exact_irt_irr`. -/
def exactIrtIrr (quoteTtlSeconds : ℤ) (now : Instant) : Result ResolvedMoney := do
  let (target, rate) ← request.exactAmounts
  let expiresAt ← addSeconds now.val quoteTtlSeconds
  ResolvedMoney.construct {
    sourceAmountMinor := request.amount
    sourceCurrency := request.source
    targetAmountMinor := target
    targetCurrency := request.target
    rate := rate
    purpose := request.purpose
    source := "exact"
    path := s!"exact {request.source}<->{request.target} x{rate.text}"
    observedAt := now.val
    expiresAt := expiresAt } now.val

/-- `_needs_usdt_proxy`. -/
def needsUsdtProxy : Bool :=
  request.source = "USD" || request.target = "USD"

/-- The base currencies of the quotes against IRT that a conversion uses, in the order of their
fetches. -/
def bases : Result (List String) :=
  if request.source = request.target ∨ request.between "IRT" "IRR" then .ok []
  else if request.source = "IRR" then
    if request.target = "EUR" then .ok ["EUR"]
    else if request.target = "USD" then .ok ["USDT"]
    else raise .fxUnsupportedCurrency s!"no FX route for IRR->{request.target}"
  else if request.target = "IRR" then
    if request.source = "EUR" then .ok ["EUR"]
    else if request.source = "USD" then .ok ["USDT"]
    else raise .fxUnsupportedCurrency s!"no FX route for {request.source}->IRR"
  else if request.source ∉ ["IRT", "EUR", "USD"] ∨ request.target ∉ ["IRT", "EUR", "USD"] then
    raise .fxUnsupportedCurrency s!"no FX route for {request.source}->{request.target}"
  else if request.between "EUR" "IRT" then .ok ["EUR"]
  else if request.between "USD" "IRT" then .ok ["USDT"]
  else .ok ["EUR", "USDT"]

/-- The side of a market that the purpose is settled on. -/
def sideRate (quote : FxMarketQuote) : Decimal :=
  if request.purpose ≠ .liquidation then quote.buyRate else quote.sellRate

def side : String :=
  if request.purpose ≠ .liquidation then "buy" else "sell"

/-- What the path of a conversion says of the proxy. -/
def proxyNote (proxy : Bool) : String :=
  if proxy then " (proxy USDT for USD)" else ""

/-- The rate, the amount and the path of `_via_irt_anchor`. -/
def anchorAmounts (foreign leg : String) (quote : FxMarketQuote) :
    Result (Decimal × ℤ × String) :=
  if request.source = "IRR" then do
    let ten ← decimalMul (.ofNat 10) (request.sideRate quote)
    let rate ← decimalDiv (.ofNat 1) ten
    let major ← minorToMajor request.amount request.source
    let product ← decimalMul major rate
    let target ← majorToMinor product foreign request.purpose
    return (rate, target, s!"exact IRR->IRT /10; {leg}")
  else do
    let major ← minorToMajor request.amount request.source
    let rate ← decimalMul (request.sideRate quote) (.ofNat 10)
    let product ← decimalMul major rate
    let target ← majorToMinor product "IRR" request.purpose
    return (rate, target, s!"{leg}; exact IRT->IRR x10")

/-- `_via_irt_anchor` of one foreign currency, EUR or USD with its proxy. -/
def viaIrtAnchor (foreign market : String) (proxy : Bool) (quote : FxMarketQuote) (now : ℤ) :
    Result ResolvedMoney := do
  let (rate, target, path) ←
    request.anchorAmounts foreign s!"{market}.{request.side}{proxyNote proxy}" quote
  ResolvedMoney.construct {
    sourceAmountMinor := request.amount
    sourceCurrency := request.source
    targetAmountMinor := target
    targetCurrency := request.target
    rate := rate
    purpose := request.purpose
    source := quote.source
    path := path
    observedAt := quote.observedAt
    expiresAt := quote.expiresAt
    stale := quote.expiresAt ≤ now
    proxy := proxy
    proxyAsset := if proxy then "USDT" else "" } now

/-- The rate and the amount of a conversion between IRT and a foreign currency. -/
def singleAmounts (foreign : String) (quote : FxMarketQuote) : Result (Decimal × ℤ) := do
  let major ← minorToMajor request.amount request.source
  if request.source = foreign ∧ request.target = "IRT" then
    let product ← decimalMul major (request.sideRate quote)
    let target ← majorToMinor product "IRT" request.purpose
    return (request.sideRate quote, target)
  else if request.source = "IRT" ∧ request.target = foreign then
    let rate ← decimalDiv (.ofNat 1) (request.sideRate quote)
    let product ← decimalMul major rate
    let target ← majorToMinor product foreign request.purpose
    return (rate, target)
  else raise .fxUnsupportedCurrency s!"no FX route for {request.source}->{request.target}"

/-- `_apply_single` of EUR, `_apply_single_proxy` of USD. -/
def applySingle (foreign : String) (proxy : Bool) (quote : FxMarketQuote) (now : ℤ) :
    Result ResolvedMoney := do
  let (rate, target) ← request.singleAmounts foreign quote
  ResolvedMoney.construct {
    sourceAmountMinor := request.amount
    sourceCurrency := request.source
    targetAmountMinor := target
    targetCurrency := request.target
    rate := rate
    purpose := request.purpose
    source := quote.source
    path := s!"{quote.sourceMarket}.{request.side}{proxyNote proxy}"
    observedAt := quote.observedAt
    expiresAt := quote.expiresAt
    stale := quote.expiresAt ≤ now
    proxy := proxy
    proxyAsset := if proxy then "USDT" else "" } now

/-- The rate of `_apply_cross`. -/
def crossRate (eurRate usdtRate : Decimal) : Result Decimal :=
  if request.source = "EUR" ∧ request.target = "USD" then decimalDiv eurRate usdtRate
  else if request.source = "USD" ∧ request.target = "EUR" then decimalDiv usdtRate eurRate
  else raise .fxUnsupportedCurrency s!"no FX route for {request.source}->{request.target}"

/-- `_apply_cross`. -/
def applyCross (eurIrt usdtIrt : FxMarketQuote) (now : ℤ) : Result ResolvedMoney := do
  let major ← minorToMajor request.amount request.source
  let rate ← request.crossRate (request.sideRate eurIrt) (request.sideRate usdtIrt)
  let product ← decimalMul major rate
  let target ← majorToMinor product request.target request.purpose
  ResolvedMoney.construct {
    sourceAmountMinor := request.amount
    sourceCurrency := request.source
    targetAmountMinor := target
    targetCurrency := request.target
    rate := rate
    purpose := request.purpose
    source := eurIrt.source
    path := s!"EURIRT.{request.side}/USDTIRT.{request.side} via IRT (proxy USDT for USD)"
    observedAt := min eurIrt.observedAt usdtIrt.observedAt
    expiresAt := min eurIrt.expiresAt usdtIrt.expiresAt
    stale := eurIrt.expiresAt ≤ now || usdtIrt.expiresAt ≤ now
    proxy := true
    proxyAsset := "USDT" } now

/-- What a conversion makes of its quotes. -/
def convert (used : List FxMarketQuote) (now : ℤ) : Result ResolvedMoney :=
  match used with
  | [quote] =>
    if request.source = "IRR" ∨ request.target = "IRR" then
      if request.needsUsdtProxy then request.viaIrtAnchor "USD" "USDTIRT" true quote now
      else request.viaIrtAnchor "EUR" "EURIRT" false quote now
    else if request.between "EUR" "IRT" then request.applySingle "EUR" false quote now
    else request.applySingle "USD" true quote now
  | [eurIrt, usdtIrt] => request.applyCross eurIrt usdtIrt now
  | _ => raise .fxUnsupportedCurrency s!"no FX route for {request.source}->{request.target}"

/-! ### What comes from the quotes -/

variable {request : FxRequest}

/-- The times of a conversion are the least of its quotes, and it is stale if one of them is. -/
structure FromQuotes (used : List FxMarketQuote) (resolved : ResolvedMoney) (now : ℤ) : Prop where
  observedAt : (used.map (·.observedAt)).min? = some resolved.observedAt
  expiresAt : (used.map (·.expiresAt)).min? = some resolved.expiresAt
  stale_iff : resolved.stale = true ↔ ∃ quote ∈ used, quote.expiresAt ≤ now

variable {quote : FxMarketQuote} {now : ℤ} {resolved : ResolvedMoney}

theorem fromQuotes_single {given resolved : ResolvedMoney} (h : given.construct now = .ok resolved)
    (hobserved : given.observedAt = quote.observedAt) (hexpires : given.expiresAt = quote.expiresAt)
    (hstale : given.stale = decide (quote.expiresAt ≤ now)) : FromQuotes [quote] resolved now := by
  obtain ⟨hobservedAt, hexpiresAt, hflag, -⟩ := ResolvedMoney.construct_eq_ok h
  constructor
  · rw [hobservedAt, hobserved]
    rfl
  · rw [hexpiresAt, hexpires]
    rfl
  · rw [hflag, hstale]
    simp

theorem viaIrtAnchor_eq_ok {foreign market : String} {proxy : Bool}
    (h : request.viaIrtAnchor foreign market proxy quote now = .ok resolved) :
    FromQuotes [quote] resolved now := by
  obtain ⟨amounts, -, h⟩ := bind_eq_ok.mp h
  exact fromQuotes_single h rfl rfl rfl

theorem applySingle_eq_ok {foreign : String} {proxy : Bool}
    (h : request.applySingle foreign proxy quote now = .ok resolved) :
    FromQuotes [quote] resolved now := by
  obtain ⟨amounts, -, h⟩ := bind_eq_ok.mp h
  exact fromQuotes_single h rfl rfl rfl

theorem applyCross_eq_ok {eurIrt usdtIrt : FxMarketQuote}
    (h : request.applyCross eurIrt usdtIrt now = .ok resolved) :
    FromQuotes [eurIrt, usdtIrt] resolved now := by
  obtain ⟨major, -, h⟩ := bind_eq_ok.mp h
  obtain ⟨rate, -, h⟩ := bind_eq_ok.mp h
  obtain ⟨product, -, h⟩ := bind_eq_ok.mp h
  obtain ⟨target, -, h⟩ := bind_eq_ok.mp h
  obtain ⟨hobservedAt, hexpiresAt, hflag, -⟩ := ResolvedMoney.construct_eq_ok h
  constructor
  · rw [hobservedAt]
    rfl
  · rw [hexpiresAt]
    rfl
  · rw [hflag]
    simp

/-- What a conversion takes over from its quotes. -/
theorem convert_provenance {used : List FxMarketQuote} (h : request.convert used now = .ok resolved) :
    FromQuotes used resolved now := by
  unfold convert at h
  split at h
  · split_ifs at h
    · exact viaIrtAnchor_eq_ok h
    · exact viaIrtAnchor_eq_ok h
    · exact applySingle_eq_ok h
    · exact applySingle_eq_ok h
  · exact applyCross_eq_ok h
  · exact absurd h raise_ne_ok

end FxRequest

end CloudPlatform.Fx
