import CloudPlatform.Fx.Conversions
import CloudPlatform.Transition.Overlap

/-!
# The market-rate resolver

`FxResolver` gets each quote of a conversion from its cache, from a live source under the lock of the
market, or from the cached quote that it saw before the lock. Calls of `resolve` overlap on one event
loop; a cross rate waits for its two quotes one after the other. Time passes where a call waits: the
readings of the clock in one stretch are one instant. What the cache and the source answer is part of
the run.
-/

namespace CloudPlatform.Fx

open ConversionSnapshot (isFxError)
open Decimals
open Operations (lower)
open Transition (Calls Overlap)

/-- `FxConfig`, as far as conversions depend on it. -/
structure FxConfig where
  enabled : Bool
  quoteTtlSeconds : ℤ
  maxStaleSeconds : ℤ
  chargeMaxStaleSeconds : ℤ
  allowUsdtProxyForDisplay : Bool
  allowUsdtProxyForSettlement : Bool
  ttl_pos : 0 < quoteTtlSeconds
  ttl_le_max : quoteTtlSeconds ≤ maxStaleSeconds
  charge_pos : enabled = true → 0 < chargeMaxStaleSeconds
  charge_le_max : chargeMaxStaleSeconds ≤ maxStaleSeconds

/-- `fx_cache_key`. -/
def fxCacheKey (baseCurrency quoteCurrency source : String) : String :=
  let family := (lower (strip (if source = "" then "domestic" else source))).replace " " "-"
  let pair := s!"{upper (strip baseCurrency)}->{upper (strip quoteCurrency)}"
  s!"market:v2:{family}:{pair}"

/-- The argument checks of `resolve`. -/
def FxQuery.accept (query : FxQuery) : Result FxRequest :=
  if amount_nonneg : 0 ≤ query.amountMinor then
    match source_normal : normalizeCurrency query.sourceCurrency with
    | .error raised => .error raised
    | .ok source =>
      match target_normal : normalizeCurrency query.targetCurrency with
      | .error raised => .error raised
      | .ok target =>
        if source ∈ supportedCurrencies ∧ target ∈ supportedCurrencies then
          .ok ⟨query, source, target, source_normal, target_normal, amount_nonneg⟩
        else raise .fxUnsupportedCurrency s!"unsupported FX currency pair {source}->{target}"
  else raise .valueError "amount_minor must be >= 0"

/-- What a cache holds under a key. -/
inductive CacheAnswer
  | quote (quote : FxMarketQuote)
  | missing
  | nonQuote
  | raised

/-- What the live source answers. -/
inductive MarketAnswer
  | quote (quote : FxMarketQuote)
  | nonQuote
  | raised (raised : Raised)

/-- The fetch of one quote in a call: the quotes that the call has, the base currency that it waits for,
and the ones it needs after that. -/
structure Leg where
  request : FxRequest
  used : List FxMarketQuote
  base : String
  later : List String

/-- Where a call stands: what it waits for, or how it has ended. The quote before the lock is kept for
the fallback. -/
inductive FxCall
  | reading (leg : Leg) (legacy : Bool)
  | queued (leg : Leg) (cached : Option FxMarketQuote)
  | rereading (leg : Leg) (legacy : Bool) (cached : Option FxMarketQuote)
  | fetching (leg : Leg) (cached : Option FxMarketQuote)
  | writing (leg : Leg) (fresh : FxMarketQuote)
  | returned (request : FxRequest) (used : List FxMarketQuote) (resolved : ResolvedMoney)
    (instant : ℤ)
  | raised (raised : Raised)
  | cancelled

/-- What a waiting call is woken with. -/
inductive FxAnswer
  | cached (found : CacheAnswer) (now : Instant)
  | acquired
  | fetched (answer : MarketAnswer) (now : Instant)
  | put (now : Instant)
  | cancel

/-- What a stretch of `_quote` comes to. -/
inductive QuoteOutcome
  | waits (status : FxCall)
  | supplied (leg : Leg) (quote : FxMarketQuote) (now : ℤ)
  | raised (raised : Raised)
  | cancelled

/-- The locks of the markets, with the calls that hold them. -/
abbrev MarketLocks := String → Option ℕ

/-- The resolver without its memory: its policy and the name of its source. -/
structure FxResolver where
  config : FxConfig
  sourceName : String

namespace FxResolver

variable (resolver : FxResolver)

/-- `_proxy_allowed`. -/
def proxyAllowed (purpose : FxPurpose) : Bool :=
  if purpose = .display then resolver.config.allowUsdtProxyForDisplay
  else resolver.config.allowUsdtProxyForSettlement

/-- `_require_proxy`. -/
def requireProxy (request : FxRequest) : Result Unit :=
  rejectIf (request.needsUsdtProxy && !resolver.proxyAllowed request.purpose) .fxProxyNotAllowed
    s!"USD conversion requires the USDT proxy, which is disabled for purpose {request.purpose.value}"

/-- `_stale_limit`. -/
def staleLimit (purpose : FxPurpose) : ℤ :=
  if purpose = .display then resolver.config.maxStaleSeconds
  else resolver.config.chargeMaxStaleSeconds

/-- `_age`. -/
def age (quote : FxMarketQuote) (now : ℤ) : Result Decimal :=
  secondsOf (max (now - quote.observedAt) 0)

/-- `_source_matches`: the names are the same, up to the suffix of a test adapter. -/
def sourceMatches (observed expected : String) : Bool :=
  observed = expected || observed ++ "-test" = expected

/-- `_validate_quote`, of a quote. -/
def validateQuote (quote : FxMarketQuote) (base marketQuote : String) : Result Unit := do
  rejectIf (quote.baseCurrency ≠ base || quote.quoteCurrency ≠ marketQuote) .fxInvalidQuote
    s!"rate source returned {quote.baseCurrency}->{quote.quoteCurrency}, expected {base}->{marketQuote}"
  let expected := if base = "USD" ∧ marketQuote = "IRT" then "USDTIRT" else base ++ marketQuote
  rejectIf (upper (strip quote.sourceMarket) ≠ expected) .fxInvalidQuote
    "rate source market does not match requested pair"

/-- `_safe_cache_get`, from what the cache holds. -/
def safeCacheGet (base : String) : CacheAnswer → Option FxMarketQuote
  | .quote cached =>
    if (validateQuote cached base "IRT").isOk && sourceMatches cached.source resolver.sourceName then
      some cached
    else none
  | _ => none

/-- A cached quote may be used without a fetch. -/
def usable (purpose : FxPurpose) (quote : FxMarketQuote) (now : ℤ) : Result Bool :=
  if now < quote.expiresAt then do
    let age ← age quote now
    return age.toRat ≤ resolver.staleLimit purpose && age.toRat ≤ resolver.config.quoteTtlSeconds
  else .ok false

/-- The key of a market, for the cache and the locks. -/
def key (base : String) : String :=
  fxCacheKey base "IRT" resolver.sourceName

/-- The end of `_fallback_or_raise`. -/
def reraise (base : String) (raised : Raised) : Result FxMarketQuote :=
  if isFxError raised.kind then .error raised
  else raise .fxUnavailable s!"FX market {resolver.key base} is unavailable"

/-- `_fallback_or_raise`. -/
def fallbackOrRaise (leg : Leg) (cached : Option FxMarketQuote) (raised : Raised) (now : ℤ) :
    Result FxMarketQuote :=
  match cached with
  | none => resolver.reraise leg.base raised
  | some cached => do
    let age ← age cached now
    if age.toRat ≤ resolver.staleLimit leg.request.purpose then return cached
    else resolver.reraise leg.base raised

/-- The checks of a live quote: a quote of another market or source is refused, and one that is too old
comes with the error that the fallback is to raise. -/
def judgeFresh (leg : Leg) (fresh : FxMarketQuote) (now : ℤ) : Result (Option Raised) := do
  validateQuote fresh leg.base "IRT"
  rejectIf (!sourceMatches fresh.source resolver.sourceName) .fxInvalidQuote
    "rate source provenance mismatch"
  if fresh.expiresAt ≤ now then return some ⟨.fxStale, "market quote is expired"⟩
  else
    let age ← age fresh now
    if resolver.staleLimit leg.request.purpose < age.toRat then
      return some ⟨.fxStale, "market quote exceeded the live freshness limit"⟩
    else if resolver.config.quoteTtlSeconds < age.toRat then
      return some ⟨.fxStale, "market quote exceeded the configured quote TTL"⟩
    else return none

/-- A quote that `_quote` returns, or the exception that it raises. -/
def supply (leg : Leg) (now : ℤ) : Result FxMarketQuote → QuoteOutcome
  | .ok quote => .supplied leg quote now
  | .error raised => .raised raised

/-- A cached quote is used, or the call goes on to the given state. -/
def useOr (leg : Leg) (cached : Option FxMarketQuote) (now : ℤ) (next : FxCall) : QuoteOutcome :=
  match cached with
  | none => .waits next
  | some cached =>
    match resolver.usable leg.request.purpose cached now with
    | .ok true => .supplied leg cached now
    | .ok false => .waits next
    | .error raised => .raised raised

/-- `_quote` from one suspension to the next. A call that is not waiting for the answer goes on
waiting. -/
def quoteStretch (locks : MarketLocks) (status : FxCall) (answer : FxAnswer) : QuoteOutcome :=
  match status, answer with
  | .reading leg false, .cached .missing _ => .waits (.reading leg true)
  | .reading leg _, .cached found now =>
    let cached := resolver.safeCacheGet leg.base found
    resolver.useOr leg cached now (.queued leg cached)
  | .queued leg cached, .acquired =>
    if locks (resolver.key leg.base) = none then .waits (.rereading leg false cached)
    else .waits (.queued leg cached)
  | .rereading leg false cached, .cached .missing _ => .waits (.rereading leg true cached)
  | .rereading leg _ cached, .cached found now =>
    resolver.useOr leg (resolver.safeCacheGet leg.base found) now (.fetching leg cached)
  | .fetching leg cached, .fetched (.raised raised) now =>
    -- a malformed answer is no outage
    if raised.kind = .fxInvalidQuote then .raised raised
    else supply leg now (resolver.fallbackOrRaise leg cached raised now)
  | .fetching _ _, .fetched .nonQuote _ =>
    .raised ⟨.fxInvalidQuote, "rate source returned a non-quote"⟩
  | .fetching leg cached, .fetched (.quote fresh) now =>
    match resolver.judgeFresh leg fresh now with
    | .ok none => .waits (.writing leg fresh)
    | .ok (some raised) => supply leg now (resolver.fallbackOrRaise leg cached raised now)
    | .error raised => .raised raised
  | .writing leg fresh, .put now => .supplied leg fresh now
  | .reading _ _, .cancel => .cancelled
  | .queued _ _, .cancel => .cancelled
  | .rereading _ _ _, .cancel => .cancelled
  | .fetching _ _, .cancel => .cancelled
  | .writing _ _, .cancel => .cancelled
  | status, _ => .waits status

/-- The locks after a stretch of a call: a call that gets into the lock holds it until its `_quote`
ends. -/
def locksAfter (locks : MarketLocks) (call : ℕ) : FxCall → QuoteOutcome → MarketLocks
  | .queued leg _, .waits (.rereading _ _ _) =>
    Function.update locks (resolver.key leg.base) (some call)
  | .rereading _ _ _, .waits _ => locks
  | .fetching _ _, .waits _ => locks
  | .writing _ _, .waits _ => locks
  | .rereading leg _ _, _ => Function.update locks (resolver.key leg.base) none
  | .fetching leg _, _ => Function.update locks (resolver.key leg.base) none
  | .writing leg _, _ => Function.update locks (resolver.key leg.base) none
  | _, _ => locks

/-- A call that has ended. -/
def ended (request : FxRequest) (used : List FxMarketQuote) (outcome : Result ResolvedMoney)
    (now : ℤ) : FxCall :=
  match outcome with
  | .ok resolved => .returned request used resolved now
  | .error raised => .raised raised

/-- The caller of `_quote`: the next quote is asked for, or the conversion made. -/
def carryOn : QuoteOutcome → FxCall
  | .waits status => status
  | .supplied leg quote now =>
    match leg.later with
    | [] =>
      ended leg.request (leg.used ++ [quote]) (leg.request.convert (leg.used ++ [quote]) now) now
    | base :: later => .reading ⟨leg.request, leg.used ++ [quote], base, later⟩ false
  | .raised raised => .raised raised
  | .cancelled => .cancelled

/-- `resolve` up to the first read of the cache. -/
def begin (query : FxQuery) (now : Instant) : FxCall :=
  match query.accept with
  | .error raised => .raised raised
  | .ok request =>
    if !resolver.config.enabled then
      .raised ⟨.fxUnavailable, "FX resolution is disabled by configuration"⟩
    else if request.source = request.target then
      ended request [] (request.identity resolver.config.quoteTtlSeconds now) now
    else if request.between "IRT" "IRR" then
      ended request [] (request.exactIrtIrr resolver.config.quoteTtlSeconds now) now
    else
      match resolver.requireProxy request with
      | .error raised => .raised raised
      | .ok () =>
        match request.bases with
        | .error raised => .raised raised
        | .ok [] => .raised ⟨.fxUnsupportedCurrency, "no FX route"⟩
        | .ok (base :: later) => .reading ⟨request, [], base, later⟩ false

/-- `resolve` from one suspension to the next. -/
def resume (locks : MarketLocks) (call : ℕ) (status : FxCall) (answer : FxAnswer) :
    MarketLocks × FxCall :=
  let outcome := resolver.quoteStretch locks status answer
  (resolver.locksAfter locks call status outcome, carryOn outcome)

/-- The calls of one resolver. -/
def calls : Calls MarketLocks FxCall (FxQuery × Instant) FxAnswer where
  start locks _ asked := (locks, resolver.begin asked.1 asked.2)
  resume := resolver.resume

/-- The resolver before its first call. -/
def initial : Overlap MarketLocks FxCall where
  memory := fun _ ↦ none

end FxResolver

end CloudPlatform.Fx
