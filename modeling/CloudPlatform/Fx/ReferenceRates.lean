import CloudPlatform.Fx.Ages
import CloudPlatform.Transition.Overlap

/-!
# The reference-rate resolver

`GlobalFiatFxResolver` answers `get_rate` and `get_catalog_rate` from its cache, from a live source, or
from a cached rate that is stale but bounded. Its calls overlap on one event loop, with a lock for each
key and two tables of short-lived memos. Time passes where a call waits: the readings of the clock in
one stretch are one instant. What the cache and the source answer is part of the run.
-/

namespace CloudPlatform.Fx

open Billing.Usage (addSeconds)
open ConversionSnapshot (isFxError normalizeCurrency_idem)
open Decimals
open Operations (lower)
open Transition (Calls Overlap)

/-- `GlobalFiatFxConfig`, as far as rates depend on it, with its default for the catalog. -/
structure GlobalFiatFxConfig where
  enabled : Bool
  quoteTtlSeconds : ℤ
  maxStaleSeconds : ℤ
  catalogMaxStaleSeconds : ℤ
  ttl_pos : 0 < quoteTtlSeconds
  ttl_le_max : quoteTtlSeconds ≤ maxStaleSeconds
  ttl_le_catalog : quoteTtlSeconds ≤ catalogMaxStaleSeconds
  catalog_le_max : catalogMaxStaleSeconds ≤ maxStaleSeconds

namespace GlobalFiatFxConfig

/-- The settings that `__post_init__` accepts. -/
def postInit (enabled : Bool) (catalogCurrency : String) (quoteTtlSeconds maxStaleSeconds : ℤ)
    (catalogMaxStaleSeconds : Option ℤ) : Result GlobalFiatFxConfig := do
  let currency ← normalizeCurrency catalogCurrency
  rejectIf (currency ∉ globalFiatCurrencies) .valueError
    "catalog_currency must be an audited global fiat currency"
  let catalogStale := catalogMaxStaleSeconds.getD maxStaleSeconds
  if ttl_pos : 0 < quoteTtlSeconds then
    if ttl_le_max : quoteTtlSeconds ≤ maxStaleSeconds then
      if ttl_le_catalog : quoteTtlSeconds ≤ catalogStale then
        if catalog_le_max : catalogStale ≤ maxStaleSeconds then
          return ⟨enabled, quoteTtlSeconds, maxStaleSeconds, catalogStale, ttl_pos, ttl_le_max,
            ttl_le_catalog, catalog_le_max⟩
        else raise .valueError "catalog_max_stale_seconds must be <= max_stale_seconds"
      else raise .valueError "catalog_max_stale_seconds must be >= quote_ttl_seconds"
    else raise .valueError "max_stale_seconds must be >= quote_ttl_seconds"
  else raise .valueError "quote_ttl_seconds must be > 0"

end GlobalFiatFxConfig

/-- A call of the resolver. -/
inductive RateQuery
  | getRate (baseCurrency quoteCurrency : String) (allowCatalogStale : Bool)
  | getCatalogRate (baseCurrency quoteCurrency : String) (minRemainingLifetimeSeconds : ℤ)

namespace RateQuery

def baseCurrency : RateQuery → String
  | .getRate base _ _ => base
  | .getCatalogRate base _ _ => base

def quoteCurrency : RateQuery → String
  | .getRate _ quote _ => quote
  | .getCatalogRate _ quote _ => quote

/-- `allow_catalog_stale`, as `_resolve` gets it. -/
def allowCatalogStale : RateQuery → Bool
  | .getRate _ _ allow => allow
  | .getCatalogRate _ _ _ => true

/-- `min_remaining_lifetime_seconds`, as `_resolve` gets it. -/
def horizon : RateQuery → ℤ
  | .getRate _ _ _ => 0
  | .getCatalogRate _ _ seconds => seconds

end RateQuery

/-- A call whose arguments `_resolve` has accepted, with its currencies. -/
structure RateRequest where
  query : RateQuery
  base : String
  quote : String
  base_normal : normalizeCurrency query.baseCurrency = .ok base
  quote_normal : normalizeCurrency query.quoteCurrency = .ok quote
  base_mem : base ∈ globalFiatCurrencies
  quote_mem : quote ∈ globalFiatCurrencies
  horizon_nonneg : 0 ≤ query.horizon

/-- The arguments' checks in `_resolve`. -/
def RateQuery.accept (query : RateQuery) : Result RateRequest :=
  if horizon_nonneg : 0 ≤ query.horizon then
    match base_normal : normalizeCurrency query.baseCurrency with
    | .error raised => .error raised
    | .ok base =>
      match quote_normal : normalizeCurrency query.quoteCurrency with
      | .error raised => .error raised
      | .ok quote =>
        if h : base ∈ globalFiatCurrencies ∧ quote ∈ globalFiatCurrencies then
          .ok ⟨query, base, quote, base_normal, quote_normal, h.1, h.2, horizon_nonneg⟩
        else raise .fxUnsupportedCurrency s!"no global fiat reference route for {base}->{quote}"
  else raise .valueError "min_remaining_lifetime_seconds must be a non-negative integer"

/-- `{base}/{quote}`. -/
def RateRequest.market (request : RateRequest) : String :=
  s!"{request.base}/{request.quote}"

/-- `reference_rate_cache_key`. -/
def referenceRateCacheKey (baseCurrency quoteCurrency source : String) : String :=
  let family := (lower (strip (if source = "" then "global" else source))).replace " " "-"
  let pair := s!"{upper (strip baseCurrency)}->{upper (strip quoteCurrency)}"
  s!"reference:v2:{family}:{pair}"

/-- What the live source answers. -/
inductive SourceAnswer
  | quote (quote : FxReferenceQuote)
  | nonQuote
  | raised (raised : Raised)

/-- The resolver without its memory: its policy and the name of its source. -/
structure GlobalFiatFxResolver where
  config : GlobalFiatFxConfig
  sourceName : String

/-- The locks, with the calls that hold them, and the memos of the resolver. -/
structure RateMemory where
  locks : String → Option ℕ := fun _ ↦ none
  staleFallbackUntil : String → Option ℤ := fun _ ↦ none
  failureMemoUntil : String → Option ℤ := fun _ ↦ none

/-- Where a call stands: what it waits for, or how it has ended. -/
inductive RateCall
  | reading (request : RateRequest)
  | queued (request : RateRequest)
  | rereading (request : RateRequest)
  | fetching (request : RateRequest) (cached : Option FxReferenceQuote)
  | writing (request : RateRequest) (fresh : FxReferenceQuote) (stale : Bool)
  | returned (request : RateRequest) (resolution : ReferenceRateResolution) (instant : ℤ)
  | raised (raised : Raised)
  | cancelled

/-- What a waiting call is woken with; the cache's answer is `none` where it raises or holds anything
else than a quote. -/
inductive RateAnswer
  | cached (found : Option FxReferenceQuote) (now : Instant)
  | acquired
  | fetched (answer : SourceAnswer) (now : Instant)
  | put (now : Instant)
  | cancel

/-- A memo that has not run out. -/
def memoHolds (until? : Option ℤ) (now : ℤ) : Bool :=
  until?.any fun until_ ↦ now < until_

namespace GlobalFiatFxResolver

variable (resolver : GlobalFiatFxResolver)

/-- `_age_seconds`. -/
def ageSeconds (quote : FxReferenceQuote) (now : ℤ) : Result Decimal := do
  let seconds ← secondsOf (now - quote.observedAt)
  return if 0 < seconds.toRat then seconds else .ofNat 0

/-- `catalog_stale_limit`. -/
def catalogStaleLimit : ℤ :=
  if resolver.config.catalogMaxStaleSeconds = 0 then resolver.config.maxStaleSeconds
  else resolver.config.catalogMaxStaleSeconds

/-- `_catalog_valid_until`. -/
def catalogValidUntil (quote : FxReferenceQuote) (stale : Bool) : Result ℤ :=
  if stale then addSeconds quote.observedAt resolver.catalogStaleLimit else .ok quote.expiresAt

/-- `_fresh_covers_horizon`. -/
def freshCoversHorizon (quote : FxReferenceQuote) (now horizon : ℤ) : Result Bool :=
  if quote.expiresAt ≤ now then .ok false
  else do
    let age ← ageSeconds quote now
    if resolver.catalogStaleLimit < age.toRat then return false
    else if resolver.config.quoteTtlSeconds < age.toRat then return false
    else
      let validUntil ← resolver.catalogValidUntil quote false
      let length ← timedelta horizon
      return length ≤ validUntil - now

/-- `_stale_covers_horizon`. -/
def staleCoversHorizon (quote : FxReferenceQuote) (now horizon : ℤ) : Result Bool := do
  let age ← ageSeconds quote now
  if resolver.catalogStaleLimit < age.toRat then return false
  else
    let validUntil ← resolver.catalogValidUntil quote true
    let length ← timedelta horizon
    return length ≤ validUntil - now

/-- `_validate`, of a quote. -/
def validate (quote : FxReferenceQuote) (base target : String) (now : ℤ) : Result Unit := do
  rejectIf (quote.baseCurrency ≠ base || quote.quoteCurrency ≠ target) .fxInvalidQuote
    s!"reference source returned {quote.baseCurrency}->{quote.quoteCurrency}, expected {base}->{target}"
  rejectIf (lower (strip resolver.sourceName) ≠ "frankfurter") .fxInvalidQuote
    "global catalog FX source must be Frankfurter"
  rejectIf (!quote.rate.positive) .fxInvalidQuote
    "reference rate must be a positive finite Decimal"
  rejectIf (now < quote.observedAt) .fxInvalidQuote
    "reference quote observation is in the future"
  rejectIf (quote.expiresAt ≤ quote.observedAt) .fxInvalidQuote
    "reference quote expiry must follow observation"

/-- `_safe_cache_get`, from the quote that the cache holds. -/
def safeCacheGet (request : RateRequest) (found : Option FxReferenceQuote) (now : ℤ) :
    Option FxReferenceQuote :=
  found.filter fun cached ↦
    cached.baseCurrency = request.base && cached.quoteCurrency = request.quote &&
      lower (strip resolver.sourceName) = "frankfurter" &&
      casefold (strip cached.source) = casefold (strip resolver.sourceName) &&
      upper (strip cached.sourceMarket) = request.market &&
      (resolver.validate cached request.base request.quote now).isOk

theorem strip_market_ne (request : RateRequest) : strip request.market ≠ "" := by
  intro hempty
  have hspace := isSpace_of_strip_eq_empty hempty '/' (by simp [RateRequest.market, toString])
  exact absurd hspace (by decide)

/-- `_identity`. -/
def identity (request : RateRequest) (now : Instant) : Result ReferenceRateResolution :=
  match expiry : addSeconds now.val resolver.config.quoteTtlSeconds with
  | .error raised => .error raised
  | .ok expiresAt => .ok {
      quote := {
        baseCurrency := request.base
        quoteCurrency := request.quote
        rate := .ofNat 1
        source := "identity"
        sourceMarket := request.market
        providerDate := Calendar.midnight (Calendar.dayOf now.val)
        observedAt := now.val
        expiresAt := expiresAt
        constructedAt := now.val
        base_normal := normalizeCurrency_idem request.base_normal
        quote_normal := normalizeCurrency_idem request.quote_normal
        rate_pos := by decide
        source_ne := by decide +kernel
        market_ne := strip_market_ne request
        published := (Calendar.dayOf_midnight _).le
        observed := le_refl _
        lives := lt_of_addSeconds resolver.config.ttl_pos now expiry
        providerDate_range := midnight_range now
        observedAt_range := now.property
        expiresAt_range := (addSeconds_eq_ok now.property expiry).2 } }

/-! ### Stretches -/

/-- What a cached quote can answer; `none` where the call goes on. -/
def answerFromQuote (memory : RateMemory) (request : RateRequest) (key : String)
    (cached : FxReferenceQuote) (now : ℤ) : Result (Option ReferenceRateResolution) := do
  let fresh ← resolver.freshCoversHorizon cached now request.query.horizon
  if fresh then return some { quote := cached }
  else if request.query.allowCatalogStale && memoHolds (memory.staleFallbackUntil key) now then
    let covers ← resolver.staleCoversHorizon cached now request.query.horizon
    return if covers then some { quote := cached, stale := true } else none
  else return none

/-- The checks that come before the lock and again under it. -/
def answerFromCache (memory : RateMemory) (request : RateRequest) (key : String)
    (cached : Option FxReferenceQuote) (now : ℤ) : Result (Option ReferenceRateResolution) := do
  let found ← match cached with
    | none => .ok none
    | some cached => resolver.answerFromQuote memory request key cached now
  rejectIf (found.isNone && request.query.allowCatalogStale &&
      memoHolds (memory.failureMemoUntil key) now) .fxUnavailable
    s!"global reference rate {request.market} is temporarily unavailable"
  return found

/-- The end of the handler of a failed fetch. -/
def reraise (request : RateRequest) (raised : Raised) : Result ReferenceRateResolution :=
  if isFxError raised.kind then .error raised
  else raise .fxUnavailable s!"global reference rate {request.market} is unavailable"

/-- The handler of a failed fetch. -/
def fetchFailed (memory : RateMemory) (request : RateRequest) (key : String)
    (cached : Option FxReferenceQuote) (raised : Raised) (now : ℤ) :
    RateMemory × Result ReferenceRateResolution :=
  match addSeconds now 30 with
  | .error overflow => (memory, .error overflow)
  | .ok memoUntil =>
    let failed : RateMemory := { memory with
      failureMemoUntil := Function.update memory.failureMemoUntil key (some memoUntil) }
    match cached with
    | none => (failed, reraise request raised)
    | some cached =>
      match ageSeconds cached now with
      | .error signal => (failed, .error signal)
      | .ok age =>
        if age.toRat ≤ resolver.catalogStaleLimit then
          ({ failed with
              staleFallbackUntil := Function.update memory.staleFallbackUntil key (some memoUntil) },
            if request.query.allowCatalogStale then do
              let covers ← resolver.staleCoversHorizon cached now request.query.horizon
              rejectIf (!covers) .fxStale
                "global reference rate stale fallback cannot cover the catalog publication horizon"
              return { quote := cached, stale := true }
            else reraise request raised)
        else (failed, reraise request raised)

/-- A live quote that cannot be returned as fresh: whether it is to be returned as stale. -/
def staleOnly (request : RateRequest) (fresh : FxReferenceQuote) (now : ℤ) (message : String) :
    Result Bool := do
  rejectIf (!request.query.allowCatalogStale) .fxStale message
  let covers ← resolver.staleCoversHorizon fresh now request.query.horizon
  rejectIf (!covers) .fxStale message
  return true

/-- The checks of a live quote; the result is the flag `stale` that it is returned with. -/
def judgeFresh (request : RateRequest) (fresh : FxReferenceQuote) (now : ℤ) : Result Bool := do
  resolver.validate fresh request.base request.quote now
  rejectIf (casefold (strip fresh.source) ≠ casefold (strip resolver.sourceName)) .fxInvalidQuote
    "reference source provenance mismatch"
  rejectIf (upper (strip fresh.sourceMarket) ≠ request.market) .fxInvalidQuote
    "reference market provenance mismatch"
  let age ← ageSeconds fresh now
  if fresh.expiresAt ≤ now then
    resolver.staleOnly request fresh now "global reference rate is expired"
  else
    rejectIf (resolver.catalogStaleLimit < age.toRat) .fxStale
      "global reference rate exceeded the live freshness limit"
    if resolver.config.quoteTtlSeconds < age.toRat then
      resolver.staleOnly request fresh now
        "global reference rate exceeded the configured quote TTL"
    else
      let covers ← resolver.freshCoversHorizon fresh now request.query.horizon
      if covers then return false
      else
        resolver.staleOnly request fresh now
          "global reference rate cannot cover the catalog publication horizon"

/-- The key of a request, for the cache, the locks and the memos. -/
def key (request : RateRequest) : String :=
  referenceRateCacheKey request.base request.quote resolver.sourceName

/-- A call that has ended. -/
def ended (request : RateRequest) (outcome : Result ReferenceRateResolution) (now : ℤ) : RateCall :=
  match outcome with
  | .ok resolution => .returned request resolution now
  | .error raised => .raised raised

/-- `_resolve` up to the first read of the cache. -/
def begin (query : RateQuery) (now : Instant) : RateCall :=
  match query.accept with
  | .error raised => .raised raised
  | .ok request =>
    if request.base = request.quote then ended request (resolver.identity request now) now
    else if !resolver.config.enabled then
      .raised ⟨.fxUnavailable, "global fiat FX is disabled by configuration"⟩
    else if lower (strip resolver.sourceName) ≠ "frankfurter" then
      .raised ⟨.fxInvalidQuote, "global catalog FX source must be Frankfurter"⟩
    else .reading request

end GlobalFiatFxResolver

namespace RateMemory

variable (memory : RateMemory) (key : String)

def release : RateMemory :=
  { memory with locks := Function.update memory.locks key none }

/-- A quote was fetched: no memo of a failure is left. -/
def recovered : RateMemory :=
  { memory with
    staleFallbackUntil := Function.update memory.staleFallbackUntil key none
    failureMemoUntil := Function.update memory.failureMemoUntil key none }

end RateMemory

namespace GlobalFiatFxResolver

variable (resolver : GlobalFiatFxResolver)

/-- `_resolve` from one suspension to the next. A call that is not waiting for the answer goes on
waiting. -/
def resume (memory : RateMemory) (call : ℕ) (status : RateCall) (answer : RateAnswer) :
    RateMemory × RateCall :=
  match status, answer with
  | .reading request, .cached found now =>
    let cached := resolver.safeCacheGet request found now
    match resolver.answerFromCache memory request (resolver.key request) cached now with
    | .ok (some resolution) => (memory, .returned request resolution now)
    | .ok none => (memory, .queued request)
    | .error raised => (memory, .raised raised)
  | .queued request, .acquired =>
    if memory.locks (resolver.key request) = none then
      ({ memory with locks := Function.update memory.locks (resolver.key request) (some call) },
        .rereading request)
    else (memory, .queued request)
  | .rereading request, .cached found now =>
    let cached := resolver.safeCacheGet request found now
    match resolver.answerFromCache memory request (resolver.key request) cached now with
    | .ok (some resolution) =>
      (memory.release (resolver.key request), .returned request resolution now)
    | .ok none => (memory, .fetching request cached)
    | .error raised => (memory.release (resolver.key request), .raised raised)
  | .fetching request cached, .fetched (.raised raised) now =>
    -- a malformed answer is no outage
    if raised.kind = .fxInvalidQuote then
      (memory.release (resolver.key request), .raised raised)
    else
      let failed := resolver.fetchFailed memory request (resolver.key request) cached raised now
      (failed.1.release (resolver.key request), ended request failed.2 now)
  | .fetching request _, .fetched .nonQuote _ =>
    (memory.release (resolver.key request),
      .raised ⟨.fxInvalidQuote, "global reference cache/provider returned a non-quote"⟩)
  | .fetching request _, .fetched (.quote fresh) now =>
    match resolver.judgeFresh request fresh now with
    | .ok stale => (memory, .writing request fresh stale)
    | .error raised => (memory.release (resolver.key request), .raised raised)
  | .writing request fresh stale, .put now =>
    ((memory.recovered (resolver.key request)).release (resolver.key request),
      .returned request { quote := fresh, stale := stale } now)
  | .reading _, .cancel => (memory, .cancelled)
  | .queued _, .cancel => (memory, .cancelled)
  | .rereading request, .cancel => (memory.release (resolver.key request), .cancelled)
  | .fetching request _, .cancel => (memory.release (resolver.key request), .cancelled)
  | .writing request _ _, .cancel => (memory.release (resolver.key request), .cancelled)
  | status, _ => (memory, status)

/-- The calls of one resolver. -/
def calls : Calls RateMemory RateCall (RateQuery × Instant) RateAnswer where
  start memory _ asked := (memory, resolver.begin asked.1 asked.2)
  resume := resolver.resume

/-- The resolver before its first call. -/
def initial : Overlap RateMemory RateCall where
  memory := {}

end GlobalFiatFxResolver

end CloudPlatform.Fx
