import CloudPlatform.Fx.ReferenceRates

/-!
# Horizons of reference rates

A rate that is returned for a horizon is to last for it: a fresh one until it expires, a stale one until
the catalog's stale limit. Two things can shorten it: the rate between equal currencies has the length
of a quote's lifetime whatever the horizon, and a live quote is judged before it is written to the cache,
which takes time. `rates_cover_horizon` says that nothing else can.
-/

namespace CloudPlatform.Fx

open Billing.Usage (addSeconds addSeconds_eq)
open Calendar (InRange second)
open Decimals
open Operations (lower)
open Transition (Along Overlap Throughout throughout_iff_forall_take)

namespace GlobalFiatFxResolver

section Statement

variable (resolver : GlobalFiatFxResolver)

/-- What is returned at an instant has the requested pair and source, and lasts for the horizon. -/
structure Covers (request : RateRequest) (resolution : ReferenceRateResolution) (instant : ℤ) :
    Prop where
  base_eq : resolution.quote.baseCurrency = request.base
  quote_eq : resolution.quote.quoteCurrency = request.quote
  source_eq : request.base ≠ request.quote →
    casefold (strip resolution.quote.source) = casefold (strip resolver.sourceName)
  fresh : resolution.stale = false → instant < resolution.quote.expiresAt ∧
    instant - resolution.quote.observedAt ≤ resolver.config.quoteTtlSeconds * second ∧
      instant + request.query.horizon * second ≤ resolution.quote.expiresAt
  stale : resolution.stale = true → request.query.allowCatalogStale = true ∧
    instant + request.query.horizon * second ≤
      resolution.quote.observedAt + resolver.config.catalogMaxStaleSeconds * second
  identical : request.base = request.quote →
    instant + request.query.horizon * second ≤ resolution.quote.expiresAt

/-- A call that has returned, has returned such a rate. -/
def Answered : RateCall → Prop
  | .returned request resolution instant => resolver.Covers request resolution instant
  | _ => True

instance (request : RateRequest) (resolution : ReferenceRateResolution) (instant : ℤ) :
    Decidable (resolver.Covers request resolution instant) :=
  decidable_of_iff
    (resolution.quote.baseCurrency = request.base ∧ resolution.quote.quoteCurrency = request.quote ∧
      (request.base ≠ request.quote →
        casefold (strip resolution.quote.source) = casefold (strip resolver.sourceName)) ∧
      (resolution.stale = false → instant < resolution.quote.expiresAt ∧
        instant - resolution.quote.observedAt ≤ resolver.config.quoteTtlSeconds * second ∧
          instant + request.query.horizon * second ≤ resolution.quote.expiresAt) ∧
      (resolution.stale = true → request.query.allowCatalogStale = true ∧
        instant + request.query.horizon * second ≤
          resolution.quote.observedAt + resolver.config.catalogMaxStaleSeconds * second) ∧
      (request.base = request.quote →
        instant + request.query.horizon * second ≤ resolution.quote.expiresAt))
    ⟨fun ⟨hbase, hquote, hsource, hfresh, hstale, hidentical⟩ ↦
        ⟨hbase, hquote, hsource, hfresh, hstale, hidentical⟩,
      fun h ↦ ⟨h.base_eq, h.quote_eq, h.source_eq, h.fresh, h.stale, h.identical⟩⟩

instance : DecidablePred resolver.Answered
  | .returned request resolution instant =>
    inferInstanceAs (Decidable (resolver.Covers request resolution instant))
  | .reading _ | .queued _ | .rereading _ | .fetching _ _ | .writing _ _ _ | .raised _ | .cancelled =>
    inferInstanceAs (Decidable True)

/-- A call between equal currencies asks for no longer horizon than the lifetime of a quote. -/
def IdentityLasts (asked : RateQuery × Instant) : Prop :=
  ∀ request, asked.1.accept = .ok request → request.base = request.quote →
    InRange (asked.2.val + resolver.config.quoteTtlSeconds * second) →
      asked.1.horizon ≤ resolver.config.quoteTtlSeconds

/-- The last instant at which a live quote may be returned. -/
def deadline (request : RateRequest) (fresh : FxReferenceQuote) (stale : Bool) : ℤ :=
  if stale then fresh.observedAt + resolver.config.catalogMaxStaleSeconds * second -
    request.query.horizon * second
  else min (fresh.expiresAt - 1) (min
    (fresh.observedAt + resolver.config.quoteTtlSeconds * second)
    (fresh.expiresAt - request.query.horizon * second))

/-- The write of a live quote to the cache ends by the quote's deadline. -/
def WriteEnds : RateCall → RateAnswer → Prop
  | .writing request fresh stale, .put now => now.val ≤ resolver.deadline request fresh stale
  | _, _ => True

end Statement

/-! ### Ages -/

section Ages

theorem ageSeconds_eq (quote : FxReferenceQuote) (now : Instant) :
    ∃ age, ageSeconds quote now.val = .ok age ∧
      age.toRat = max 0 (((now.val - quote.observedAt : ℤ) : ℚ) / 1000000) := by
  obtain ⟨seconds, hseconds, hrat⟩ :=
    secondsOf_eq (numDigits_sub_le now.property quote.observedAt_range)
  refine ⟨_, by rw [ageSeconds, hseconds]; rfl, ?_⟩
  rw [apply_ite Decimal.toRat, hrat, Decimal.toRat_ofNat, Nat.cast_zero]
  by_cases hpos : (0 : ℚ) < ((now.val - quote.observedAt : ℤ) : ℚ) / 1000000
  · rw [if_pos hpos, max_eq_right hpos.le]
  · rw [if_neg hpos, max_eq_left (not_lt.mp hpos)]

/-- A number of seconds against an age. -/
theorem le_age_iff {limit elapsed : ℤ} (hlimit : 0 ≤ limit) :
    max 0 ((elapsed : ℚ) / 1000000) ≤ limit ↔ elapsed ≤ limit * second := by
  have hpos : (0 : ℚ) < 1000000 := by norm_num
  have hzero : (0 : ℚ) ≤ limit := by exact_mod_cast hlimit
  rw [max_le_iff, and_iff_right hzero, div_le_iff₀ hpos, second]
  norm_cast

end Ages

section Judgements

variable {resolver : GlobalFiatFxResolver} {quote : FxReferenceQuote} {now : Instant} {horizon : ℤ}

theorem catalogStaleLimit_eq (resolver : GlobalFiatFxResolver) :
    resolver.catalogStaleLimit = resolver.config.catalogMaxStaleSeconds := by
  have hpos := resolver.config.ttl_pos.trans_le resolver.config.ttl_le_catalog
  exact if_neg hpos.ne'

/-- What `_fresh_covers_horizon` promises. -/
theorem freshCoversHorizon_true (h : resolver.freshCoversHorizon quote now.val horizon = .ok true) :
    now.val < quote.expiresAt ∧
      now.val - quote.observedAt ≤ resolver.config.quoteTtlSeconds * second ∧
        now.val + horizon * second ≤ quote.expiresAt := by
  obtain ⟨age, hage, hrat⟩ := ageSeconds_eq quote now
  rw [freshCoversHorizon] at h
  by_cases hexpired : quote.expiresAt ≤ now.val
  · rw [if_pos hexpired] at h
    cases h
  rw [if_neg hexpired, hage, ok_bind] at h
  split_ifs at h with hlimit httl
  · cases h
  · cases h
  · obtain ⟨validUntil, hvalid, h⟩ := bind_eq_ok.mp h
    obtain ⟨length, hlength, h⟩ := bind_eq_ok.mp h
    obtain rfl : quote.expiresAt = validUntil := Except.ok.inj hvalid
    obtain rfl := timedelta_eq_ok hlength
    have hremaining := of_decide_eq_true (pure_eq_ok.mp h)
    rw [hrat, not_lt, le_age_iff resolver.config.ttl_pos.le] at httl
    exact ⟨not_le.mp hexpired, httl, by omega⟩

/-- What `_stale_covers_horizon` promises. -/
theorem staleCoversHorizon_true (h : resolver.staleCoversHorizon quote now.val horizon = .ok true) :
    now.val + horizon * second ≤
      quote.observedAt + resolver.config.catalogMaxStaleSeconds * second := by
  obtain ⟨age, -, h⟩ := bind_eq_ok.mp h
  split_ifs at h
  · cases h
  · obtain ⟨validUntil, hvalid, h⟩ := bind_eq_ok.mp h
    obtain ⟨length, hlength, h⟩ := bind_eq_ok.mp h
    obtain ⟨rfl, -⟩ := addSeconds_eq_ok quote.observedAt_range hvalid
    obtain rfl := timedelta_eq_ok hlength
    have hremaining := of_decide_eq_true (pure_eq_ok.mp h)
    rw [catalogStaleLimit_eq] at hremaining
    omega

/-- The pair and the source that a quote must have for a request. -/
structure Provenance (resolver : GlobalFiatFxResolver) (request : RateRequest)
    (quote : FxReferenceQuote) : Prop where
  base_eq : quote.baseCurrency = request.base
  quote_eq : quote.quoteCurrency = request.quote
  source_eq : casefold (strip quote.source) = casefold (strip resolver.sourceName)

variable {request : RateRequest} {resolution : ReferenceRateResolution}

variable {instant : ℤ} {memory : RateMemory} {key : String}

/-- What `_safe_cache_get` lets through. -/
theorem provenance_of_safeCacheGet {found : Option FxReferenceQuote}
    (h : quote ∈ resolver.safeCacheGet request found instant) :
    Provenance resolver request quote := by
  have hchecks := (Option.mem_filter_iff.mp h).2
  simp only [Bool.and_eq_true, decide_eq_true_eq] at hchecks
  obtain ⟨⟨⟨⟨⟨hbase, hquote⟩, -⟩, hsource⟩, -⟩, -⟩ := hchecks
  exact ⟨hbase, hquote, hsource⟩

/-- A fresh rate between different currencies. -/
theorem covers_fresh (hquote : Provenance resolver request quote)
    (hpair : request.base ≠ request.quote) (hlive : instant < quote.expiresAt)
    (hage : instant - quote.observedAt ≤ resolver.config.quoteTtlSeconds * second)
    (hhorizon : instant + request.query.horizon * second ≤ quote.expiresAt) :
    resolver.Covers request { quote := quote } instant where
  base_eq := hquote.base_eq
  quote_eq := hquote.quote_eq
  source_eq _ := hquote.source_eq
  fresh _ := ⟨hlive, hage, hhorizon⟩
  stale h := by cases h
  identical h := absurd h hpair

/-- A stale rate between different currencies. -/
theorem covers_stale (hquote : Provenance resolver request quote)
    (hpair : request.base ≠ request.quote) (hallow : request.query.allowCatalogStale = true)
    (hhorizon : instant + request.query.horizon * second ≤
      quote.observedAt + resolver.config.catalogMaxStaleSeconds * second) :
    resolver.Covers request { quote := quote, stale := true } instant where
  base_eq := hquote.base_eq
  quote_eq := hquote.quote_eq
  source_eq _ := hquote.source_eq
  fresh h := by cases h
  stale _ := ⟨hallow, hhorizon⟩
  identical h := absurd h hpair

/-- A cached quote that is returned. -/
theorem covers_of_answerFromQuote (hquote : Provenance resolver request quote)
    (hpair : request.base ≠ request.quote)
    (h : resolver.answerFromQuote memory request key quote now.val = .ok (some resolution)) :
    resolver.Covers request resolution now.val := by
  obtain ⟨fresh, hfresh, h⟩ := bind_eq_ok.mp h
  cases fresh with
  | true =>
    obtain ⟨hlive, hage, hhorizon⟩ := freshCoversHorizon_true hfresh
    obtain rfl := Option.some.inj (pure_eq_ok.mp h)
    exact covers_fresh hquote hpair hlive hage hhorizon
  | false =>
    rw [if_neg Bool.false_ne_true] at h
    split_ifs at h with hmemo
    · obtain ⟨covers, hcovers, h⟩ := bind_eq_ok.mp h
      cases covers with
      | true =>
        obtain rfl := Option.some.inj (pure_eq_ok.mp h)
        rw [Bool.and_eq_true] at hmemo
        exact covers_stale hquote hpair hmemo.1 (staleCoversHorizon_true hcovers)
      | false => cases pure_eq_ok.mp h
    · cases pure_eq_ok.mp h

theorem covers_of_answerFromCache {cached : Option FxReferenceQuote}
    (hcached : ∀ quote ∈ cached, Provenance resolver request quote)
    (hpair : request.base ≠ request.quote)
    (h : resolver.answerFromCache memory request key cached now.val = .ok (some resolution)) :
    resolver.Covers request resolution now.val := by
  cases cached with
  | none =>
    obtain ⟨-, h⟩ := rejectIf_bind_eq_ok.mp h
    cases pure_eq_ok.mp h
  | some cached =>
    obtain ⟨found, hfound, h⟩ := bind_eq_ok.mp h
    obtain ⟨-, h⟩ := rejectIf_bind_eq_ok.mp h
    obtain rfl := pure_eq_ok.mp h
    exact covers_of_answerFromQuote (hcached cached rfl) hpair hfound

theorem reraise_ne_ok {raised : Raised} : reraise request raised ≠ .ok resolution := by
  unfold reraise
  split_ifs
  · simp
  · exact raise_ne_ok

/-- The fallback after a failed fetch. -/
theorem covers_of_fetchFailed {cached : Option FxReferenceQuote} {raised : Raised}
    (hcached : ∀ quote ∈ cached, Provenance resolver request quote)
    (hpair : request.base ≠ request.quote)
    (h : (resolver.fetchFailed memory request key cached raised now.val).2 = .ok resolution) :
    resolver.Covers request resolution now.val := by
  unfold fetchFailed at h
  cases hmemo : addSeconds now.val 30 with
  | error overflow =>
    rw [hmemo] at h
    cases h
  | ok memoUntil =>
    rw [hmemo] at h
    cases cached with
    | none => exact absurd h reraise_ne_ok
    | some cached =>
      obtain ⟨age, hage, -⟩ := ageSeconds_eq cached now
      simp only [hage] at h
      split_ifs at h with hlimit hallow
      · obtain ⟨covers, hcovers, h⟩ := bind_eq_ok.mp h
        obtain ⟨hcovered, h⟩ := rejectIf_bind_eq_ok.mp h
        obtain rfl := pure_eq_ok.mp h
        rw [Bool.not_eq_false'] at hcovered
        rw [hcovered] at hcovers
        exact covers_stale (hcached cached rfl) hpair hallow (staleCoversHorizon_true hcovers)
      · exact absurd h reraise_ne_ok
      · exact absurd h reraise_ne_ok

theorem staleOnly_eq_ok {message : String} {stale : Bool}
    (h : resolver.staleOnly request quote instant message = .ok stale) :
    request.query.allowCatalogStale = true := by
  obtain ⟨hallow, -⟩ := rejectIf_bind_eq_ok.mp h
  simpa using hallow

/-- What a live quote that is returned has shown. -/
theorem judgeFresh_eq_ok {stale : Bool} (h : resolver.judgeFresh request quote instant = .ok stale) :
     Provenance resolver request quote ∧
      (stale = true → request.query.allowCatalogStale = true) := by
  obtain ⟨_, hvalid, h⟩ := bind_eq_ok.mp h
  obtain ⟨hpair, -⟩ := rejectIf_bind_eq_ok.mp hvalid
  obtain ⟨hsource, h⟩ := rejectIf_bind_eq_ok.mp h
  obtain ⟨-, h⟩ := rejectIf_bind_eq_ok.mp h
  obtain ⟨age, -, h⟩ := bind_eq_ok.mp h
  simp only [Bool.or_eq_false_iff, decide_eq_false_iff_not, not_not] at hpair hsource
  refine ⟨⟨hpair.1, hpair.2, hsource⟩, ?_⟩
  rintro rfl
  split at h
  · exact staleOnly_eq_ok h
  · obtain ⟨-, h⟩ := rejectIf_bind_eq_ok.mp h
    split at h
    · exact staleOnly_eq_ok h
    · obtain ⟨covers, -, h⟩ := bind_eq_ok.mp h
      split at h
      · cases pure_eq_ok.mp h
      · exact staleOnly_eq_ok h

end Judgements

/-! ### Runs -/

section Runs

variable {resolver : GlobalFiatFxResolver}

/-- What a waiting call carries. -/
def Waits (resolver : GlobalFiatFxResolver) : RateCall → Prop
  | .reading request => request.base ≠ request.quote
  | .queued request => request.base ≠ request.quote
  | .rereading request => request.base ≠ request.quote
  | .fetching request cached =>
    request.base ≠ request.quote ∧ ∀ quote ∈ cached, Provenance resolver request quote
  | .writing request fresh stale =>
    request.base ≠ request.quote ∧ Provenance resolver request fresh ∧
      (stale = true → request.query.allowCatalogStale = true)
  | _ => True

variable {request : RateRequest}

theorem waits_ended {outcome : Result ReferenceRateResolution} {now : ℤ} :
    Waits resolver (ended request outcome now) := by
  cases outcome <;> trivial

theorem answered_ended {outcome : Result ReferenceRateResolution} {now : ℤ}
    (h : ∀ resolution, outcome = .ok resolution → resolver.Covers request resolution now) :
    resolver.Answered (ended request outcome now) := by
  cases outcome with
  | error raised => trivial
  | ok resolution => exact h resolution rfl

variable (query : RateQuery)

/-- How a call begins. -/
theorem begin_cases (now : Instant) : (∃ raised, resolver.begin query now = .raised raised ∧
      ∀ request, query.accept = .ok request → request.base ≠ request.quote) ∨
    (∃ request, query.accept = .ok request ∧ request.base = request.quote ∧
      resolver.begin query now = ended request (resolver.identity request now) now) ∨
    ∃ request, query.accept = .ok request ∧ request.base ≠ request.quote ∧
      resolver.begin query now = .reading request := by
  unfold begin
  cases query.accept with
  | error raised => exact Or.inl ⟨raised, rfl, fun request h ↦ nomatch h⟩
  | ok request =>
    by_cases hpair : request.base = request.quote
    · exact Or.inr (Or.inl ⟨request, rfl, hpair, if_pos hpair⟩)
    · have honly : ∀ accepted, (.ok request : Result RateRequest) = .ok accepted →
          accepted.base ≠ accepted.quote := by
        intro accepted haccepted
        obtain rfl := Except.ok.inj haccepted
        exact hpair
      simp only [if_neg hpair]
      cases resolver.config.enabled with
      | false => exact Or.inl ⟨_, rfl, honly⟩
      | true =>
        rw [if_neg (by decide)]
        by_cases hsource : lower (strip resolver.sourceName) ≠ "frankfurter"
        · exact Or.inl ⟨_, if_pos hsource, honly⟩
        · exact Or.inr (Or.inr ⟨request, rfl, hpair, if_neg hsource⟩)

theorem waits_begin (now : Instant) : Waits resolver (resolver.begin query now) := by
  rcases resolver.begin_cases query now with
    ⟨raised, hbegin, -⟩ | ⟨request, -, -, hbegin⟩ | ⟨request, -, hpair, hbegin⟩
  · rw [hbegin]
    trivial
  · rw [hbegin]
    exact waits_ended
  · rw [hbegin]
    exact hpair

theorem query_of_accept {query : RateQuery} (h : query.accept = .ok request) :
    request.query = query := by
  unfold RateQuery.accept at h
  split at h
  · split at h
    · cases h
    · split at h
      · cases h
      · split at h
        · exact congrArg RateRequest.query (Except.ok.inj h).symm
        · exact absurd h raise_ne_ok
  · exact absurd h raise_ne_ok

/-- The rate between equal currencies. -/
theorem covers_identity_iff {now : Instant} {resolution : ReferenceRateResolution}
    (hpair : request.base = request.quote) (h : resolver.identity request now = .ok resolution) :
    resolver.Covers request resolution now.val ↔
      request.query.horizon ≤ resolver.config.quoteTtlSeconds := by
  unfold identity at h
  split at h
  · cases h
  · rename_i expiresAt hexpiry
    obtain rfl := Except.ok.inj h
    obtain ⟨rfl, -⟩ := addSeconds_eq_ok now.property hexpiry
    have hpos := resolver.config.ttl_pos
    constructor
    · intro hcovers
      have hlasts := hcovers.identical hpair
      simp only [second] at hlasts
      omega
    · intro hhorizon
      have hlasts : now.val + request.query.horizon * second ≤
          now.val + resolver.config.quoteTtlSeconds * second := by
        simp only [second]
        omega
      refine ⟨rfl, rfl, fun hne ↦ absurd hpair hne, fun _ ↦ ⟨?_, ?_, hlasts⟩, fun h ↦ ?_,
        fun _ ↦ hlasts⟩
      · simp only [second]
        omega
      · simp only [second]
        omega
      · cases h

theorem answered_begin_iff (now : Instant) :
    resolver.Answered (resolver.begin query now) ↔ resolver.IdentityLasts (query, now) := by
  rcases resolver.begin_cases query now with
    ⟨raised, hbegin, honly⟩ | ⟨request, haccept, hpair, hbegin⟩ | ⟨request, haccept, hpair, hbegin⟩
  · rw [hbegin]
    exact iff_of_true trivial fun request haccept hpair ↦ absurd hpair (honly request haccept)
  · rw [hbegin]
    have hquery : request.query = query := query_of_accept haccept
    have hasks : resolver.IdentityLasts (query, now) ↔
        (InRange (now.val + resolver.config.quoteTtlSeconds * second) →
          query.horizon ≤ resolver.config.quoteTtlSeconds) := by
      constructor
      · exact fun h ↦ h request haccept hpair
      · exact fun h _ _ _ ↦ h
    have hexpiry := addSeconds_eq now.property resolver.config.quoteTtlSeconds
    rw [hasks]
    cases hidentity : resolver.identity request now with
    | error raised =>
      refine iff_of_true trivial fun hrange ↦ ?_
      rw [if_pos hrange] at hexpiry
      unfold identity at hidentity
      split at hidentity
      · rename_i hfailed
        rw [hexpiry] at hfailed
        cases hfailed
      · cases hidentity
    | ok resolution =>
      rw [ended, Answered, covers_identity_iff hpair hidentity, hquery]
      have hrange : InRange (now.val + resolver.config.quoteTtlSeconds * second) := by
        unfold identity at hidentity
        split at hidentity
        · cases hidentity
        · rename_i hfound
          obtain ⟨rfl, hrange⟩ := addSeconds_eq_ok now.property hfound
          exact hrange
      exact ⟨fun hhorizon _ ↦ hhorizon, fun hhorizon ↦ hhorizon hrange⟩
  · rw [hbegin]
    refine iff_of_true trivial fun accepted haccepted hsame ↦ ?_
    obtain rfl := Except.ok.inj (haccept.symm.trans haccepted)
    exact absurd hsame hpair

/-- A live quote is returned in time exactly if its write ends by its deadline. -/
theorem covers_written_iff {fresh : FxReferenceQuote} {stale : Bool}
    (h : Waits resolver (.writing request fresh stale)) (instant : ℤ) :
    resolver.Covers request { quote := fresh, stale := stale } instant ↔
      instant ≤ resolver.deadline request fresh stale := by
  obtain ⟨hpair, hquote, hallow⟩ := h
  cases stale with
  | true =>
    constructor
    · intro hcovers
      have hlasts := (hcovers.stale rfl).2
      simp only [deadline, if_pos]
      simp only at hlasts
      omega
    · intro hlasts
      simp only [deadline, if_pos] at hlasts
      exact covers_stale hquote hpair (hallow rfl) (by omega)
  | false =>
    constructor
    · intro hcovers
      obtain ⟨hlive, hage, hlasts⟩ := hcovers.fresh rfl
      simp only [deadline, Bool.false_eq_true, if_false]
      simp only at hlive hage hlasts
      omega
    · intro hlasts
      simp only [deadline, Bool.false_eq_true, if_false] at hlasts
      exact covers_fresh hquote hpair (by omega) (by omega) (by omega)

/-- What a call that waits comes to. -/
theorem resume_spec (memory : RateMemory) (call : ℕ) (status : RateCall) (answer : RateAnswer)
    (h : Waits resolver status) : Waits resolver (resolver.resume memory call status answer).2 ∧
      (resolver.WriteEnds status answer → resolver.Answered status →
        resolver.Answered (resolver.resume memory call status answer).2) := by
  cases status with
  | reading request =>
    cases answer with
    | cached found now =>
      simp only [resume]
      cases hfound : resolver.answerFromCache memory request (resolver.key request)
          (resolver.safeCacheGet request found now.val) now.val with
      | error raised => exact ⟨trivial, fun _ _ ↦ trivial⟩
      | ok found =>
        cases found with
        | none => exact ⟨h, fun _ _ ↦ trivial⟩
        | some resolution =>
          refine ⟨trivial, fun _ _ ↦ ?_⟩
          exact covers_of_answerFromCache (fun _ hquote ↦ provenance_of_safeCacheGet hquote) h
            hfound
    | cancel => exact ⟨trivial, fun _ _ ↦ trivial⟩
    | _ => exact ⟨h, fun _ _ ↦ trivial⟩
  | queued request =>
    cases answer with
    | acquired =>
      simp only [resume]
      split_ifs
      · exact ⟨h, fun _ _ ↦ trivial⟩
      · exact ⟨h, fun _ _ ↦ trivial⟩
    | cancel => exact ⟨trivial, fun _ _ ↦ trivial⟩
    | _ => exact ⟨h, fun _ _ ↦ trivial⟩
  | rereading request =>
    cases answer with
    | cached found now =>
      simp only [resume]
      cases hfound : resolver.answerFromCache memory request (resolver.key request)
          (resolver.safeCacheGet request found now.val) now.val with
      | error raised => exact ⟨trivial, fun _ _ ↦ trivial⟩
      | ok outcome =>
        cases outcome with
        | none =>
          exact ⟨⟨h, fun _ hquote ↦ provenance_of_safeCacheGet hquote⟩, fun _ _ ↦ trivial⟩
        | some resolution =>
          refine ⟨trivial, fun _ _ ↦ ?_⟩
          exact covers_of_answerFromCache (fun _ hquote ↦ provenance_of_safeCacheGet hquote) h
            hfound
    | cancel => exact ⟨trivial, fun _ _ ↦ trivial⟩
    | _ => exact ⟨h, fun _ _ ↦ trivial⟩
  | fetching request cached =>
    cases answer with
    | fetched answer now =>
      cases answer with
      | quote fresh =>
        simp only [resume]
        cases hjudged : resolver.judgeFresh request fresh now.val with
        | error raised => exact ⟨trivial, fun _ _ ↦ trivial⟩
        | ok stale => exact ⟨⟨h.1, judgeFresh_eq_ok hjudged⟩, fun _ _ ↦ trivial⟩
      | nonQuote => exact ⟨trivial, fun _ _ ↦ trivial⟩
      | raised raised =>
        simp only [resume]
        split_ifs
        · exact ⟨trivial, fun _ _ ↦ trivial⟩
        · refine ⟨waits_ended, fun _ _ ↦ ?_⟩
          exact answered_ended fun _ houtcome ↦ covers_of_fetchFailed h.2 h.1 houtcome
    | cancel => exact ⟨trivial, fun _ _ ↦ trivial⟩
    | _ => exact ⟨h, fun _ _ ↦ trivial⟩
  | writing request fresh stale =>
    cases answer with
    | put now => exact ⟨trivial, fun hends _ ↦ (covers_written_iff h now.val).mpr hends⟩
    | cancel => exact ⟨trivial, fun _ _ ↦ trivial⟩
    | _ => exact ⟨h, fun _ _ ↦ trivial⟩
  | returned request resolution instant =>
    cases answer <;> exact ⟨trivial, fun _ hcovers ↦ hcovers⟩
  | raised raised => cases answer <;> exact ⟨trivial, fun _ _ ↦ trivial⟩
  | cancelled => cases answer <;> exact ⟨trivial, fun _ _ ↦ trivial⟩

/-- A call goes on to an answer that covers its horizon exactly if its write ends in time. -/
theorem answered_resume_iff (memory : RateMemory) (call : ℕ) (status : RateCall)
    (answer : RateAnswer) (h : Waits resolver status) (hanswered : resolver.Answered status) :
    resolver.Answered (resolver.resume memory call status answer).2 ↔
      resolver.WriteEnds status answer := by
  constructor
  · intro hnext
    cases status with
    | writing request fresh stale =>
      cases answer with
      | put now => exact (covers_written_iff h now.val).mp hnext
      | _ => exact True.intro
    | _ => exact True.intro
  · exact fun hends ↦ (resume_spec memory call status answer h).2 hends hanswered

/-- Every rate that the calls of a run return covers the horizon that was asked for, exactly if the
calls between equal currencies ask for no more than the lifetime of a quote, and the writes of live
quotes end by the quotes' deadlines. -/
theorem rates_cover_horizon (resolver : GlobalFiatFxResolver)
    (events : List (Transition.Stretch (RateQuery × Instant) RateAnswer)) :
    Throughout (Overlap.step resolver.calls) (Overlap.Every resolver.Answered) initial events ↔
      Along (Overlap.step resolver.calls)
        (Overlap.Asks (fun _ asked ↦ resolver.IdentityLasts asked) fun _ ↦ resolver.WriteEnds)
        initial events := by
  refine Overlap.throughout_every_iff (Waits resolver) ?_ ?_ ?_ ?_ events initial
    (Overlap.every_initial _ _) (Overlap.every_initial _ _)
  · exact fun _ _ asked ↦ waits_begin asked.1 asked.2
  · exact fun memory call status answer h ↦ (resume_spec memory call status answer h).1
  · exact fun _ _ asked ↦ answered_begin_iff asked.1 asked.2
  · exact answered_resume_iff

end Runs

/-! ### Two short-lived rates -/

namespace OneHour

/-- The default policy. -/
def resolver : GlobalFiatFxResolver where
  config := ⟨true, 3600, 345600, 345600, by decide, by decide, by decide, by decide⟩
  sourceName := "frankfurter"

def noon : Instant :=
  ⟨1790164800000000, by decide⟩

def nextSecond : Instant :=
  ⟨1790164801000000, by decide⟩

/-- A rate that was observed at noon. -/
def rate : FxReferenceQuote where
  baseCurrency := "EUR"
  quoteCurrency := "USD"
  rate := .ofNat 2
  source := "frankfurter"
  sourceMarket := "EUR/USD"
  providerDate := 1790121600000000
  observedAt := noon.val
  expiresAt := noon.val + 3600 * second
  constructedAt := noon.val
  base_normal := by decide +kernel
  quote_normal := by decide +kernel
  rate_pos := by decide
  source_ne := by decide +kernel
  market_ne := by decide +kernel
  published := by decide
  observed := by decide
  lives := by decide
  providerDate_range := by decide
  observedAt_range := by decide
  expiresAt_range := by decide

/-- A call between equal currencies whose horizon is two hours. -/
def identical : List (Transition.Stretch (RateQuery × Instant) RateAnswer) :=
  [.start 0 (.getCatalogRate "EUR" "EUR" 7200, noon)]

/-- A call whose horizon is one hour, and a cache that takes a second to keep the live rate. -/
def slowWrite : List (Transition.Stretch (RateQuery × Instant) RateAnswer) :=
  [.start 0 (.getCatalogRate "EUR" "USD" 3600, noon), .resume 0 (.cached none noon),
    .resume 0 .acquired, .resume 0 (.cached none noon), .resume 0 (.fetched (.quote rate) noon),
    .resume 0 (.put nextSecond)]

/-- Both rates expire before their horizons. -/
theorem short_rates :
    ¬ Throughout (Overlap.step resolver.calls) (Overlap.Every resolver.Answered) initial identical ∧
      ¬ Throughout (Overlap.step resolver.calls) (Overlap.Every resolver.Answered) initial
        slowWrite := by
  constructor
  · intro h
    have hlast := (throughout_iff_forall_take _ _ _ _).mp h 1 0
    exact absurd hlast (by decide +kernel)
  · intro h
    have hlast := (throughout_iff_forall_take _ _ _ _).mp h 6 0
    exact absurd hlast (by decide +kernel)

end OneHour

end GlobalFiatFxResolver

end CloudPlatform.Fx
