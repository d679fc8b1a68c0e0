import CloudPlatform.Fx.MarketQuotes

/-!
# Ages of settlement rates

Every quote that a conversion uses is to be one of the requested market, and no older than its purpose
allows when the conversion is returned. The resolver judges a quote when it gets it, so a quote can only
be too old if the call has waited since: for the second quote of a cross rate, or for the cache to keep a
live quote. `conversions_settled` says that nothing else can go wrong.
-/

namespace CloudPlatform.Fx

open Calendar (second)
open Decimals
open Transition (Along Overlap Throughout throughout_iff_forall_take)

namespace FxResolver

section Statement

variable (resolver : FxResolver)

/-- A quote of the requested market and of the resolver's source. -/
structure Matches (base : String) (quote : FxMarketQuote) : Prop where
  base_eq : quote.baseCurrency = base
  quote_eq : quote.quoteCurrency = "IRT"
  market_eq : upper (strip quote.sourceMarket) = base ++ "IRT"
  source_eq : sourceMatches quote.source resolver.sourceName = true

/-- The quote is not too old for the purpose. -/
def InTime (purpose : FxPurpose) (instant : ℤ) (quote : FxMarketQuote) : Prop :=
  instant - quote.observedAt ≤ resolver.staleLimit purpose * second

/-- What is to hold of a conversion that is returned at an instant. -/
structure Settled (request : FxRequest) (used : List FxMarketQuote) (resolved : ResolvedMoney)
    (instant : ℤ) : Prop where
  bases : request.bases = .ok (used.map (·.baseCurrency))
  quotes : ∀ quote ∈ used, resolver.Matches quote.baseCurrency quote
  ages : ∀ quote ∈ used, resolver.InTime request.purpose instant quote
  stale_iff : resolved.stale = true ↔ ∃ quote ∈ used, quote.expiresAt ≤ instant
  observedAt : used ≠ [] → (used.map (·.observedAt)).min? = some resolved.observedAt
  expiresAt : used ≠ [] → (used.map (·.expiresAt)).min? = some resolved.expiresAt
  proxied : request.source ≠ request.target → request.needsUsdtProxy = true →
    resolver.proxyAllowed request.purpose = true

/-- A call that has returned, has returned such a conversion. -/
def Answered : FxCall → Prop
  | .returned request used resolved instant => resolver.Settled request used resolved instant
  | _ => True

instance (base : String) (quote : FxMarketQuote) : Decidable (resolver.Matches base quote) :=
  decidable_of_iff
    (quote.baseCurrency = base ∧ quote.quoteCurrency = "IRT" ∧
      upper (strip quote.sourceMarket) = base ++ "IRT" ∧
      sourceMatches quote.source resolver.sourceName = true)
    ⟨fun ⟨hbase, hquote, hmarket, hsource⟩ ↦ ⟨hbase, hquote, hmarket, hsource⟩,
      fun h ↦ ⟨h.base_eq, h.quote_eq, h.market_eq, h.source_eq⟩⟩

instance (purpose : FxPurpose) (instant : ℤ) : DecidablePred (resolver.InTime purpose instant) :=
  fun quote ↦ inferInstanceAs (Decidable (instant - quote.observedAt ≤ _))

instance (request : FxRequest) (used : List FxMarketQuote) (resolved : ResolvedMoney)
    (instant : ℤ) : Decidable (resolver.Settled request used resolved instant) :=
  decidable_of_iff
    (request.bases = .ok (used.map (·.baseCurrency)) ∧
      (∀ quote ∈ used, resolver.Matches quote.baseCurrency quote) ∧
      (∀ quote ∈ used, resolver.InTime request.purpose instant quote) ∧
      (resolved.stale = true ↔ ∃ quote ∈ used, quote.expiresAt ≤ instant) ∧
      (used ≠ [] → (used.map (·.observedAt)).min? = some resolved.observedAt) ∧
      (used ≠ [] → (used.map (·.expiresAt)).min? = some resolved.expiresAt) ∧
      (request.source ≠ request.target → request.needsUsdtProxy = true →
        resolver.proxyAllowed request.purpose = true))
    ⟨fun ⟨hbases, hquotes, hages, hstale, hobserved, hexpires, hproxied⟩ ↦
        ⟨hbases, hquotes, hages, hstale, hobserved, hexpires, hproxied⟩,
      fun h ↦ ⟨h.bases, h.quotes, h.ages, h.stale_iff, h.observedAt, h.expiresAt, h.proxied⟩⟩

instance : DecidablePred resolver.Answered
  | .returned request used resolved instant =>
    inferInstanceAs (Decidable (resolver.Settled request used resolved instant))
  | .reading _ _ | .queued _ _ | .rereading _ _ _ | .fetching _ _ | .writing _ _ | .raised _
  | .cancelled => inferInstanceAs (Decidable True)

/-- The quotes that a call has got before its next stretch. -/
def held : FxCall → List FxMarketQuote
  | .reading leg _ | .queued leg _ | .rereading leg _ _ | .fetching leg _ => leg.used
  | .writing leg fresh => leg.used ++ [fresh]
  | _ => []

/-- Where a stretch brings the last quote of a conversion that the amount allows, the quotes that the call
has held meanwhile are not too old. -/
def HeldInTime (locks : MarketLocks) (status : FxCall) (answer : FxAnswer) : Prop :=
  ∀ leg quote now, resolver.quoteStretch locks status answer = .supplied leg quote now →
    leg.later = [] → (leg.request.convert (leg.used ++ [quote]) now).isOk = true →
      ∀ earlier ∈ held status, resolver.InTime leg.request.purpose now earlier

end Statement

/-! ### Quotes -/

section Quotes

variable {resolver : FxResolver}

variable {quote : FxMarketQuote} {now : Instant} {base : String}

/-- An age within a number of seconds. -/
theorem sub_le_of_age {elapsed : Decimal} {limit : ℤ} (hage : age quote now.val = .ok elapsed)
    (h : elapsed.toRat ≤ limit) : now.val - quote.observedAt ≤ limit * second := by
  have hdigits : numDigits (max (now.val - quote.observedAt) 0).natAbs ≤ 512 :=
    (numDigits_mono (by omega)).trans (numDigits_sub_le now.property quote.observedAt_range)
  obtain ⟨seconds, hseconds, hrat⟩ := secondsOf_eq hdigits
  obtain rfl := Except.ok.inj (hseconds.symm.trans hage)
  rw [hrat, div_le_iff₀ (by norm_num)] at h
  have hbound : max (now.val - quote.observedAt) 0 ≤ limit * 1000000 := by exact_mod_cast h
  exact (le_max_left _ _).trans hbound

/-- The market of each requested currency. -/
theorem bases_eq {request : FxRequest} {bases : List String} (h : request.bases = .ok bases) :
    ∀ base ∈ bases, base = "EUR" ∨ base = "USDT" := by
  unfold FxRequest.bases at h
  split_ifs at h <;> cases h <;> simp

/-- What `_validate_quote` and the comparison of the sources let through. -/
theorem matches_of_validateQuote {u : Unit} (hbase : base = "EUR" ∨ base = "USDT")
    (h : validateQuote quote base "IRT" = .ok u)
    (hsource : sourceMatches quote.source resolver.sourceName = true) :
    resolver.Matches base quote := by
  obtain ⟨hpair, h⟩ := rejectIf_bind_eq_ok.mp h
  have hmarket := rejectIf_eq_ok.mp h
  simp only [Bool.or_eq_false_iff, decide_eq_false_iff_not, not_not] at hpair hmarket
  have husd : ¬ (base = "USD" ∧ True) := by
    rcases hbase with rfl | rfl <;> decide
  rw [if_neg husd] at hmarket
  exact ⟨hpair.1, hpair.2, hmarket, hsource⟩

theorem matches_of_safeCacheGet {found : CacheAnswer} (hbase : base = "EUR" ∨ base = "USDT")
    (h : quote ∈ resolver.safeCacheGet base found) : resolver.Matches base quote := by
  cases found with
  | quote cached =>
    rw [safeCacheGet] at h
    split_ifs at h with hchecks
    · obtain rfl := Option.mem_some_iff.mp h
      rw [Bool.and_eq_true] at hchecks
      cases hvalid : validateQuote cached base "IRT" with
      | error raised =>
        rw [hvalid] at hchecks
        cases hchecks.1
      | ok u => exact matches_of_validateQuote hbase hvalid hchecks.2
    · cases h
  | missing => cases h
  | nonQuote => cases h
  | raised => cases h

theorem inTime_of_usable {purpose : FxPurpose}
    (h : resolver.usable purpose quote now.val = .ok true) :
    resolver.InTime purpose now.val quote := by
  unfold usable at h
  split_ifs at h
  · obtain ⟨elapsed, hage, h⟩ := bind_eq_ok.mp h
    have hboth := pure_eq_ok.mp h
    rw [Bool.and_eq_true, decide_eq_true_eq] at hboth
    exact sub_le_of_age hage hboth.1
  · cases h

theorem reraise_ne_ok {raised : Raised} : resolver.reraise base raised ≠ .ok quote := by
  unfold reraise
  split_ifs
  · simp
  · exact raise_ne_ok

/-- The fallback is the cached quote, and in time. -/
theorem fallbackOrRaise_eq_ok {leg : Leg} {cached : Option FxMarketQuote} {raised : Raised}
    (h : resolver.fallbackOrRaise leg cached raised now.val = .ok quote) :
    quote ∈ cached ∧ resolver.InTime leg.request.purpose now.val quote := by
  cases cached with
  | none => exact absurd h reraise_ne_ok
  | some cached =>
    obtain ⟨elapsed, hage, h⟩ := bind_eq_ok.mp h
    split_ifs at h with hlimit
    · obtain rfl := pure_eq_ok.mp h
      exact ⟨rfl, sub_le_of_age hage hlimit⟩
    · exact absurd h reraise_ne_ok

theorem matches_of_judgeFresh {leg : Leg} {fresh : FxMarketQuote} {now : ℤ} {stale : Option Raised}
    (hbase : leg.base = "EUR" ∨ leg.base = "USDT")
    (h : resolver.judgeFresh leg fresh now = .ok stale) : resolver.Matches leg.base fresh := by
  obtain ⟨_, hvalid, h⟩ := bind_eq_ok.mp h
  obtain ⟨hsource, -⟩ := rejectIf_bind_eq_ok.mp h
  exact matches_of_validateQuote hbase hvalid (by simpa using hsource)

end Quotes

/-! ### Runs -/

section Runs

variable {resolver : FxResolver}

/-- What a call has when it waits for a quote. -/
structure Underway (resolver : FxResolver) (leg : Leg) : Prop where
  bases : leg.request.bases = .ok (leg.used.map (·.baseCurrency) ++ leg.base :: leg.later)
  quotes : ∀ quote ∈ leg.used, resolver.Matches quote.baseCurrency quote
  proxied : leg.request.needsUsdtProxy = true → resolver.proxyAllowed leg.request.purpose = true

variable {leg : Leg} {now : Instant} {quote : FxMarketQuote} {request : FxRequest}

theorem Underway.base (h : Underway resolver leg) : leg.base = "EUR" ∨ leg.base = "USDT" :=
  bases_eq h.bases leg.base (List.mem_append_right _ List.mem_cons_self)

/-- What a waiting call carries. -/
def Waits (resolver : FxResolver) : FxCall → Prop
  | .reading leg _ => Underway resolver leg
  | .queued leg cached =>
    Underway resolver leg ∧ ∀ quote ∈ cached, resolver.Matches leg.base quote
  | .rereading leg _ cached =>
    Underway resolver leg ∧ ∀ quote ∈ cached, resolver.Matches leg.base quote
  | .fetching leg cached =>
    Underway resolver leg ∧ ∀ quote ∈ cached, resolver.Matches leg.base quote
  | .writing leg fresh => Underway resolver leg ∧ resolver.Matches leg.base fresh
  | _ => True

/-- A quote that is supplied is of the market that the call waits for; it is in time unless the call held
it already. -/
structure Supplied (resolver : FxResolver) (status : FxCall) (leg : Leg) (quote : FxMarketQuote)
    (now : ℤ) : Prop where
  underway : Underway resolver leg
  quote_matches : resolver.Matches leg.base quote
  age : held status = leg.used ∧ resolver.InTime leg.request.purpose now quote ∨
    held status = leg.used ++ [quote]

/-- What a stretch of `_quote` may come to. -/
def Sound (resolver : FxResolver) (status : FxCall) : QuoteOutcome → Prop
  | .waits next => Waits resolver next ∧ (resolver.Answered status → resolver.Answered next)
  | .supplied leg quote now => Supplied resolver status leg quote now
  | _ => True

theorem sound_supply {status : FxCall} {cached : Option FxMarketQuote} {raised : Raised}
    (hleg : Underway resolver leg) (hcached : ∀ quote ∈ cached, resolver.Matches leg.base quote)
    (hheld : held status = leg.used) : Sound resolver status
      (supply leg now.val (resolver.fallbackOrRaise leg cached raised now.val)) := by
  cases houtcome : resolver.fallbackOrRaise leg cached raised now.val with
  | error raised => exact True.intro
  | ok quote =>
    obtain ⟨hmem, hage⟩ := fallbackOrRaise_eq_ok houtcome
    exact ⟨hleg, hcached quote hmem, Or.inl ⟨hheld, hage⟩⟩

theorem sound_useOr {status next : FxCall} {cached : Option FxMarketQuote}
    (hleg : Underway resolver leg) (hcached : ∀ quote ∈ cached, resolver.Matches leg.base quote)
    (hheld : held status = leg.used)
    (hnext : Waits resolver next ∧ (resolver.Answered status → resolver.Answered next)) :
    Sound resolver status (resolver.useOr leg cached now.val next) := by
  unfold useOr
  cases cached with
  | none => exact hnext
  | some cached =>
    simp only
    cases husable : resolver.usable leg.request.purpose cached now.val with
    | error raised => exact True.intro
    | ok fresh =>
      cases fresh with
      | true => exact ⟨hleg, hcached cached rfl, Or.inl ⟨hheld, inTime_of_usable husable⟩⟩
      | false => exact hnext

/-- One stretch of `_quote`. -/
theorem sound_quoteStretch (locks : MarketLocks) (status : FxCall) (answer : FxAnswer)
    (h : Waits resolver status) : Sound resolver status (resolver.quoteStretch locks status answer) := by
  have hidle : Waits resolver status ∧ (resolver.Answered status → resolver.Answered status) :=
    ⟨h, id⟩
  cases status with
  | reading leg legacy =>
    cases answer with
    | cached found now =>
      have hcached : ∀ quote ∈ resolver.safeCacheGet leg.base found,
          resolver.Matches leg.base quote :=
        fun _ hquote ↦ matches_of_safeCacheGet h.base hquote
      have huse : Sound resolver (.reading leg legacy)
          (resolver.useOr leg (resolver.safeCacheGet leg.base found) now.val
            (.queued leg (resolver.safeCacheGet leg.base found))) :=
        sound_useOr h hcached rfl ⟨⟨h, hcached⟩, fun _ ↦ True.intro⟩
      cases legacy with
      | true => cases found <;> exact huse
      | false =>
        cases found with
        | missing => exact ⟨h, fun _ ↦ True.intro⟩
        | _ => exact huse
    | cancel => cases legacy <;> exact True.intro
    | _ => cases legacy <;> exact hidle
  | queued leg cached =>
    cases answer with
    | acquired =>
      simp only [quoteStretch]
      split_ifs
      · exact ⟨h, fun _ ↦ True.intro⟩
      · exact hidle
    | cancel => exact True.intro
    | _ => exact hidle
  | rereading leg legacy cached =>
    cases answer with
    | cached found now =>
      have hcached : ∀ quote ∈ resolver.safeCacheGet leg.base found,
          resolver.Matches leg.base quote :=
        fun _ hquote ↦ matches_of_safeCacheGet h.1.base hquote
      have huse : Sound resolver (.rereading leg legacy cached)
          (resolver.useOr leg (resolver.safeCacheGet leg.base found) now.val
            (.fetching leg cached)) :=
        sound_useOr h.1 hcached rfl ⟨h, fun _ ↦ True.intro⟩
      cases legacy with
      | true => cases found <;> exact huse
      | false =>
        cases found with
        | missing => exact ⟨h, fun _ ↦ True.intro⟩
        | _ => exact huse
    | cancel => cases legacy <;> exact True.intro
    | _ => cases legacy <;> exact hidle
  | fetching leg cached =>
    cases answer with
    | fetched answer now =>
      cases answer with
      | quote fresh =>
        simp only [quoteStretch]
        cases hjudged : resolver.judgeFresh leg fresh now.val with
        | error raised => exact True.intro
        | ok stale =>
          cases stale with
          | none => exact ⟨⟨h.1, matches_of_judgeFresh h.1.base hjudged⟩, fun _ ↦ True.intro⟩
          | some raised => exact sound_supply h.1 h.2 rfl
      | nonQuote => exact True.intro
      | raised raised =>
        simp only [quoteStretch]
        split_ifs
        · exact True.intro
        · exact sound_supply h.1 h.2 rfl
    | cancel => exact True.intro
    | _ => exact hidle
  | writing leg fresh =>
    cases answer with
    | put now => exact ⟨h.1, h.2, Or.inr rfl⟩
    | cancel => exact True.intro
    | _ => exact hidle
  | returned request used resolved instant => cases answer <;> exact hidle
  | raised raised => cases answer <;> exact hidle
  | cancelled => cases answer <;> exact hidle

theorem carryOn_last {now : ℤ} (hlater : leg.later = []) :
    carryOn (.supplied leg quote now) = ended leg.request (leg.used ++ [quote])
      (leg.request.convert (leg.used ++ [quote]) now) now := by
  unfold carryOn
  simp only [hlater]

theorem carryOn_next {now : ℤ} {base : String} {later : List String}
    (hlater : leg.later = base :: later) : carryOn (.supplied leg quote now) =
      .reading ⟨leg.request, leg.used ++ [quote], base, later⟩ false := by
  unfold carryOn
  simp only [hlater]

theorem matches_append (hleg : Underway resolver leg) (hquote : resolver.Matches leg.base quote) :
    ∀ other ∈ leg.used ++ [quote], resolver.Matches other.baseCurrency other := by
  intro other hother
  rcases List.mem_append.mp hother with hused | hlast
  · exact hleg.quotes other hused
  · obtain rfl := List.mem_singleton.mp hlast
    rw [hquote.base_eq]
    exact hquote

/-- The call after a stretch of `_quote`. -/
theorem waits_carryOn {status : FxCall} {outcome : QuoteOutcome} (h : Sound resolver status outcome) :
    Waits resolver (carryOn outcome) := by
  cases outcome with
  | waits next => exact h.1
  | supplied leg quote now =>
    obtain ⟨hleg, hquote, -⟩ := h
    cases hlater : leg.later with
    | nil =>
      rw [carryOn_last hlater]
      cases leg.request.convert (leg.used ++ [quote]) now with
      | error raised => exact True.intro
      | ok resolved => exact True.intro
    | cons base later =>
      rw [carryOn_next hlater]
      have hbases := hleg.bases
      rw [hlater] at hbases
      refine ⟨?_, matches_append hleg hquote, hleg.proxied⟩
      simpa [hquote.base_eq] using hbases
  | raised raised => exact True.intro
  | cancelled => exact True.intro

/-- A conversion from the quotes of its legs is right if the quotes are in time. -/
theorem settled_iff {resolved : ResolvedMoney} {now : ℤ} (hleg : Underway resolver leg)
    (hquote : resolver.Matches leg.base quote) (hlater : leg.later = [])
    (hresolved : leg.request.convert (leg.used ++ [quote]) now = .ok resolved) :
    resolver.Settled leg.request (leg.used ++ [quote]) resolved now ↔
      ∀ other ∈ leg.used ++ [quote], resolver.InTime leg.request.purpose now other := by
  have hfrom := FxRequest.convert_provenance hresolved
  constructor
  · exact fun h ↦ h.ages
  · intro hages
    refine ⟨?_, matches_append hleg hquote, hages, hfrom.stale_iff, fun _ ↦ hfrom.observedAt,
      fun _ ↦ hfrom.expiresAt, fun _ ↦ hleg.proxied⟩
    have hbases := hleg.bases
    rw [hlater] at hbases
    simpa [hquote.base_eq] using hbases

/-- A call goes on to a right conversion exactly if the quotes that it holds are in time. -/
theorem answered_resume_iff (locks : MarketLocks) (call : ℕ) (status : FxCall) (answer : FxAnswer)
    (h : Waits resolver status) (hanswered : resolver.Answered status) :
    resolver.Answered (resolver.resume locks call status answer).2 ↔
      resolver.HeldInTime locks status answer := by
  have hsound := sound_quoteStretch locks status answer h
  rw [resume, HeldInTime]
  cases houtcome : resolver.quoteStretch locks status answer with
  | waits next =>
    rw [houtcome] at hsound
    refine iff_of_true (hsound.2 hanswered) ?_
    intro leg quote now hsupplied
    cases hsupplied
  | raised raised =>
    refine iff_of_true True.intro ?_
    intro leg quote now hsupplied
    cases hsupplied
  | cancelled =>
    refine iff_of_true True.intro ?_
    intro leg quote now hsupplied
    cases hsupplied
  | supplied leg quote now =>
    rw [houtcome] at hsound
    obtain ⟨hleg, hquote, hage⟩ := hsound
    cases hlater : leg.later with
    | cons base later =>
      rw [carryOn_next hlater]
      refine iff_of_true True.intro ?_
      intro other last instant hsupplied hnone
      obtain ⟨rfl, -, -⟩ := QuoteOutcome.supplied.inj hsupplied
      rw [hlater] at hnone
      cases hnone
    | nil =>
      rw [carryOn_last hlater]
      have hrest : (∀ earlier ∈ held status, resolver.InTime leg.request.purpose now earlier) ↔
          ∀ other ∈ leg.used ++ [quote], resolver.InTime leg.request.purpose now other := by
        rcases hage with ⟨hheld, hquoteAge⟩ | hheld
        · rw [hheld, List.forall_mem_append, List.forall_mem_singleton, and_iff_left hquoteAge]
        · rw [hheld]
      cases hresolved : leg.request.convert (leg.used ++ [quote]) now with
      | error raised =>
        refine iff_of_true True.intro ?_
        intro other last instant hsupplied _ hok
        obtain ⟨rfl, rfl, rfl⟩ := QuoteOutcome.supplied.inj hsupplied
        rw [hresolved] at hok
        cases hok
      | ok resolved =>
        have hsettled := settled_iff hleg hquote hlater hresolved
        rw [← hrest] at hsettled
        refine hsettled.trans ?_
        constructor
        · intro hheld other last instant hsupplied _ _
          obtain ⟨rfl, rfl, rfl⟩ := QuoteOutcome.supplied.inj hsupplied
          exact hheld
        · intro hheld
          exact hheld leg quote now rfl hlater (by rw [hresolved]; rfl)

/-! ### Calls without quotes -/

/-- A conversion that needs no quote. -/
theorem settled_without_quotes {given resolved : ResolvedMoney} {now instant : ℤ}
    (h : given.construct now = .ok resolved) (hstale : given.stale = false)
    (hbases : request.bases = .ok [])
    (hproxy : request.source ≠ request.target → request.needsUsdtProxy = false) :
    resolver.Settled request [] resolved instant := by
  obtain ⟨-, -, hflag, -⟩ := ResolvedMoney.construct_eq_ok h
  refine ⟨hbases, ?_, ?_, ?_, fun hne ↦ absurd rfl hne, fun hne ↦ absurd rfl hne, ?_⟩
  · intro quote hquote
    cases hquote
  · intro quote hquote
    cases hquote
  · rw [hflag, hstale]
    simp
  · intro hne husd
    rw [hproxy hne] at husd
    cases husd

theorem answered_ended {used : List FxMarketQuote} {outcome : Result ResolvedMoney} {now : ℤ}
    (h : ∀ resolved, outcome = .ok resolved → resolver.Settled request used resolved now) :
    resolver.Answered (ended request used outcome now) := by
  cases outcome with
  | error raised => exact True.intro
  | ok resolved => exact h resolved rfl

theorem answered_identity (hsame : request.source = request.target) : resolver.Answered
      (ended request [] (request.identity resolver.config.quoteTtlSeconds now) now) := by
  refine answered_ended fun resolved hresolved ↦ ?_
  obtain ⟨expiresAt, -, hresolved⟩ := bind_eq_ok.mp hresolved
  exact settled_without_quotes hresolved rfl (if_pos (Or.inl hsame)) fun hne ↦ absurd hsame hne

theorem answered_exactIrtIrr (hpair : request.between "IRT" "IRR" = true) : resolver.Answered
      (ended request [] (request.exactIrtIrr resolver.config.quoteTtlSeconds now) now) := by
  refine answered_ended fun resolved hresolved ↦ ?_
  obtain ⟨amounts, -, hresolved⟩ := bind_eq_ok.mp hresolved
  obtain ⟨expiresAt, -, hresolved⟩ := bind_eq_ok.mp hresolved
  refine settled_without_quotes hresolved rfl (if_pos (Or.inr hpair)) fun _ ↦ ?_
  simp only [FxRequest.between, Bool.or_eq_true, Bool.and_eq_true, decide_eq_true_eq] at hpair
  rcases hpair with ⟨hsource, htarget⟩ | ⟨hsource, htarget⟩
  · rw [FxRequest.needsUsdtProxy, hsource, htarget]
    decide
  · rw [FxRequest.needsUsdtProxy, hsource, htarget]
    decide

theorem waits_ended {used : List FxMarketQuote} {outcome : Result ResolvedMoney} {now : ℤ} :
    Waits resolver (ended request used outcome now) := by
  cases outcome with
  | error raised => exact True.intro
  | ok resolved => exact True.intro

/-- How a call begins. -/
theorem begin_spec (query : FxQuery) (now : Instant) :
    Waits resolver (resolver.begin query now) ∧ resolver.Answered (resolver.begin query now) := by
  unfold begin
  cases query.accept with
  | error raised => exact ⟨True.intro, True.intro⟩
  | ok request =>
    simp only
    cases resolver.config.enabled with
    | false => exact ⟨True.intro, True.intro⟩
    | true =>
      rw [if_neg (by decide)]
      by_cases hsame : request.source = request.target
      · rw [if_pos hsame]
        exact ⟨waits_ended, answered_identity hsame⟩
      · rw [if_neg hsame]
        by_cases hpair : request.between "IRT" "IRR" = true
        · rw [if_pos hpair]
          exact ⟨waits_ended, answered_exactIrtIrr hpair⟩
        · rw [if_neg hpair]
          cases hproxy : resolver.requireProxy request with
          | error raised => exact ⟨True.intro, True.intro⟩
          | ok u =>
            cases hbases : request.bases with
            | error raised => exact ⟨True.intro, True.intro⟩
            | ok bases =>
              cases bases with
              | nil => exact ⟨True.intro, True.intro⟩
              | cons base later =>
                refine ⟨⟨hbases, (fun _ hquote ↦ nomatch hquote), fun husd ↦ ?_⟩, True.intro⟩
                have hallowed := rejectIf_eq_ok.mp hproxy
                simpa [husd] using hallowed

/-- Every conversion that the calls of a run return is settled by quotes of its markets that are not too
old, exactly if no call completes a conversion with a quote that has become too old while it waited for
the second quote of a cross rate or for the cache to keep a live one. -/
theorem conversions_settled (resolver : FxResolver)
    (events : List (Transition.Stretch (FxQuery × Instant) FxAnswer)) :
    Throughout (Overlap.step resolver.calls) (Overlap.Every resolver.Answered) initial events ↔
      Along (Overlap.step resolver.calls)
        (Overlap.Asks (fun _ _ ↦ True) resolver.HeldInTime) initial events := by
  refine Overlap.throughout_every_iff (Waits resolver) ?_ ?_ ?_ ?_ events initial
    (Overlap.every_initial _ _) (Overlap.every_initial _ _)
  · exact fun _ _ asked ↦ (begin_spec asked.1 asked.2).1
  · exact fun locks call status answer h ↦ waits_carryOn (sound_quoteStretch locks status answer h)
  · exact fun _ _ asked ↦ iff_true_intro (begin_spec asked.1 asked.2).2
  · exact answered_resume_iff

end Runs

/-! ### Quotes that grow too old -/

namespace LateQuotes

/-- The default policy, but with the proxy allowed for settlements. -/
def resolver : FxResolver where
  config := ⟨true, 60, 300, 30, true, true, by decide, by decide, by decide, by decide⟩
  sourceName := "abantether"

theorem inRange_noonAnd (seconds : Fin 60) :
    Calendar.InRange (1790164800000000 + seconds * 1000000) := by
  simp only [Calendar.InRange, Calendar.minInstant, Calendar.maxInstant]
  omega

/-- Noon and some seconds. -/
def noonAnd (seconds : Fin 60) : Instant :=
  ⟨1790164800000000 + seconds * 1000000, inRange_noonAnd seconds⟩

theorem normalizeCurrency_eur : normalizeCurrency "EUR" = .ok "EUR" := by decide +kernel

/-- A quote that was observed at noon. -/
def eurIrt : FxMarketQuote where
  baseCurrency := "EUR"
  quoteCurrency := "IRT"
  buyRate := .ofNat 100000
  sellRate := .ofNat 99000
  source := "abantether"
  sourceMarket := "EURIRT"
  observedAt := (noonAnd 0).val
  expiresAt := (noonAnd 0).val + 60 * second
  constructedAt := (noonAnd 0).val
  base_normal := normalizeCurrency_eur
  quote_normal := by decide +kernel
  buyRate_pos := by decide
  sellRate_pos := by decide
  source_ne := by decide +kernel
  market_ne := by decide +kernel
  asset_of_proxy := by decide +kernel
  lives := by decide
  observed := by decide
  observedAt_range := by decide
  expiresAt_range := by decide

/-- The quote of the proxy, observed half a minute later. -/
def usdtIrt : FxMarketQuote where
  baseCurrency := "USDT"
  quoteCurrency := "IRT"
  buyRate := .ofNat 80000
  sellRate := .ofNat 79000
  source := "abantether"
  sourceMarket := "USDTIRT"
  observedAt := (noonAnd 30).val
  expiresAt := (noonAnd 30).val + 60 * second
  constructedAt := (noonAnd 30).val
  base_normal := by decide +kernel
  quote_normal := by decide +kernel
  buyRate_pos := by decide
  sellRate_pos := by decide
  source_ne := by decide +kernel
  market_ne := by decide +kernel
  asset_of_proxy := by decide +kernel
  lives := by decide
  observed := by decide
  observedAt_range := by decide
  expiresAt_range := by decide

/-- A charge of 100 EUR in IRT: the live quote is 29 seconds old, and the cache takes two seconds. -/
def slowWrite : List (Transition.Stretch (FxQuery × Instant) FxAnswer) :=
  [.start 0 (⟨10000, "EUR", "IRT", .charge⟩, noonAnd 29), .resume 0 (.cached .raised (noonAnd 29)),
    .resume 0 .acquired, .resume 0 (.cached .raised (noonAnd 29)),
    .resume 0 (.fetched (.quote eurIrt) (noonAnd 29)), .resume 0 (.put (noonAnd 31))]

/-- A charge of 100 EUR in USD: the first quote is cached and 29 seconds old, and the second one is found
two seconds later. -/
def slowLeg : List (Transition.Stretch (FxQuery × Instant) FxAnswer) :=
  [.start 0 (⟨10000, "EUR", "USD", .charge⟩, noonAnd 29),
    .resume 0 (.cached (.quote eurIrt) (noonAnd 29)),
    .resume 0 (.cached (.quote usdtIrt) (noonAnd 31))]

/-- Both charges are settled at a rate that is 31 seconds old, where 30 are allowed. -/
theorem late_quotes :
    ¬ Throughout (Overlap.step resolver.calls) (Overlap.Every resolver.Answered) initial slowWrite ∧
      ¬ Throughout (Overlap.step resolver.calls) (Overlap.Every resolver.Answered) initial
        slowLeg := by
  constructor
  · intro h
    have hlast := (throughout_iff_forall_take _ _ _ _).mp h 6 0
    exact absurd hlast (by decide +kernel)
  · intro h
    have hlast := (throughout_iff_forall_take _ _ _ _).mp h 3 0
    exact absurd hlast (by decide +kernel)

end LateQuotes

end FxResolver

end CloudPlatform.Fx
