import CloudPlatform.Compute.CreateServer

/-!
# The catalog cache

`CatalogCache` stands before a repository of the same port: it keeps the offers that it read, and a
write that returns drops them all. The calls run on one event loop, so a call is a chain of events,
one for each stretch between two suspensions; the repository acts at an event of its own.
-/

namespace CloudPlatform.Catalog

open Compute (OfferRef)
open Rows (Table)

/-- `CatalogEntrySpec`, as far as an offer shows it. -/
structure CatalogEntrySpec where
  providerKey : String
  planId : String
  locationId : String
  name : String
  currency : String
  pricePerQuantum : ℤ
  deriving DecidableEq

/-- Current visibility state of one offer. -/
structure OfferState where
  id : Uuid
  ref : OfferRef
  name : String
  enabled : Bool
  pricePerQuantum : ℤ
  currency : String
  deriving DecidableEq

/-- The mutations of the port. -/
inductive CatalogWrite where
  | upsertEntry (spec : CatalogEntrySpec)
  | setOfferEnabled (ref : OfferRef) (enabled : Bool)
  deriving DecidableEq

/-- The repository behind the cache: what it holds for a reference, and the effect of a write. -/
structure CatalogRepository (σ : Type) where
  getOffer : σ → OfferRef → Option OfferState
  write : CatalogWrite → σ → σ

/-- A cached offer, under the key of its reference. -/
structure CacheEntry where
  key : String
  value : Option OfferState
  epoch : ℕ
  loadedAt : ℤ

/-- The state of the cache; times are readings of its clock. -/
structure CatalogCache where
  ttl : ℤ
  epoch : ℕ := 0
  entries : Table CacheEntry.key := ⟨[], List.nodup_nil⟩
  hits : ℕ := 0
  misses : ℕ := 0
  invalidations : ℕ := 0

namespace CatalogCache

variable (cache : CatalogCache)

/-- The entry that `get_offer` may answer with. -/
def lookup (ref : OfferRef) (now : ℤ) : Option CacheEntry :=
  (cache.entries.get ref.key).filter fun entry ↦
    entry.epoch = cache.epoch ∧ now - entry.loadedAt < cache.ttl

/-- The end of a fetch: the value is kept unless the epoch has changed since. -/
def store (ref : OfferRef) (epochBefore : ℕ) (value : Option OfferState) (now : ℤ) : CatalogCache :=
  if 0 < cache.ttl ∧ cache.epoch = epochBefore then
    { cache with entries := cache.entries.put ⟨ref.key, value, cache.epoch, now⟩ }
  else cache

/-- `invalidate`. -/
def invalidate (ref : Option OfferRef) : CatalogCache where
  ttl := cache.ttl
  epoch := cache.epoch + 1
  entries := match ref with
    | none => ⟨[], List.nodup_nil⟩
    | some ref => cache.entries.erase ref.key
  hits := cache.hits
  misses := cache.misses
  invalidations := cache.invalidations + 1

end CatalogCache

/-! ### Calls -/

/-- Where a call through the cache stands. -/
inductive CacheCall where
  /-- A `get_offer` that waits for the repository, which has answered or not. -/
  | fetching (ref : OfferRef) (epochBefore : ℕ) (answer : Option (Option OfferState))
  /-- A write that waits for the repository, which has carried it out or not. -/
  | writing (write : CatalogWrite) (effected : Bool)
  | got (value : Option OfferState)
  | wrote
  | raised
  deriving DecidableEq

/-- The cache, what the repository holds, and the calls made so far. -/
structure CacheState (σ : Type) where
  cache : CatalogCache
  held : σ
  calls : ℕ → Option CacheCall := fun _ ↦ none

/-- One stretch of a call, or one action of the repository. -/
inductive CacheEvent where
  | get (call : ℕ) (ref : OfferRef) (now : ℤ)
  | read (call : ℕ)
  | fetched (call : ℕ) (now : ℤ)
  | write (call : ℕ) (write : CatalogWrite)
  | effect (call : ℕ)
  | written (call : ℕ)
  | failed (call : ℕ)
  | invalidate (ref : Option OfferRef)

namespace CacheState

variable {σ : Type}

/-- The state with a call set. -/
def setCall (s : CacheState σ) (call : ℕ) (status : CacheCall) : CacheState σ :=
  { s with calls := Function.update s.calls call (some status) }

/-- `get_offer` up to the repository's call, or to its end if the offer is cached. -/
def get (s : CacheState σ) (call : ℕ) (ref : OfferRef) (now : ℤ) : CacheState σ :=
  match s.cache.lookup ref now with
  | some entry =>
    { s with cache := { s.cache with hits := s.cache.hits + 1 } }.setCall call (.got entry.value)
  | none =>
    { s with cache := { s.cache with misses := s.cache.misses + 1 } }.setCall call
      (.fetching ref s.cache.epoch none)

/-- An event of one call; an event that the call is not waiting for does nothing. -/
def step (inner : CatalogRepository σ) (s : CacheState σ) : CacheEvent → CacheState σ
  | .get call ref now => if s.calls call = none then s.get call ref now else s
  | .read call =>
    match s.calls call with
    | some (.fetching ref epochBefore none) =>
      s.setCall call (.fetching ref epochBefore (some (inner.getOffer s.held ref)))
    | _ => s
  | .fetched call now =>
    match s.calls call with
    | some (.fetching ref epochBefore (some value)) =>
      { s with cache := s.cache.store ref epochBefore value now }.setCall call (.got value)
    | _ => s
  | .write call write => if s.calls call = none then s.setCall call (.writing write false) else s
  | .effect call =>
    match s.calls call with
    | some (.writing write false) =>
      { s with held := inner.write write s.held }.setCall call (.writing write true)
    | _ => s
  | .written call =>
    match s.calls call with
    | some (.writing _ true) =>
      { s with cache := s.cache.invalidate none }.setCall call .wrote
    | _ => s
  | .failed call =>
    match s.calls call with
    | some (.fetching _ _ _) => s.setCall call .raised
    | some (.writing _ _) => s.setCall call .raised
    | _ => s
  | .invalidate ref => { s with cache := s.cache.invalidate ref }

end CacheState

end CloudPlatform.Catalog
