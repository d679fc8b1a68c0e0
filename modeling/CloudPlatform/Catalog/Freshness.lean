import CloudPlatform.Catalog.Cache
import Mathlib.Algebra.Order.Group.Nat
import Mathlib.Tactic.IntervalCases

/-!
# Reads after a write

A `get_offer` that starts after a write has ended is to see what the repository held at the write's
effect or later. Two things can spoil it: a write that raises after its effect, which leaves the
cache as it was, and two references that are one key. `freshReads` says that nothing else can.
-/

namespace CloudPlatform.Catalog

open Compute (OfferRef)
open Rows (Table)
open Transition (Along run run_take_succ)

section Statement

variable {σ : Type} (inner : CatalogRepository σ) (start : CacheState σ) (events : List CacheEvent)

/-- The state before the event at a place of the run. -/
def moment (n : ℕ) : CacheState σ :=
  run (CacheState.step inner) start (events.take n)

/-- What a `get_offer` returns that starts after a write has ended, the repository held for its
reference at a moment after the write's effect. -/
def FreshReads : Prop :=
  ∀ (write effected : ℕ) (mutation : CatalogWrite) (call asked seen : ℕ) (ref : OfferRef) (now : ℤ)
    (value : Option OfferState),
    (moment inner start events effected).calls write = some (.writing mutation false) →
    events[effected]? = some (.effect write) → effected < asked →
    (moment inner start events asked).calls write ∈ [some .wrote, some .raised] →
    (moment inner start events asked).calls call = none →
    events[asked]? = some (.get call ref now) → asked < seen →
    (moment inner start events seen).calls call = some (.got value) →
    ∃ held, effected < held ∧ held ≤ seen ∧
      inner.getOffer (moment inner start events held).held ref = value

/-- The event is the failure of a write that the repository has carried out. -/
def lateFailure (s : CacheState σ) : CacheEvent → Bool
  | .failed call =>
    match s.calls call with
    | some (.writing _ true) => true
    | _ => false
  | _ => false

/-- The references that the run asks for. -/
def refsAsked : List OfferRef :=
  events.filterMap fun event ↦
    match event with
    | .get _ ref _ => some ref
    | _ => none

/-- No two references of the run have one key. -/
def DistinctKeys : Prop :=
  ∀ first ∈ refsAsked events, ∀ second ∈ refsAsked events, first.key = second.key → first = second

instance : Decidable (DistinctKeys events) :=
  inferInstanceAs (Decidable (∀ first ∈ refsAsked events, ∀ second ∈ refsAsked events, _ → _))

end Statement

section Invariants

variable {σ : Type} {inner : CatalogRepository σ} {s next : CacheState σ} {event : CacheEvent}

@[simp] theorem calls_setCall (s : CacheState σ) (call other : ℕ) (status : CacheCall) :
    (s.setCall call status).calls other = if other = call then some status else s.calls other := by
  exact Function.update_apply s.calls call (some status) other

@[simp] theorem cache_setCall (s : CacheState σ) (call : ℕ) (status : CacheCall) :
    (s.setCall call status).cache = s.cache :=
  rfl

/-- What an event can do to the state. -/
inductive Stepped (inner : CatalogRepository σ) (s : CacheState σ) :
    CacheEvent → CacheState σ → Prop where
  | idle {event : CacheEvent} : Stepped inner s event s
  | hit {call : ℕ} {ref : OfferRef} {now : ℤ} {entry : CacheEntry} (hcall : s.calls call = none)
      (hentry : s.cache.lookup ref now = some entry) :
      Stepped inner s (.get call ref now)
        ({ s with cache := { s.cache with hits := s.cache.hits + 1 } }.setCall call
          (.got entry.value))
  | miss {call : ℕ} {ref : OfferRef} {now : ℤ} (hcall : s.calls call = none) :
      Stepped inner s (.get call ref now)
        ({ s with cache := { s.cache with misses := s.cache.misses + 1 } }.setCall call
          (.fetching ref s.cache.epoch none))
  | read {call : ℕ} {ref : OfferRef} {epochBefore : ℕ}
      (hcall : s.calls call = some (.fetching ref epochBefore none)) :
      Stepped inner s (.read call)
        (s.setCall call (.fetching ref epochBefore (some (inner.getOffer s.held ref))))
  | fetched {call : ℕ} {now : ℤ} {ref : OfferRef} {epochBefore : ℕ} {value : Option OfferState}
      (hcall : s.calls call = some (.fetching ref epochBefore (some value))) :
      Stepped inner s (.fetched call now)
        ({ s with cache := s.cache.store ref epochBefore value now }.setCall call (.got value))
  | write {call : ℕ} {mutation : CatalogWrite} (hcall : s.calls call = none) :
      Stepped inner s (.write call mutation) (s.setCall call (.writing mutation false))
  | effect {call : ℕ} {mutation : CatalogWrite}
      (hcall : s.calls call = some (.writing mutation false)) :
      Stepped inner s (.effect call)
        ({ s with held := inner.write mutation s.held }.setCall call (.writing mutation true))
  | written {call : ℕ} {mutation : CatalogWrite}
      (hcall : s.calls call = some (.writing mutation true)) :
      Stepped inner s (.written call)
        ({ s with cache := s.cache.invalidate none }.setCall call .wrote)
  | failed {call : ℕ} (hcall : (∃ ref epochBefore answer,
        s.calls call = some (.fetching ref epochBefore answer)) ∨
          ∃ mutation effected, s.calls call = some (.writing mutation effected)) :
      Stepped inner s (.failed call) (s.setCall call .raised)
  | invalidate {ref : Option OfferRef} :
      Stepped inner s (.invalidate ref) { s with cache := s.cache.invalidate ref }

theorem stepped (inner : CatalogRepository σ) (s : CacheState σ) (event : CacheEvent) :
    Stepped inner s event (s.step inner event) := by
  cases event with
  | get call ref now =>
    by_cases hcall : s.calls call = none
    · rw [CacheState.step, if_pos hcall, CacheState.get]
      cases hentry : s.cache.lookup ref now with
      | none => exact .miss hcall
      | some entry => exact .hit hcall hentry
    · rw [CacheState.step, if_neg hcall]
      exact .idle
  | read call =>
    rw [CacheState.step]
    split
    · exact .read ‹_›
    · exact .idle
  | fetched call now =>
    rw [CacheState.step]
    split
    · exact .fetched ‹_›
    · exact .idle
  | write call mutation =>
    by_cases hcall : s.calls call = none
    · rw [CacheState.step, if_pos hcall]
      exact .write hcall
    · rw [CacheState.step, if_neg hcall]
      exact .idle
  | effect call =>
    rw [CacheState.step]
    split
    · exact .effect ‹_›
    · exact .idle
  | written call =>
    rw [CacheState.step]
    split
    · exact .written ‹_›
    · exact .idle
  | failed call =>
    rw [CacheState.step]
    split
    · exact .failed (Or.inl ⟨_, _, _, ‹_›⟩)
    · exact .failed (Or.inr ⟨_, _, ‹_›⟩)
    · exact .idle
  | invalidate ref => exact .invalidate

/-- The epochs that the entries and the fetches carry. -/
structure Bounded (s : CacheState σ) : Prop where
  entries : ∀ entry ∈ s.cache.entries.rows, entry.epoch ≤ s.cache.epoch
  fetches : ∀ call ref epochBefore answer,
    s.calls call = some (.fetching ref epochBefore answer) → epochBefore ≤ s.cache.epoch

/-- What is cached, or about to be, is good for its reference. -/
structure Settled (refs : List OfferRef) (good : OfferRef → Option OfferState → Prop)
    (s : CacheState σ) : Prop where
  entries : ∀ entry ∈ s.cache.entries.rows, entry.epoch = s.cache.epoch →
    ∃ ref ∈ refs, ref.key = entry.key ∧ good ref entry.value
  fetches : ∀ call ref answer,
    s.calls call = some (.fetching ref s.cache.epoch answer) →
      ref ∈ refs ∧ ∀ value ∈ answer, good ref value

theorem mem_entries_store {cache : CatalogCache} {ref : OfferRef} {epochBefore : ℕ}
    {value : Option OfferState} {now : ℤ} {entry : CacheEntry}
    (h : entry ∈ (cache.store ref epochBefore value now).entries.rows) :
    entry ∈ cache.entries.rows ∨
      epochBefore = cache.epoch ∧ entry = ⟨ref.key, value, cache.epoch, now⟩ := by
  unfold CatalogCache.store at h
  split_ifs at h with hsame
  · rcases Table.mem_put.mp h with hnew | ⟨hold, -⟩
    · exact Or.inr ⟨hsame.2.symm, hnew⟩
    · exact Or.inl hold
  · exact Or.inl h

@[simp] theorem epoch_store (cache : CatalogCache) (ref : OfferRef) (epochBefore : ℕ)
    (value : Option OfferState) (now : ℤ) :
    (cache.store ref epochBefore value now).epoch = cache.epoch := by
  unfold CatalogCache.store
  split_ifs <;> rfl

theorem mem_entries_invalidate {cache : CatalogCache} {ref : Option OfferRef} {entry : CacheEntry}
    (h : entry ∈ (cache.invalidate ref).entries.rows) : entry ∈ cache.entries.rows := by
  cases ref with
  | none => cases h
  | some ref => exact (Table.mem_erase.mp h).1

/-! ### Epochs -/

theorem Bounded.setCall (h : Bounded s) {call : ℕ} {status : CacheCall}
    (hstatus : ∀ ref epochBefore answer, status = .fetching ref epochBefore answer →
      epochBefore ≤ s.cache.epoch) : Bounded (s.setCall call status) := by
  refine ⟨h.entries, fun other ref epochBefore answer hother ↦ ?_⟩
  rw [calls_setCall] at hother
  split_ifs at hother with hsame
  · exact hstatus ref epochBefore answer (Option.some.inj hother)
  · exact h.fetches other ref epochBefore answer hother

/-- Invalidation keeps the epochs, which only grow. -/
theorem Bounded.invalidate (h : Bounded s) (ref : Option OfferRef) :
    Bounded { s with cache := s.cache.invalidate ref } := by
  constructor
  · intro entry hentry
    exact (h.entries entry (mem_entries_invalidate hentry)).trans (Nat.le_succ _)
  · intro call ref epochBefore answer hcall
    exact (h.fetches call ref epochBefore answer hcall).trans (Nat.le_succ _)

theorem Bounded.stepped (h : Bounded s) (hstep : Stepped inner s event next) : Bounded next := by
  cases hstep with
  | idle => exact h
  | hit =>
    refine Bounded.setCall ?_ fun _ _ _ hstatus ↦ nomatch hstatus
    exact ⟨h.entries, h.fetches⟩
  | miss =>
    refine Bounded.setCall ?_ fun ref epochBefore answer hstatus ↦ ?_
    · exact ⟨h.entries, h.fetches⟩
    · cases hstatus
      exact le_refl _
  | read hcall =>
    refine h.setCall fun ref epochBefore answer hstatus ↦ ?_
    cases hstatus
    exact h.fetches _ _ _ _ hcall
  | fetched hcall =>
    refine Bounded.setCall ⟨fun entry hentry ↦ ?_, ?_⟩ fun _ _ _ hstatus ↦ nomatch hstatus
    · rw [epoch_store]
      rcases mem_entries_store hentry with hold | ⟨-, rfl⟩
      · exact h.entries entry hold
      · exact le_refl _
    · rw [epoch_store]
      exact h.fetches
  | write => exact h.setCall fun _ _ _ hstatus ↦ nomatch hstatus
  | effect =>
    refine Bounded.setCall ?_ fun _ _ _ hstatus ↦ nomatch hstatus
    exact ⟨h.entries, h.fetches⟩
  | written => exact (h.invalidate none).setCall fun _ _ _ hstatus ↦ nomatch hstatus
  | failed => exact h.setCall fun _ _ _ hstatus ↦ nomatch hstatus
  | invalidate => exact h.invalidate _

/-! ### Good entries -/

variable {refs : List OfferRef} {good : OfferRef → Option OfferState → Prop}

theorem Settled.setCall (h : Settled refs good s) {call : ℕ} {status : CacheCall}
    (hstatus : ∀ ref answer, status = .fetching ref s.cache.epoch answer →
      ref ∈ refs ∧ ∀ value ∈ answer, good ref value) :
    Settled refs good (s.setCall call status) := by
  refine ⟨h.entries, fun other ref answer hother ↦ ?_⟩
  rw [calls_setCall] at hother
  split_ifs at hother with hsame
  · exact hstatus ref answer (Option.some.inj hother)
  · exact h.fetches other ref answer hother

/-- After an invalidation nothing is cached of the new epoch, and nothing fetched. -/
theorem settled_invalidate (h : Bounded s) (ref : Option OfferRef) :
    Settled refs good { s with cache := s.cache.invalidate ref } := by
  constructor
  · intro entry hentry hepoch
    have hle := h.entries entry (mem_entries_invalidate hentry)
    have hnew : entry.epoch = s.cache.epoch + 1 := hepoch
    omega
  · intro call ref answer hcall
    have hle : s.cache.epoch + 1 ≤ s.cache.epoch := h.fetches call ref _ answer hcall
    omega

/-- While the repository holds what is good, so does the cache. -/
theorem Settled.stepped (h : Settled refs good s) (hbounded : Bounded s)
    (hheld : ∀ ref, good ref (inner.getOffer s.held ref))
    (hasked : ∀ call ref now, event = .get call ref now → ref ∈ refs)
    (hstep : Stepped inner s event next) : Settled refs good next := by
  cases hstep with
  | idle => exact h
  | hit =>
    refine Settled.setCall ?_ fun _ _ hstatus ↦ nomatch hstatus
    exact ⟨h.entries, h.fetches⟩
  | miss =>
    refine Settled.setCall ?_ fun ref answer hstatus ↦ ?_
    · exact ⟨h.entries, h.fetches⟩
    · cases hstatus
      exact ⟨hasked _ _ _ rfl, fun _ hvalue ↦ nomatch hvalue⟩
  | read hcall =>
    refine h.setCall fun ref answer hstatus ↦ ?_
    cases hstatus
    refine ⟨(h.fetches _ _ _ hcall).1, fun value hvalue ↦ ?_⟩
    rw [← Option.mem_some.mp hvalue]
    exact hheld _
  | fetched hcall =>
    refine Settled.setCall ⟨fun entry hentry hepoch ↦ ?_, ?_⟩ fun _ _ hstatus ↦ nomatch hstatus
    · rcases mem_entries_store hentry with hold | ⟨hsame, rfl⟩
      · rw [epoch_store] at hepoch
        exact h.entries entry hold hepoch
      · rw [hsame] at hcall
        obtain ⟨hmem, hgood⟩ := h.fetches _ _ _ hcall
        exact ⟨_, hmem, rfl, hgood _ rfl⟩
    · rw [epoch_store]
      exact h.fetches
  | write => exact h.setCall fun _ _ hstatus ↦ nomatch hstatus
  | effect =>
    refine Settled.setCall ?_ fun _ _ hstatus ↦ nomatch hstatus
    exact ⟨h.entries, h.fetches⟩
  | written => exact (settled_invalidate hbounded none).setCall fun _ _ hstatus ↦ nomatch hstatus
  | failed => exact h.setCall fun _ _ hstatus ↦ nomatch hstatus
  | invalidate => exact settled_invalidate hbounded _

/-- A cached answer is good when no other reference has its key. -/
theorem Settled.lookup (h : Settled refs good s)
    (hkeys : ∀ first ∈ refs, ∀ second ∈ refs, first.key = second.key → first = second)
    {ref : OfferRef} (href : ref ∈ refs) {now : ℤ} {entry : CacheEntry}
    (hentry : s.cache.lookup ref now = some entry) : good ref entry.value := by
  obtain ⟨hget, hfresh⟩ := Option.filter_eq_some_iff.mp hentry
  obtain ⟨hepoch, -⟩ := of_decide_eq_true hfresh
  obtain ⟨other, hother, hkey, hgood⟩ := h.entries entry (Table.mem_of_get hget) hepoch
  have hsame : other = ref := hkeys other hother ref href (hkey.trans (Table.key_of_get hget))
  rw [← hsame]
  exact hgood

/-! ### Two calls -/

/-- After its effect a write waits, or it has returned and the cache is good. -/
def Written (refs : List OfferRef) (good : OfferRef → Option OfferState → Prop) (write : ℕ)
    (s : CacheState σ) : Prop :=
  (∃ mutation, s.calls write = some (.writing mutation true)) ∨
    s.calls write = some .wrote ∧ Settled refs good s

theorem Written.stepped {write : ℕ} (h : Written refs good write s) (hbounded : Bounded s)
    (hheld : ∀ ref, good ref (inner.getOffer s.held ref))
    (hasked : ∀ call ref now, event = .get call ref now → ref ∈ refs)
    (hlate : lateFailure s event = false) (hstep : Stepped inner s event next) :
    Written refs good write next := by
  have hkeep (hcalls : next.calls write = s.calls write) : Written refs good write next := by
    unfold Written
    rw [hcalls]
    exact h.imp id (And.imp_right fun hsettled ↦ hsettled.stepped hbounded hheld hasked hstep)
  -- a call that is not at a stage after its effect is another one
  have hne {other : ℕ} (hother : ¬ Written refs good other s) : write ≠ other := by
    rintro rfl
    exact hother h
  cases hstep with
  | idle => exact h
  | hit hcall =>
    exact hkeep (by rw [calls_setCall, if_neg (hne (by simp [Written, hcall]))])
  | miss hcall =>
    exact hkeep (by rw [calls_setCall, if_neg (hne (by simp [Written, hcall]))])
  | read hcall =>
    exact hkeep (by rw [calls_setCall, if_neg (hne (by simp [Written, hcall]))])
  | fetched hcall =>
    exact hkeep (by rw [calls_setCall, if_neg (hne (by simp [Written, hcall]))])
  | write hcall =>
    exact hkeep (by rw [calls_setCall, if_neg (hne (by simp [Written, hcall]))])
  | effect hcall =>
    exact hkeep (by rw [calls_setCall, if_neg (hne (by simp [Written, hcall]))])
  | @written call mutation hcall =>
    by_cases hsame : write = call
    · refine Or.inr ⟨by rw [calls_setCall, if_pos hsame], ?_⟩
      exact (settled_invalidate hbounded none).setCall fun _ _ hstatus ↦ nomatch hstatus
    · exact hkeep (by rw [calls_setCall, if_neg hsame])
  | @failed call hcall =>
    -- a write that fails here has no effect yet, so it is not this one
    have hother : ¬ Written refs good call s := by
      rcases hcall with ⟨ref, epochBefore, answer, hcall⟩ | ⟨mutation, effected, hcall⟩
      · simp [Written, hcall]
      · cases effected with
        | false => simp [Written, hcall]
        | true =>
          rw [lateFailure, hcall] at hlate
          cases hlate
    exact hkeep (by rw [calls_setCall, if_neg (hne hother)])
  | invalidate => exact hkeep rfl

/-- What has come of a `get_offer` is good. -/
def Answered (good : OfferRef → Option OfferState → Prop) (call : ℕ) (ref : OfferRef)
    (s : CacheState σ) : Prop :=
  match s.calls call with
  | some (.fetching asked _ answer) => asked = ref ∧ ∀ value ∈ answer, good ref value
  | some (.got value) => good ref value
  | some .raised => True
  | _ => False

theorem Answered.stepped {call : ℕ} {ref : OfferRef} (h : Answered good call ref s)
    (hheld : ∀ ref, good ref (inner.getOffer s.held ref)) (hstep : Stepped inner s event next) :
    Answered good call ref next := by
  have hkeep (hcalls : next.calls call = s.calls call) : Answered good call ref next := by
    unfold Answered
    rw [hcalls]
    exact h
  -- a call that cannot be answered is another one
  have hne {other : ℕ} (hother : ¬ Answered good other ref s) : call ≠ other := by
    rintro rfl
    exact hother h
  cases hstep with
  | idle => exact h
  | hit hcall => exact hkeep (by rw [calls_setCall, if_neg (hne (by simp [Answered, hcall]))])
  | miss hcall => exact hkeep (by rw [calls_setCall, if_neg (hne (by simp [Answered, hcall]))])
  | @read other asked epochBefore hcall =>
    by_cases hsame : call = other
    · subst hsame
      rw [Answered, hcall] at h
      unfold Answered
      rw [calls_setCall, if_pos rfl]
      refine ⟨h.1, fun value hvalue ↦ ?_⟩
      rw [← Option.mem_some.mp hvalue, h.1]
      exact hheld ref
    · exact hkeep (by rw [calls_setCall, if_neg hsame])
  | @fetched other now asked epochBefore value hcall =>
    by_cases hsame : call = other
    · subst hsame
      rw [Answered, hcall] at h
      unfold Answered
      rw [calls_setCall, if_pos rfl]
      exact h.2 value rfl
    · exact hkeep (by rw [calls_setCall, if_neg hsame])
  | write hcall => exact hkeep (by rw [calls_setCall, if_neg (hne (by simp [Answered, hcall]))])
  | effect hcall => exact hkeep (by rw [calls_setCall, if_neg (hne (by simp [Answered, hcall]))])
  | written hcall => exact hkeep (by rw [calls_setCall, if_neg (hne (by simp [Answered, hcall]))])
  | @failed other hcall =>
    by_cases hsame : call = other
    · unfold Answered
      rw [calls_setCall, if_pos hsame]
      trivial
    · exact hkeep (by rw [calls_setCall, if_neg hsame])
  | invalidate => exact hkeep rfl

end Invariants

/-! ### Runs -/

section Runs

variable {σ : Type} {inner : CatalogRepository σ} {start : CacheState σ} {events : List CacheEvent}

/-- The event at a place of the run, if there is one, takes its moment to the next. -/
theorem stepped_moment (inner : CatalogRepository σ) (start : CacheState σ)
    (events : List CacheEvent) (n : ℕ) :
    moment inner start events (n + 1) = moment inner start events n ∨ ∃ event,
      events[n]? = some event ∧
      Stepped inner (moment inner start events n) event (moment inner start events (n + 1)) := by
  unfold moment
  rw [run_take_succ]
  cases hevent : events[n]? with
  | none => exact Or.inl rfl
  | some event => exact Or.inr ⟨event, rfl, stepped inner _ event⟩

/-- What every step keeps from one moment on, while it holds of the moments up to another. -/
theorem kept_between {property : CacheState σ → Prop} (first last : ℕ)
    (hfirst : property (moment inner start events first))
    (hstep : ∀ n event next, first ≤ n → n < last → events[n]? = some event →
      property (moment inner start events n) →
      Stepped inner (moment inner start events n) event next → property next) {n : ℕ}
    (hle : first ≤ n) (hn : n ≤ last) : property (moment inner start events n) := by
  induction n, hle using Nat.le_induction with
  | base => exact hfirst
  | succ n hle ih =>
    have hprevious := ih (Nat.le_of_succ_le hn)
    rcases stepped_moment inner start events n with
      hidle | ⟨event, hevent, hnext⟩
    · rw [hidle]
      exact hprevious
    · exact hstep n event _ hle hn hevent hprevious hnext

theorem bounded_moment (hstart : Bounded start) (n : ℕ) : Bounded (moment inner start events n) :=
  kept_between 0 n hstart (fun _ _ _ _ _ _ h hstep ↦ h.stepped hstep) (Nat.zero_le n)
    (le_refl n)

theorem mem_refsAsked {n call : ℕ} {ref : OfferRef} {now : ℤ}
    (h : events[n]? = some (.get call ref now)) : ref ∈ refsAsked events :=
  List.mem_filterMap.mpr ⟨_, List.mem_of_getElem? h, rfl⟩

/-- In a run in which no write raises after its effect and no two references have one key, a
`get_offer` that starts after a write has ended returns what the repository held for its reference
at the write's effect or later. -/
theorem freshReads (inner : CatalogRepository σ) (held : σ) (ttl : ℤ) (events : List CacheEvent)
    (hlate : Along (CacheState.step inner) (fun s event ↦ lateFailure s event = false)
      ⟨{ ttl := ttl }, held, fun _ ↦ none⟩ events)
    (hkeys : DistinctKeys events) :
    FreshReads inner ⟨{ ttl := ttl }, held, fun _ ↦ none⟩ events := by
  intro write effected mutation call asked seen ref now value hwriting heffect hlt hended hfree
    hget hseen hgot
  generalize hstart : (⟨{ ttl := ttl }, held, fun _ ↦ none⟩ : CacheState σ) = start at *
  let good (ref : OfferRef) (value : Option OfferState) : Prop :=
    ∃ held, effected < held ∧ held ≤ seen ∧
      inner.getOffer (moment inner start events held).held ref = value
  have hheld (n : ℕ) (hfirst : effected + 1 ≤ n) (hlast : n ≤ seen) (ref : OfferRef) :
      good ref (inner.getOffer (moment inner start events n).held ref) :=
    ⟨n, hfirst, hlast, rfl⟩
  have hbounded (n : ℕ) : Bounded (moment inner start events n) := by
    refine bounded_moment ?_ n
    rw [← hstart]
    exact ⟨fun entry hentry ↦ (nomatch hentry), fun _ _ _ _ hcall ↦ (nomatch hcall)⟩
  -- after its effect, and until it has ended
  have hwritten : Written (refsAsked events) good write (moment inner start events asked) := by
    refine kept_between (effected + 1) seen ?_ ?_ hlt hseen.le
    · refine Or.inl ⟨mutation, ?_⟩
      unfold moment
      rw [run_take_succ, heffect]
      simp only [Option.toList_some, Transition.run_cons, Transition.run_nil]
      rw [CacheState.step]
      rw [moment] at hwriting
      rw [hwriting]
      simp
    · intro n event next hfirst hlast hevent h hstep
      refine h.stepped (hbounded n) (hheld n hfirst hlast.le) ?_ (hlate.at hevent) hstep
      rintro _ _ _ rfl
      exact mem_refsAsked hevent
  have hsettled : Settled (refsAsked events) good (moment inner start events asked) := by
    rcases hwritten with ⟨mutation', hwaits⟩ | ⟨-, hsettled⟩
    · rw [hwaits] at hended
      simp at hended
    · exact hsettled
  have hanswered : Answered good call ref (moment inner start events (asked + 1)) := by
    have hnext : moment inner start events (asked + 1) =
        (moment inner start events asked).get call ref now := by
      rw [moment, run_take_succ, hget]
      exact if_pos hfree
    rw [hnext, CacheState.get]
    cases hentry : (moment inner start events asked).cache.lookup ref now with
    | none => simp [Answered]
    | some entry =>
      have hgood := hsettled.lookup hkeys (mem_refsAsked hget) hentry
      simpa [Answered] using hgood
  have hlast : Answered good call ref (moment inner start events seen) := by
    refine kept_between (asked + 1) seen hanswered ?_ hseen (le_refl seen)
    intro n event next hfirst hlast hevent h hstep
    exact h.stepped (hheld n (by omega) hlast.le) hstep
  rw [Answered, hgot] at hlast
  exact hlast

end Runs

/-! ### A catalog of one offer -/

namespace OneOffer

/-- A plan whose id has a slash. -/
def ref : OfferRef where
  providerKey := "vps"
  planId := "small/ssd"
  locationId := "fsn"
  providerKey_ne := by decide
  planId_ne := by decide
  locationId_ne := by decide

def offer : OfferState where
  id := ⟨"00000000-0000-0000-0000-000000000001", .refl true⟩
  ref := ref
  name := "Small"
  enabled := true
  pricePerQuantum := 500
  currency := "EUR"

/-- A repository of one row. -/
def inner : CatalogRepository OfferState where
  getOffer row ref := if row.ref = ref then some row else none
  write mutation row :=
    match mutation with
    | .upsertEntry spec =>
      if (row.ref.providerKey, row.ref.planId, row.ref.locationId) =
          (spec.providerKey, spec.planId, spec.locationId) then
        { row with
          name := spec.name
          currency := spec.currency
          pricePerQuantum := spec.pricePerQuantum }
      else row
    | .setOfferEnabled ref enabled =>
      if row.ref = ref then { row with enabled := enabled } else row

def start : CacheState OfferState :=
  ⟨{ ttl := 60 }, offer, fun _ ↦ none⟩

/-- A read and the write that hides the offer. -/
def hidden : List CacheEvent :=
  [.get 0 ref 0, .read 0, .fetched 0 0, .write 1 (.setOfferEnabled ref false), .effect 1]

/-- The hidden offer is read anew when its write has returned. -/
theorem freshReads_returned : FreshReads inner start (hidden ++ [.written 1, .get 2 ref 0, .read 2,
    .fetched 2 0]) :=
  freshReads inner offer 60 _ (by decide +kernel) (by decide +kernel)

/-- The offer is still shown after the write that hid it has raised. -/
theorem not_freshReads_raised : ¬ FreshReads inner start (hidden ++ [.failed 1, .get 2 ref 0]) := by
  intro h
  obtain ⟨held, hlt, hle, hsame⟩ := h 1 4 (.setOfferEnabled ref false) 2 6 7 ref 0 (some offer)
    (by decide +kernel) rfl (by decide) (by decide +kernel) (by decide +kernel) rfl (by decide)
    (by decide +kernel)
  interval_cases held <;> exact absurd hsame (by decide +kernel)

end OneOffer

end CloudPlatform.Catalog
