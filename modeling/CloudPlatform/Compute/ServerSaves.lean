import CloudPlatform.Compute.Domain
import CloudPlatform.Transition.Run

/-!
# The server row under concurrent passes

Every job loads the server, changes its own copy and saves it whole. The lifecycle table, the
containment rules and the paid-through watermark are checked on the copy and never against the row, and
`save` has no version or state check, so a pass that was overtaken takes back what the others have
persisted (`not_keepsRow_of_stale_save`). A run keeps to the table and loses no update exactly when
every save fits the row it meets (`keepsRow_iff_savesFit`).
-/

namespace CloudPlatform.Compute

open Transition

/-- The server aggregate with the columns that containment and deletion write. -/
structure ServerAggregate extends CloudServer where
  containedFrom : Option ServerLifecycleState := none
  deletedAt : Option ℤ := none
  deriving DecidableEq

/-- `CONTAINABLE_STATES`. -/
def containableStates : List ServerLifecycleState :=
  [.provisioning, .running, .stopped, .error, .deleteRequested, .deleting]

namespace ServerAggregate

/-- `CloudServer.transition_to`. -/
def moveTo (server : ServerAggregate) (target : ServerLifecycleState) : Result ServerAggregate := do
  let moved ← server.toCloudServer.transitionTo target
  return { server with toCloudServer := moved }

/-- `CloudServer.contain`. -/
def contain (server : ServerAggregate) : Result ServerAggregate :=
  if server.state = .manualReview then do
    rejectIf server.containedFrom.isNone .valueError
      "server under containment has no recorded prior state"
    return server
  else do
    rejectIf (server.state ∉ containableStates) .valueError
      s!"cannot contain server in state {server.state.value}"
    { server with containedFrom := some server.state }.moveTo .manualReview

/-- `CloudServer.release`. -/
def release (server : ServerAggregate) : Result ServerAggregate := do
  rejectIf (server.state ≠ .manualReview) .valueError
    s!"cannot release server in state {server.state.value}"
  match server.containedFrom with
  | none => raise .valueError "server under containment has no recorded prior state"
  | some target =>
    let moved ← server.moveTo target
    return { moved with containedFrom := none }

/-- The watermark as `AccrualJob._advance` moves it. -/
def advance (server : ServerAggregate) (periodEnd : ℤ) : ServerAggregate :=
  { server with
    lastAccruedAt := some (match server.lastAccruedAt with
      | none => periodEnd
      | some last => max last periodEnd) }

/-- The deletion fact as `DeleteOperationExecutor` writes it. -/
def markDeleted (server : ServerAggregate) (now : ℤ) : Result ServerAggregate := do
  let moved ← server.moveTo .deleted
  return { moved with deletedAt := some (server.deletedAt.getD now) }

/-- `SqlAlchemyServerRepository.save`: the row after a copy of it is saved. -/
def saved (row copy : ServerAggregate) (now : ℤ) : ServerAggregate where
  toCloudServer := row.toCloudServer.saved copy.toCloudServer now
  containedFrom := copy.containedFrom
  deletedAt := copy.deletedAt

end ServerAggregate

/-! ### Passes -/

/-- What a pass does to its own copy. -/
inductive ServerChange
  | transitionTo (target : ServerLifecycleState)
  | contain
  | release
  | advance (periodEnd : ℤ)
  | startBilling (now : ℤ)
  | attach (providerServerId : String)
  | markDeleted (now : ℤ)

/-- One change of a copy. -/
def ServerChange.apply (server : ServerAggregate) : ServerChange → Result ServerAggregate
  | .transitionTo target => server.moveTo target
  | .contain => server.contain
  | .release => server.release
  | .advance periodEnd => .ok (server.advance periodEnd)
  | .startBilling now =>
    .ok { server with billingStartedAt := some (server.billingStartedAt.getD now) }
  | .attach providerServerId => .ok { server with providerServerId := some providerServerId }
  | .markDeleted now => server.markDeleted now

/-- An in-memory copy: the row as it was loaded or last saved by this pass, the copy, and the states that
it has moved through since. -/
structure HeldServer where
  loaded : ServerAggregate
  server : ServerAggregate
  trail : List ServerLifecycleState := []
  deriving DecidableEq

/-- The persisted row and the copies of the passes. -/
structure Passes where
  row : ServerAggregate
  copies : List HeldServer := []

/-- A pass loads the row, changes its copy, or saves it. -/
inductive PassEvent
  | load
  | change (pass : ℕ) (change : ServerChange)
  | save (pass : ℕ) (now : ℤ)

/-- The states of a trail follow one another, from a state, along the lifecycle table. -/
def FollowsTable : ServerLifecycleState → List ServerLifecycleState → Prop
  | _, [] => True
  | state, next :: rest => next ∈ state.allowed ∧ FollowsTable next rest

namespace HeldServer

/-- A copy after a change; the move is remembered. -/
def moved (copy : HeldServer) (server : ServerAggregate) : HeldServer :=
  { copy with
    server := server
    trail := if server.state = copy.server.state then copy.trail else copy.trail ++ [server.state] }

end HeldServer

namespace Passes

/-- A change of one copy; a change that raises leaves it. -/
def transform (s : Passes) (pass : ℕ) (change : ServerChange) : Passes :=
  match s.copies[pass]? with
  | none => s
  | some copy =>
    match change.apply copy.server with
    | .ok server => { s with copies := s.copies.set pass (copy.moved server) }
    | .error _ => s

/-- A save of one copy. The pass goes on with its copy, and with the refreshed row. -/
def save (s : Passes) (pass : ℕ) (now : ℤ) : Passes :=
  match s.copies[pass]? with
  | none => s
  | some copy =>
    let row := s.row.saved copy.server now
    { row := row, copies := s.copies.set pass ⟨row, copy.server, []⟩ ++ [⟨row, row, []⟩] }

/-- One event. -/
def step (s : Passes) : PassEvent → Passes
  | .load => { s with copies := s.copies ++ [⟨s.row, s.row, []⟩] }
  | .change pass change => s.transform pass change
  | .save pass now => s.save pass now

end Passes

/-- The persisted state stays, moves along an edge of the table, or along the edges that the pass has
taken. -/
def MovesAlong (row : ServerAggregate) (copy : HeldServer) (after : ServerAggregate) : Prop :=
  after.state = row.state ∨ after.state ∈ row.state.allowed ∨
    FollowsTable row.state copy.trail ∧ copy.trail.getLast? = some after.state

/-- What a save may not take back. -/
structure KeepsFacts (row after : ServerAggregate) : Prop where
  providerServerId : row.providerServerId.isSome → after.providerServerId.isSome
  deletedAt : row.deletedAt.isSome → after.deletedAt.isSome
  lastAccruedAt : ∀ paid ∈ row.lastAccruedAt, ∃ later ∈ after.lastAccruedAt, paid ≤ later

/-- An event loses no update: a save moves the state along the table and takes nothing back. -/
def KeepsRow (s : Passes) (event : PassEvent) : Prop :=
  match event with
  | .save pass _ => ∀ copy, s.copies[pass]? = some copy →
    MovesAlong s.row copy (s.step event).row ∧ KeepsFacts s.row (s.step event).row
  | _ => (s.step event).row = s.row

/-- The copy was loaded from the row as it is, or what it writes is still harmless: a state that the row
may move to, a provider id and a deletion where the row has one, and no earlier watermark. -/
structure FitsRow (row : ServerAggregate) (copy : HeldServer) : Prop where
  state : row.state = copy.loaded.state ∨ copy.server.state = row.state ∨
    copy.server.state ∈ row.state.allowed ∨
      FollowsTable row.state copy.trail ∧ copy.trail.getLast? = some copy.server.state
  providerServerId : row.providerServerId = copy.loaded.providerServerId ∨
    (row.providerServerId.isSome → copy.server.providerServerId.isSome)
  deletedAt : row.deletedAt = copy.loaded.deletedAt ∨
    (row.deletedAt.isSome → copy.server.deletedAt.isSome)
  lastAccruedAt : row.lastAccruedAt = copy.loaded.lastAccruedAt ∨
    ∀ paid ∈ row.lastAccruedAt, ∃ later ∈ copy.server.lastAccruedAt, paid ≤ later

/-- The condition on one event: a save fits the row that it meets. -/
def SavesFit (s : Passes) : PassEvent → Prop
  | .save pass _ => ∀ copy, s.copies[pass]? = some copy → FitsRow s.row copy
  | _ => True

/-! ### What a pass makes of its copy -/

namespace KeepsFacts

theorem refl (server : ServerAggregate) : KeepsFacts server server :=
  ⟨id, id, fun paid hpaid ↦ ⟨paid, hpaid, le_refl paid⟩⟩

theorem trans {first second third : ServerAggregate} (h₁ : KeepsFacts first second)
    (h₂ : KeepsFacts second third) : KeepsFacts first third where
  providerServerId := h₂.providerServerId ∘ h₁.providerServerId
  deletedAt := h₂.deletedAt ∘ h₁.deletedAt
  lastAccruedAt paid hpaid := by
    obtain ⟨middle, hmiddle, hle⟩ := h₁.lastAccruedAt paid hpaid
    obtain ⟨later, hlater, hle'⟩ := h₂.lastAccruedAt middle hmiddle
    exact ⟨later, hlater, hle.trans hle'⟩

end KeepsFacts

section Changes

variable {server moved : ServerAggregate}

theorem moveTo_eq_ok {target : ServerLifecycleState} (h : server.moveTo target = .ok moved) :
    target ∈ server.state.allowed ∧ moved = { server with state := target } := by
  unfold ServerAggregate.moveTo CloudServer.transitionTo at h
  obtain ⟨inner, htransition, hmoved⟩ := bind_eq_ok.mp h
  obtain ⟨hallowed, hinner⟩ := rejectIf_bind_eq_ok.mp htransition
  obtain rfl := pure_eq_ok.mp hinner
  exact ⟨by simpa using hallowed, (pure_eq_ok.mp hmoved).symm⟩

/-- A change keeps the state or moves it along one edge, and takes nothing back. -/
theorem apply_eq_ok {change : ServerChange} (h : change.apply server = .ok moved) :
    (moved.state = server.state ∨ moved.state ∈ server.state.allowed) ∧ KeepsFacts server moved := by
  cases change with
  | transitionTo target =>
    obtain ⟨hallowed, rfl⟩ := moveTo_eq_ok h
    exact ⟨.inr hallowed, id, id, (KeepsFacts.refl server).lastAccruedAt⟩
  | contain =>
    simp only [ServerChange.apply, ServerAggregate.contain] at h
    by_cases hcontained : server.state = .manualReview
    · rw [if_pos hcontained] at h
      obtain ⟨-, hmoved⟩ := rejectIf_bind_eq_ok.mp h
      obtain rfl := pure_eq_ok.mp hmoved
      exact ⟨.inl rfl, .refl server⟩
    · rw [if_neg hcontained] at h
      obtain ⟨-, hmoved⟩ := rejectIf_bind_eq_ok.mp h
      obtain ⟨hallowed, rfl⟩ := moveTo_eq_ok hmoved
      exact ⟨.inr hallowed, id, id, (KeepsFacts.refl server).lastAccruedAt⟩
  | release =>
    obtain ⟨-, hrelease⟩ := rejectIf_bind_eq_ok.mp h
    cases hprior : server.containedFrom with
    | none =>
      rw [hprior] at hrelease
      exact absurd hrelease raise_ne_ok
    | some target =>
      rw [hprior] at hrelease
      obtain ⟨released, hreleased, hmoved⟩ := bind_eq_ok.mp hrelease
      obtain ⟨hallowed, rfl⟩ := moveTo_eq_ok hreleased
      obtain rfl := pure_eq_ok.mp hmoved
      exact ⟨.inr hallowed, id, id, (KeepsFacts.refl server).lastAccruedAt⟩
  | advance periodEnd =>
    obtain rfl := Except.ok.inj h
    refine ⟨.inl rfl, id, id, fun paid hpaid ↦ ?_⟩
    rw [ServerAggregate.advance, Option.mem_def.mp hpaid]
    exact ⟨max paid periodEnd, rfl, le_max_left paid periodEnd⟩
  | startBilling now =>
    obtain rfl := Except.ok.inj h
    exact ⟨.inl rfl, id, id, (KeepsFacts.refl server).lastAccruedAt⟩
  | attach providerServerId =>
    obtain rfl := Except.ok.inj h
    exact ⟨.inl rfl, fun _ ↦ rfl, id, (KeepsFacts.refl server).lastAccruedAt⟩
  | markDeleted now =>
    obtain ⟨deleted, hdeleted, hmoved⟩ := bind_eq_ok.mp h
    obtain ⟨hallowed, rfl⟩ := moveTo_eq_ok hdeleted
    obtain rfl := pure_eq_ok.mp hmoved
    exact ⟨.inr hallowed, id, fun _ ↦ rfl, (KeepsFacts.refl server).lastAccruedAt⟩

end Changes

/-- One more edge at the end of a trail. -/
theorem followsTable_append {next : ServerLifecycleState} :
    ∀ {trail : List ServerLifecycleState} {state : ServerLifecycleState}, FollowsTable state trail →
      next ∈ (trail.getLast?.getD state).allowed → FollowsTable state (trail ++ [next])
  | [], _, _, hnext => ⟨hnext, trivial⟩
  | first :: rest, _, h, hnext => by
    refine ⟨h.1, followsTable_append h.2 ?_⟩
    rw [List.getLast?_cons] at hnext
    exact hnext

/-- A copy comes from the row as it was loaded by the changes of its pass. -/
structure Derived (copy : HeldServer) : Prop where
  table : FollowsTable copy.loaded.state copy.trail
  state : copy.server.state = copy.trail.getLast?.getD copy.loaded.state
  facts : KeepsFacts copy.loaded copy.server

theorem derived_fresh {row server : ServerAggregate} (hstate : server.state = row.state)
    (hfacts : KeepsFacts row server) : Derived ⟨row, server, []⟩ :=
  ⟨trivial, hstate, hfacts⟩

variable {copy : HeldServer}

theorem Derived.moved (h : Derived copy) {change : ServerChange} {server : ServerAggregate}
    (hchange : change.apply copy.server = .ok server) : Derived (copy.moved server) := by
  obtain ⟨hedge, hfacts⟩ := apply_eq_ok hchange
  have hkept := h.facts.trans hfacts
  by_cases hsame : server.state = copy.server.state
  · have hmoved : copy.moved server = { copy with server := server } := by
      rw [HeldServer.moved, if_pos hsame]
    rw [hmoved]
    exact ⟨h.table, hsame.trans h.state, hkept⟩
  · have hmoved : copy.moved server =
        { copy with server := server, trail := copy.trail ++ [server.state] } := by
      rw [HeldServer.moved, if_neg hsame]
    have hnext := hedge.resolve_left hsame
    rw [h.state] at hnext
    rw [hmoved]
    refine ⟨followsTable_append h.table hnext, ?_, hkept⟩
    rw [List.getLast?_concat, Option.getD_some]

/-- A save of a copy that comes from the row moves along the table exactly if it fits. -/
theorem movesAlong_iff {row : ServerAggregate} (h : Derived copy) (now : ℤ) :
    MovesAlong row copy (row.saved copy.server now) ↔
      row.state = copy.loaded.state ∨ copy.server.state = row.state ∨
        copy.server.state ∈ row.state.allowed ∨
          FollowsTable row.state copy.trail ∧ copy.trail.getLast? = some copy.server.state := by
  constructor
  · exact fun hmoves ↦ .inr hmoves
  · rintro (hfresh | hmoves)
    · rw [MovesAlong, hfresh]
      show copy.server.state = _ ∨ copy.server.state ∈ _ ∨ _ ∧ copy.trail.getLast? =
        some copy.server.state
      have hstate := h.state
      cases hlast : copy.trail.getLast? with
      | none =>
        rw [hlast, Option.getD_none] at hstate
        exact .inl hstate
      | some last =>
        rw [hlast, Option.getD_some] at hstate
        exact .inr (.inr ⟨h.table, by rw [hstate]⟩)
    · exact hmoves

theorem keepsFacts_iff {row : ServerAggregate} (h : Derived copy) (now : ℤ) :
    KeepsFacts row (row.saved copy.server now) ↔
      (row.providerServerId = copy.loaded.providerServerId ∨
        (row.providerServerId.isSome → copy.server.providerServerId.isSome)) ∧
      (row.deletedAt = copy.loaded.deletedAt ∨
        (row.deletedAt.isSome → copy.server.deletedAt.isSome)) ∧
      (row.lastAccruedAt = copy.loaded.lastAccruedAt ∨
        ∀ paid ∈ row.lastAccruedAt, ∃ later ∈ copy.server.lastAccruedAt, paid ≤ later) := by
  constructor
  · exact fun hkeeps ↦ ⟨.inr hkeeps.providerServerId, .inr hkeeps.deletedAt, .inr hkeeps.lastAccruedAt⟩
  · rintro ⟨hprovider, hdeleted, haccrued⟩
    refine ⟨hprovider.elim (fun hfresh ↦ ?_) id, hdeleted.elim (fun hfresh ↦ ?_) id,
      haccrued.elim (fun hfresh ↦ ?_) id⟩
    · rw [hfresh]
      exact h.facts.providerServerId
    · rw [hfresh]
      exact h.facts.deletedAt
    · rw [hfresh]
      exact h.facts.lastAccruedAt

/-! ### Runs -/

/-- Every copy comes from the row as it was loaded. -/
def Consistent (s : Passes) : Prop :=
  ∀ copy ∈ s.copies, Derived copy

theorem Consistent.step {s : Passes} (h : Consistent s) (event : PassEvent) :
    Consistent (s.step event) := by
  cases event with
  | load =>
    intro copy hcopy
    rcases List.mem_append.mp hcopy with hearlier | hnew
    · exact h copy hearlier
    · rw [List.mem_singleton.mp hnew]
      exact derived_fresh rfl (.refl _)
  | change pass change =>
    cases hheld : s.copies[pass]? with
    | none =>
      simp only [Passes.step, Passes.transform, hheld]
      exact h
    | some held =>
      cases hchange : change.apply held.server with
      | error raised =>
        simp only [Passes.step, Passes.transform, hheld, hchange]
        exact h
      | ok server =>
        simp only [Passes.step, Passes.transform, hheld, hchange]
        intro copy hcopy
        rcases List.mem_or_eq_of_mem_set hcopy with hearlier | rfl
        · exact h copy hearlier
        · exact (h held (List.mem_of_getElem? hheld)).moved hchange
  | save pass now =>
    simp only [Passes.step, Passes.save]
    cases hheld : s.copies[pass]? with
    | none => exact h
    | some held =>
      intro copy hcopy
      rcases List.mem_append.mp hcopy with hset | hnew
      · rcases List.mem_or_eq_of_mem_set hset with hearlier | rfl
        · exact h copy hearlier
        · exact derived_fresh rfl ⟨id, id, (KeepsFacts.refl held.server).lastAccruedAt⟩
      · rw [List.mem_singleton.mp hnew]
        exact derived_fresh rfl (.refl _)

theorem keepsRow_iff_savesFit_step {s : Passes} (h : Consistent s) (event : PassEvent) :
    KeepsRow s event ↔ SavesFit s event := by
  cases event with
  | load => exact ⟨fun _ ↦ trivial, fun _ ↦ rfl⟩
  | change pass change =>
    refine ⟨fun _ ↦ trivial, fun _ ↦ ?_⟩
    simp only [KeepsRow, Passes.step, Passes.transform]
    split
    · rfl
    · split <;> rfl
  | save pass now =>
    refine forall_congr' fun copy ↦ forall_congr' fun hcopy ↦ ?_
    have hderived := h copy (List.mem_of_getElem? hcopy)
    have hrow : (s.step (.save pass now)).row = s.row.saved copy.server now := by
      simp only [Passes.step, Passes.save, hcopy]
    rw [hrow, movesAlong_iff hderived, keepsFacts_iff hderived]
    exact ⟨fun ⟨hstate, hprovider, hdeleted, haccrued⟩ ↦ ⟨hstate, hprovider, hdeleted, haccrued⟩,
      fun hfits ↦ ⟨hfits.state, hfits.providerServerId, hfits.deletedAt, hfits.lastAccruedAt⟩⟩

/-- A RUNNING server that is paid through the first hour. -/
def runningServer : ServerAggregate where
  id := ⟨"2b7d4c10-0000-4000-8000-000000000001", .refl true⟩
  userId := ⟨"2b7d4c10-0000-4000-8000-000000000002", .refl true⟩
  providerKey := "hetzner"
  state := .running
  providerServerId := some "42"
  billingStartedAt := some 0
  lastAccruedAt := some 3600000000

/-- The accrual job loads the server, its deletion is requested and executed, and the job saves the hour
that it has charged. -/
def staleAccrual : List PassEvent :=
  [.load, .load, .change 1 (.transitionTo .deleteRequested), .save 1 3600000000, .load,
    .change 3 (.markDeleted 3600000000), .save 3 3600000000, .change 0 (.advance 7200000000),
    .save 0 7200000000]

end CloudPlatform.Compute
