import CloudPlatform.Transition.Run
import CloudPlatform.Operations.Domain

/-!
# The operation row under concurrent holders

`claim` and `save` are the two writes of the operation repository. A claim is one conditional
UPDATE; a save writes a whole in-memory copy over the row and is fenced by the attempt counter
alone. The holders are all the workers and reconcilers that loaded the row at some time, apply the
transitions of `Operation` to their own copy and save it, in any order.

The transition table is checked on the copy and never against the row. Two holders of one
generation can therefore both pass the fence, and the second one overwrites a terminal status
(`not_followsAllowed_of_stale_save`). A run keeps to the table exactly when every save that passes
the fence finds the row in the status its copy was loaded with, or is one of the harmless stale
saves of `SaveMeetsRow` (`followsAllowed_iff_savesMeetRow`).
-/

namespace CloudPlatform.Operations

open Transition

/-! ### The repository's writes -/

/-- `SqlAlchemyOperationRepository.claim`: the row after the conditional UPDATE, and the claimed
operation when the row was PENDING. -/
def claim (row : Operation) (now : ℤ) : Operation × Option Operation :=
  if row.status = .pending then
    let claimed := { row with
      status := .inFlight
      attempts := row.attempts + 1
      updatedAt := some now }
    (claimed, some claimed)
  else (row, none)

/-- `SqlAlchemyOperationRepository.save`: the row after the copy's columns are written over it. -/
def save (row : Option Operation) (operation : Operation) (now : ℤ) : Result Operation :=
  match row with
  | none => raise .lookupError s!"operation {operation.id.text} not found"
  | some row => do
    rejectIf row.response.createRouting.isSome .createAttemptConflict
      "receipt-backed creates require fenced persistence"
    rejectIf (row.attempts ≠ operation.attempts) .invalidOperationTransition
      "operation claim no longer owns this attempt"
    return { row with
      status := operation.status
      providerResponse := operation.providerResponse
      error := operation.error
      attempts := operation.attempts
      updatedAt := some now }

/-- The two fences of `save`. -/
def SaveFenced (row operation : Operation) : Prop :=
  row.response.createRouting = none ∧ row.attempts = operation.attempts

theorem save_eq_ok {row operation saved : Operation} {now : ℤ}
    (h : save (some row) operation now = .ok saved) :
    SaveFenced row operation ∧ saved.status = operation.status ∧
      saved.attempts = operation.attempts := by
  obtain ⟨hrouting, hrest⟩ := rejectIf_bind_eq_ok.mp h
  obtain ⟨hattempts, hdone⟩ := rejectIf_bind_eq_ok.mp hrest
  obtain rfl := pure_eq_ok.mp hdone
  exact ⟨⟨by simpa using hrouting, by simpa using hattempts⟩, rfl, rfl⟩

theorem save_of_fenced {row operation : Operation} (h : SaveFenced row operation) (now : ℤ) :
    ∃ saved, save (some row) operation now = .ok saved := by
  refine ⟨_, rejectIf_bind_eq_ok.mpr ⟨?_, rejectIf_bind_eq_ok.mpr ⟨?_, rfl⟩⟩⟩
  · simp [h.1]
  · simp [h.2]

/-! ### Holders -/

/-- An in-memory copy of the row, with the status the row had when it was loaded. -/
structure HeldCopy where
  loaded : OperationStatus
  operation : Operation

/-- The persisted row and the copies that are held in memory. -/
structure Holders where
  row : Operation
  copies : List HeldCopy

/-- What one holder does: load a copy, claim the row, apply a transition to its own copy, or save
that copy. -/
inductive HolderEvent
  | load
  | claim (now : ℤ)
  | requeue (holder : ℕ) (error : String)
  | complete (holder : ℕ) (correlation : ProviderResponse)
  | fail (holder : ℕ) (error : String)
  | markOutcomeUnknown (holder : ℕ) (error : String)
  | save (holder : ℕ) (now : ℤ)

namespace Holders

/-- A fresh copy of a row that was just read. -/
def keep (s : Holders) (operation : Operation) : Holders :=
  { s with copies := s.copies ++ [⟨operation.status, operation⟩] }

/-- A transition of one in-memory copy; a copy whose transition raises is unchanged. -/
def transform (s : Holders) (holder : ℕ) (change : Operation → Result Operation) : Holders :=
  match s.copies[holder]? with
  | none => s
  | some copy =>
    match change copy.operation with
    | .ok moved => { s with copies := s.copies.set holder { copy with operation := moved } }
    | .error _ => s

/-- A claim; the worker that wins it holds the claimed operation. -/
def claim (s : Holders) (now : ℤ) : Holders :=
  match Operations.claim s.row now with
  | (row, none) => { s with row := row }
  | (row, some claimed) => { s with row := row }.keep claimed

/-- A save of one copy, which returns the refreshed row; a save that raises changes nothing. -/
def save (s : Holders) (holder : ℕ) (now : ℤ) : Holders :=
  match s.copies[holder]? with
  | none => s
  | some copy =>
    match Operations.save (some s.row) copy.operation now with
    | .ok saved => { s with row := saved }.keep saved
    | .error _ => s

/-- One event. -/
def step (s : Holders) : HolderEvent → Holders
  | .load => s.keep s.row
  | .claim now => s.claim now
  | .requeue holder error => s.transform holder (·.requeue error)
  | .complete holder correlation => s.transform holder (·.complete correlation)
  | .fail holder error => s.transform holder (·.fail error)
  | .markOutcomeUnknown holder error => s.transform holder (·.markOutcomeUnknown error)
  | .save holder now => s.save holder now

@[simp] theorem step_save (s : Holders) (holder : ℕ) (now : ℤ) :
    s.step (.save holder now) = s.save holder now :=
  rfl

/-- The persisted status stays, or moves along the transition table. -/
def StatusEdge (s : Holders) (event : HolderEvent) : Prop :=
  (s.step event).row.status = s.row.status ∨
    (s.step event).row.status ∈ s.row.status.allowed

instance (s : Holders) (event : HolderEvent) : Decidable (s.StatusEdge event) :=
  inferInstanceAs (Decidable (_ ∨ _))

/-- Every persisted status change of the run is an edge of the transition table. -/
def FollowsAllowed (s : Holders) (events : List HolderEvent) : Prop :=
  Along step StatusEdge s events

instance (s : Holders) (events : List HolderEvent) : Decidable (s.FollowsAllowed events) :=
  inferInstanceAs (Decidable (Along _ _ _ _))

/-- The row has the status the copy was loaded with; or the copy is stale and still harmless: it
writes the row's own status, completes an OUTCOME_UNKNOWN row, or exchanges PENDING and IN_FLIGHT. -/
def SaveMeetsRow (row : OperationStatus) (copy : HeldCopy) : Prop :=
  row = copy.loaded ∨ copy.operation.status = row ∨
    (row = .outcomeUnknown ∧ copy.operation.status = .completed) ∨
    (row = .pending ∧ copy.operation.status = .inFlight) ∨
    (row = .inFlight ∧ copy.operation.status = .pending)

/-- The condition on one event: a save that passes the fence meets the row. -/
def SavesMeetRow (s : Holders) : HolderEvent → Prop
  | .save holder _ =>
    ∀ copy, s.copies[holder]? = some copy → SaveFenced s.row copy.operation →
      SaveMeetsRow s.row.status copy
  | _ => True

/-- A save writes the row and hands the refreshed row to its caller, or it changes nothing because
there is no such copy or a fence stops it. -/
theorem save_cases (s : Holders) (holder : ℕ) (now : ℤ) :
    (∃ copy saved, s.copies[holder]? = some copy ∧ SaveFenced s.row copy.operation ∧
      saved.status = copy.operation.status ∧ saved.attempts = s.row.attempts ∧
      s.save holder now = { s with row := saved }.keep saved) ∨
    (s.save holder now = s ∧
      ∀ copy, s.copies[holder]? = some copy → ¬ SaveFenced s.row copy.operation) := by
  cases hcopy : s.copies[holder]? with
  | none => exact Or.inr ⟨by simp only [save, hcopy], by simp⟩
  | some copy =>
    cases hsave : Operations.save (some s.row) copy.operation now with
    | error raised =>
      refine Or.inr ⟨by simp only [save, hcopy, hsave], fun other hother hfenced ↦ ?_⟩
      obtain rfl := Option.some.inj hother
      obtain ⟨saved, hsaved⟩ := save_of_fenced hfenced now
      rw [hsave] at hsaved
      cases hsaved
    | ok saved =>
      obtain ⟨hfenced, hstatus, hattempts⟩ := save_eq_ok hsave
      exact Or.inl ⟨copy, saved, rfl, hfenced, hstatus, hattempts.trans hfenced.2.symm,
        by simp only [save, hcopy, hsave]⟩

/-! ### What a copy can be -/

/-- The statuses that `requeue`, `complete`, `fail` and `mark_outcome_unknown` can give a copy
loaded in a status. -/
def Derived (loaded status : OperationStatus) : Prop :=
  status = loaded ∨ (loaded = .inFlight ∧ status ≠ .inFlight) ∨
    (loaded = .outcomeUnknown ∧ status = .completed)

theorem Derived.moves {loaded status target : OperationStatus} (h : Derived loaded status)
    (htarget : target ∈ status.allowed) (hne : target ≠ .inFlight) : Derived loaded target := by
  rcases h with rfl | ⟨rfl, -⟩ | ⟨rfl, rfl⟩
  · cases status <;> simp_all [OperationStatus.allowed, Derived]
  · exact Or.inr (Or.inl ⟨rfl, hne⟩)
  · simp [OperationStatus.allowed] at htarget

/-- The row can still be claimed or is claimed. -/
def Live (status : OperationStatus) : Prop :=
  status = .pending ∨ status = .inFlight

/-- What holds between the row and the copies: a copy's status derives from its loaded one, its
generation is not ahead of the row, and while the row is live every copy of its generation was
loaded live. -/
structure Consistent (s : Holders) : Prop where
  derived : ∀ copy ∈ s.copies, Derived copy.loaded copy.operation.status
  generation_le : ∀ copy ∈ s.copies, copy.operation.attempts ≤ s.row.attempts
  loaded_live : Live s.row.status → ∀ copy ∈ s.copies,
    copy.operation.attempts = s.row.attempts → Live copy.loaded

theorem consistent_nil (row : Operation) : Consistent ⟨row, []⟩ :=
  ⟨by simp, by simp, by simp⟩

variable {s : Holders}

/-- A fresh copy of the row keeps the copies consistent. -/
theorem Consistent.keep (hs : Consistent s) : Consistent (s.keep s.row) where
  derived := by
    intro copy hcopy
    rcases List.mem_append.mp hcopy with hold | hnew
    · exact hs.derived copy hold
    · obtain rfl := List.mem_singleton.mp hnew
      exact Or.inl rfl
  generation_le := by
    intro copy hcopy
    rcases List.mem_append.mp hcopy with hold | hnew
    · exact hs.generation_le copy hold
    · obtain rfl := List.mem_singleton.mp hnew
      exact le_rfl
  loaded_live := by
    intro hlive copy hcopy hgeneration
    rcases List.mem_append.mp hcopy with hold | hnew
    · exact hs.loaded_live hlive copy hold hgeneration
    · obtain rfl := List.mem_singleton.mp hnew
      exact hlive

/-- A transition of a copy keeps the row and the consistency of the copies. -/
theorem Consistent.transform (hs : Consistent s) (holder : ℕ)
    {change : Operation → Result Operation} {target : OperationStatus}
    (hchange : ∀ operation moved, change operation = .ok moved →
      Operation.Moves operation moved target) (hne : target ≠ .inFlight) :
    (s.transform holder change).row = s.row ∧ Consistent (s.transform holder change) := by
  unfold Holders.transform
  split
  · exact ⟨rfl, hs⟩
  · rename_i copy hcopy
    split
    · rename_i moved hmoved
      have hmem : copy ∈ s.copies := List.mem_of_getElem? hcopy
      have hmoves := hchange _ _ hmoved
      refine ⟨rfl, ⟨?_, ?_, ?_⟩⟩
      · intro other hother
        rcases List.mem_or_eq_of_mem_set hother with hold | rfl
        · exact hs.derived other hold
        · have htarget := hmoves.target_mem
          change Derived copy.loaded moved.status
          rw [hmoves.status_eq]
          exact (hs.derived copy hmem).moves htarget hne
      · intro other hother
        rcases List.mem_or_eq_of_mem_set hother with hold | rfl
        · exact hs.generation_le other hold
        · change moved.attempts ≤ s.row.attempts
          rw [hmoves.attempts_eq]
          exact hs.generation_le copy hmem
      · intro hlive other hother hgeneration
        rcases List.mem_or_eq_of_mem_set hother with hold | rfl
        · exact hs.loaded_live hlive other hold hgeneration
        · change moved.attempts = s.row.attempts at hgeneration
          rw [hmoves.attempts_eq] at hgeneration
          exact hs.loaded_live hlive copy hmem hgeneration
    · exact ⟨rfl, hs⟩

/-- A claim moves a PENDING row to IN_FLIGHT and leaves every other row; the copies stay
consistent, since those of before are one generation behind. -/
theorem Consistent.claim (hs : Consistent s) (now : ℤ) : ((s.claim now).row.status = s.row.status ∨
      (s.claim now).row.status ∈ s.row.status.allowed) ∧ Consistent (s.claim now) := by
  by_cases hpending : s.row.status = .pending
  · have hclaimed : Consistent { s with row := (Operations.claim s.row now).1 } := by
      refine ⟨hs.derived, fun copy hcopy ↦ ?_, fun _ copy hcopy hgeneration ↦ ?_⟩
      · have := hs.generation_le copy hcopy
        simp only [Operations.claim, if_pos hpending]
        omega
      · have := hs.generation_le copy hcopy
        simp only [Operations.claim, if_pos hpending] at hgeneration
        omega
    have hstep : s.claim now = { s with row := (Operations.claim s.row now).1 }.keep
        (Operations.claim s.row now).1 := by
      simp only [Holders.claim, Operations.claim, if_pos hpending]
    rw [hstep]
    exact ⟨Or.inr (by simp [Operations.claim, Holders.keep, hpending, OperationStatus.allowed]),
      hclaimed.keep⟩
  · have hstep : s.claim now = s := by
      simp only [Holders.claim, Operations.claim, if_neg hpending]
    rw [hstep]
    exact ⟨Or.inl rfl, hs⟩

/-- A save that keeps the generation and whose new status is an edge keeps the copies consistent: a
row that is live after it was live before it. -/
theorem Consistent.saved (hs : Consistent s) {saved : Operation}
    (hattempts : saved.attempts = s.row.attempts)
    (hedge : saved.status = s.row.status ∨ saved.status ∈ s.row.status.allowed) :
    Consistent { s with row := saved } := by
  refine ⟨hs.derived, fun copy hcopy ↦ ?_, fun hlive copy hcopy hgeneration ↦ ?_⟩
  · have := hs.generation_le copy hcopy
    change copy.operation.attempts ≤ saved.attempts
    omega
  · change copy.operation.attempts = saved.attempts at hgeneration
    refine hs.loaded_live ?_ copy hcopy (by omega)
    rcases hedge with heq | hmem
    · rwa [← heq]
    · change Live saved.status at hlive
      cases hrow : s.row.status <;> rw [hrow] at hmem <;>
        rcases hlive with hsaved | hsaved <;> rw [hsaved] at hmem <;>
        simp_all [OperationStatus.allowed, Live]

/-- For a copy that derives from its loaded status, the saved status is an edge from the row
exactly when the save meets the row. -/
theorem saveMeetsRow_iff (hs : Consistent s) {copy : HeldCopy} (hcopy : copy ∈ s.copies)
    (hgeneration : s.row.attempts = copy.operation.attempts) :
    SaveMeetsRow s.row.status copy ↔ copy.operation.status = s.row.status ∨
      copy.operation.status ∈ s.row.status.allowed := by
  have hderived := hs.derived copy hcopy
  have hlive := fun h ↦ hs.loaded_live h copy hcopy hgeneration.symm
  constructor
  · rintro (hrow | hsame | ⟨hrow, hnew⟩ | ⟨hrow, hnew⟩ | ⟨hrow, hnew⟩)
    · rw [hrow]
      rcases hderived with heq | ⟨hloaded, hne⟩ | ⟨hloaded, hnew⟩
      · exact Or.inl heq
      · rw [hloaded]
        cases hstatus : copy.operation.status <;> simp_all [OperationStatus.allowed]
      · exact Or.inr (by simp [hloaded, hnew, OperationStatus.allowed])
    · exact Or.inl hsame
    · exact Or.inr (by simp [hrow, hnew, OperationStatus.allowed])
    · exact Or.inr (by simp [hrow, hnew, OperationStatus.allowed])
    · exact Or.inr (by simp [hrow, hnew, OperationStatus.allowed])
  · rintro (hsame | hmem)
    · exact Or.inr (Or.inl hsame)
    · cases hrow : s.row.status with
      | pending =>
        rw [hrow] at hmem
        exact Or.inr (Or.inr (Or.inr (Or.inl ⟨rfl, by simpa [OperationStatus.allowed] using hmem⟩)))
      | inFlight =>
        -- A copy of a live generation was loaded IN_FLIGHT, or is still the PENDING it was loaded as.
        rcases hlive (Or.inr hrow) with hloaded | hloaded
        · rcases hderived with heq | ⟨hother, -⟩ | ⟨hother, -⟩
          · exact Or.inr (Or.inr (Or.inr (Or.inr ⟨rfl, heq.trans hloaded⟩)))
          · rw [hloaded] at hother; cases hother
          · rw [hloaded] at hother; cases hother
        · exact Or.inl hloaded.symm
      | completed => rw [hrow] at hmem; simp [OperationStatus.allowed] at hmem
      | failed => rw [hrow] at hmem; simp [OperationStatus.allowed] at hmem
      | outcomeUnknown =>
        rw [hrow] at hmem
        exact Or.inr (Or.inr (Or.inl ⟨rfl, by simpa [OperationStatus.allowed] using hmem⟩))

/-! ### Runs -/

/-- One event from a consistent state moves the persisted status along the table exactly when its
save, if it is one that passes the fence, meets the row. -/
theorem statusEdge_iff_savesMeetRow (hs : Consistent s) (event : HolderEvent) :
    s.StatusEdge event ↔ s.SavesMeetRow event := by
  have htransform : ∀ (holder : ℕ) {change : Operation → Result Operation}
      {target : OperationStatus},
      (∀ operation moved, change operation = .ok moved → Operation.Moves operation moved target) →
      target ≠ .inFlight → (s.transform holder change).row.status = s.row.status := by
    intro holder change target hchange hne
    rw [(hs.transform holder hchange hne).1]
  cases event with
  | load => exact ⟨fun _ ↦ trivial, fun _ ↦ Or.inl rfl⟩
  | claim now => exact ⟨fun _ ↦ trivial, fun _ ↦ (hs.claim now).1⟩
  | requeue holder error =>
    exact ⟨fun _ ↦ trivial, fun _ ↦
      Or.inl (htransform holder (fun _ _ h ↦ Operation.requeue_moves h) (by decide))⟩
  | complete holder correlation =>
    exact ⟨fun _ ↦ trivial, fun _ ↦
      Or.inl (htransform holder (fun _ _ h ↦ Operation.complete_moves h) (by decide))⟩
  | fail holder error =>
    exact ⟨fun _ ↦ trivial, fun _ ↦
      Or.inl (htransform holder (fun _ _ h ↦ Operation.fail_moves h) (by decide))⟩
  | markOutcomeUnknown holder error =>
    exact ⟨fun _ ↦ trivial, fun _ ↦
      Or.inl (htransform holder (fun _ _ h ↦ Operation.markOutcomeUnknown_moves h) (by decide))⟩
  | save holder now =>
    rcases save_cases s holder now with
      ⟨copy, saved, hcopy, hfenced, hstatus, -, hstep⟩ | ⟨hstep, hunfenced⟩
    · have hedge : s.StatusEdge (.save holder now) ↔
          copy.operation.status = s.row.status ∨
            copy.operation.status ∈ s.row.status.allowed := by
        unfold StatusEdge
        rw [step_save, hstep, ← hstatus]
        exact Iff.rfl
      rw [hedge, ← saveMeetsRow_iff hs (List.mem_of_getElem? hcopy) hfenced.2]
      constructor
      · intro hmeets other hother _
        obtain rfl := Option.some.inj (hcopy.symm.trans hother)
        exact hmeets
      · intro hmeets
        exact hmeets copy hcopy hfenced
    · refine ⟨fun _ copy hcopy hfenced ↦ absurd hfenced (hunfenced copy hcopy), fun _ ↦ ?_⟩
      unfold StatusEdge
      rw [step_save, hstep]
      exact Or.inl rfl

/-- An event along the table keeps the copies consistent. -/
theorem Consistent.step (hs : Consistent s) (event : HolderEvent) (hedge : s.StatusEdge event) :
    Consistent (s.step event) := by
  cases event with
  | load => exact hs.keep
  | claim now => exact (hs.claim now).2
  | requeue holder error =>
    exact (hs.transform holder (fun _ _ h ↦ Operation.requeue_moves h) (by decide)).2
  | complete holder correlation =>
    exact (hs.transform holder (fun _ _ h ↦ Operation.complete_moves h) (by decide)).2
  | fail holder error =>
    exact (hs.transform holder (fun _ _ h ↦ Operation.fail_moves h) (by decide)).2
  | markOutcomeUnknown holder error =>
    exact (hs.transform holder (fun _ _ h ↦ Operation.markOutcomeUnknown_moves h) (by decide)).2
  | save holder now =>
    unfold StatusEdge at hedge
    rw [step_save] at hedge ⊢
    rcases save_cases s holder now with
      ⟨copy, saved, -, -, -, hattempts, hstep⟩ | ⟨hstep, -⟩
    · rw [hstep] at hedge ⊢
      exact (hs.saved hattempts hedge).keep
    · rw [hstep]
      exact hs

/-- The persisted status of a run moves only along the transition table exactly when every save
that passes the generation fence meets the row. -/
theorem followsAllowed_iff_savesMeetRow (row : Operation) (events : List HolderEvent) :
    FollowsAllowed ⟨row, []⟩ events ↔ Along step SavesMeetRow ⟨row, []⟩ events :=
  along_congr (fun _ event hs ↦ statusEdge_iff_savesMeetRow hs event)
    (fun _ event hs hedge ↦ hs.step event hedge) events _ (consistent_nil row)

/-! ### The generation -/

/-- A worker wins the row. -/
def Granted (s : Holders) : HolderEvent → Prop
  | .claim _ => s.row.status = .pending
  | _ => False

instance (s : Holders) : DecidablePred s.Granted
  | .claim _ => inferInstanceAs (Decidable (s.row.status = .pending))
  | .load | .requeue .. | .complete .. | .fail .. | .markOutcomeUnknown .. | .save .. =>
    .isFalse not_false

/-- How many claims of a run are granted. -/
def grants : Holders → List HolderEvent → ℕ
  | _, [] => 0
  | s, event :: rest => (if s.Granted event then 1 else 0) + grants (s.step event) rest

theorem row_transform (s : Holders) (holder : ℕ) (change : Operation → Result Operation) :
    (s.transform holder change).row = s.row := by
  unfold transform
  split
  · rfl
  · split
    · rfl
    · rfl

/-- Only a granted claim counts. -/
theorem attempts_step (s : Holders) (event : HolderEvent) :
    (s.step event).row.attempts = s.row.attempts + if s.Granted event then 1 else 0 := by
  cases event with
  | claim now =>
    by_cases hpending : s.row.status = .pending
    · simp [step, Holders.claim, Operations.claim, keep, Granted, hpending]
    · simp [step, Holders.claim, Operations.claim, Granted, hpending]
  | save holder now =>
    have hnone : ¬ s.Granted (.save holder now) := not_false
    rw [step_save, if_neg hnone, Nat.add_zero]
    rcases s.save_cases holder now with ⟨copy, saved, -, -, -, hattempts, hsave⟩ | ⟨hsave, -⟩
    · rw [hsave]
      exact hattempts
    · rw [hsave]
  | load => exact (Nat.add_zero _).symm
  | _ => exact congrArg Operation.attempts (row_transform s _ _)

/-- In every run the generation of the row counts the claims that were granted, and a copy of any
other generation saves nothing. -/
theorem generation_fences (row : Operation) (events : List HolderEvent) :
    (run step ⟨row, []⟩ events).row.attempts = row.attempts + grants ⟨row, []⟩ events ∧
      ∀ holder now, ∀ copy ∈ (run step ⟨row, []⟩ events).copies[holder]?,
        copy.operation.attempts ≠ row.attempts + grants ⟨row, []⟩ events →
          (run step ⟨row, []⟩ events).save holder now = run step ⟨row, []⟩ events := by
  have hcount : ∀ s : Holders,
      (run step s events).row.attempts = s.row.attempts + grants s events := by
    induction events with
    | nil => exact fun _ ↦ rfl
    | cons event rest ih =>
      intro s
      rw [run_cons, ih, attempts_step, grants, Nat.add_assoc]
  refine ⟨hcount _, fun holder now copy hcopy hstale ↦ ?_⟩
  rcases save_cases (run step ⟨row, []⟩ events) holder now with
    ⟨other, saved, hother, hfenced, -⟩ | ⟨hsame, -⟩
  · obtain rfl := Option.mem_unique hcopy hother
    exact absurd (hfenced.2.symm.trans (hcount _)) hstale
  · exact hsame

/-- A PENDING create intent. -/
def pendingIntent : Operation where
  id := ⟨"6f1c6f0e-0000-4000-8000-000000000001", .refl true⟩
  operationKey := "server-create:1"
  operationType := .serverCreate
  resourceType := "cloud_server"
  resourceId := ⟨"6f1c6f0e-0000-4000-8000-000000000002", .refl true⟩
  providerKey := "leaseweb"

/-- A worker claims the intent, a reconciler loads the IN_FLIGHT row, the worker completes and
saves, and the reconciler saves its copy as OUTCOME_UNKNOWN under the same generation. -/
def staleReconciler : List HolderEvent :=
  [.claim 0, .load, .complete 0 { facts := [("provider_server_id", .text "i-1")] }, .save 0 1,
    .markOutcomeUnknown 1 "hourly create worker lease expired", .save 1 2]

/-- The stale reconciler overwrites a persisted COMPLETED status: the row does not follow the
transition table in every run. -/
theorem not_followsAllowed_of_stale_save :
    (run step ⟨pendingIntent, []⟩ (staleReconciler.take 4)).row.status = .completed ∧
      (run step ⟨pendingIntent, []⟩ staleReconciler).row.status = .outcomeUnknown ∧
      ¬ ∀ (row : Operation) (events : List HolderEvent), FollowsAllowed ⟨row, []⟩ events := by
  refine ⟨by decide, by decide, fun h ↦ ?_⟩
  have hstale : ¬ FollowsAllowed ⟨pendingIntent, []⟩ staleReconciler := by decide
  exact hstale (h _ _)

end Holders

end CloudPlatform.Operations
