import CloudPlatform.Operations.Rebuilds

/-!
# The image of a rebuild

A rebuild is confirmed with an image, but what resumes its operation brings an image of its own:
another request under the key, or the worker's lookup. `oneImage_of_sameImage` says that only the
image of the confirmed request is sent when whatever resumes the operation brings that image.
-/

namespace CloudPlatform.Operations

open Compute (CloudServer)
open Rows (Table)
open Transition (Along Ends Throughout ends_bind ends_pure ends_throw ends_perform ends_lift
  ends_attemptCall ends_of_only only_attempt only_bind only_liftM only_perform
  only_pure only_throw throughout_of_along)

/-! ### Statements -/

namespace RebuildRows

/-- The key of the operation with an id. -/
def keyOf (rows : RebuildRows) (id : Uuid) : Option String :=
  (rows.operations.get id).map Operation.operationKey

/-- The image of the confirmed request that made the operation. -/
def confirmedImage (rows : RebuildRows) (key : String) : Option String :=
  (rows.requested.find? (·.operationKey = key)).map RebuildRequested.image

/-- Every rebuild sent for the operation has the image of its confirmed request. -/
def OneImage (key : String) (rows : RebuildRows) : Prop :=
  ∀ sending ∈ rows.sent, sending.operationKey = key → rows.confirmedImage key = some sending.image

/-- A request or a pass that meets the operation pending brings the image of its confirmed request;
a lookup may also answer nothing, or a blank. -/
def SameImage (key : String) (rows : RebuildRows) : RebuildEvent → Prop
  | .request asked _ => asked.confirmed → asked.operationKey = key →
    ∀ operation ∈ rows.operations.rows, operation.operationKey = key →
      operation.status = .pending → rows.confirmedImage key = some (strip asked.imageId)
  | .pass chances => ∀ operation ∈ rows.operations.rows, operation.operationKey = key →
    operation.status = .pending → ∀ n image, (chances n).image operation.id = .ok (some image) →
      strip image ≠ "" → rows.confirmedImage key = some image

end RebuildRows

/-! ### Executions -/

/-- An execution of the operation keeps the keys and the audit records, and sends images of a kind
for the operation only. -/
structure Executed (operationKey : String) (images : String → Prop) (before after : RebuildRows) :
    Prop where
  keys : ∀ id, after.keyOf id = before.keyOf id
  requested : after.requested = before.requested
  sent : ∀ sending ∈ after.sent, sending ∈ before.sent ∨
    sending.operationKey = operationKey ∧ images sending.image

section Executions

variable {operationKey : String} {images : String → Prop} {rows before after : RebuildRows}

theorem Executed.refl (operationKey : String) (images : String → Prop) (rows : RebuildRows) :
    Executed operationKey images rows rows :=
  ⟨fun _ ↦ rfl, rfl, fun _ ↦ Or.inl⟩

/-- A row written over the one of its id, with its key. -/
theorem Executed.put (h : Executed operationKey images before rows) {row changed : Operation}
    (hrow : rows.operations.get changed.id = some row)
    (hkey : changed.operationKey = row.operationKey) : Executed operationKey images before
      { rows with operations := rows.operations.put changed } := by
  refine ⟨fun id ↦ ?_, h.requested, h.sent⟩
  rw [← h.keys id]
  unfold RebuildRows.keyOf
  rw [Table.get_put]
  by_cases hid : changed.id = id
  · rw [if_pos hid, ← hid, hrow, Option.map_some, Option.map_some, hkey]
  · rw [if_neg hid]

theorem handle_claim (id : Uuid) (chance : RebuildChance) (rows : RebuildRows) :
    (RebuildCall.claim id).handle chance rows = match rows.operations.get id with
      | none => (.ok none, rows)
      | some row => (.ok (Operations.claim row chance.now).2,
          { rows with operations := rows.operations.put (Operations.claim row chance.now).1 }) :=
  rfl

/-- The row that `get_or_create` inserts. -/
def newOperation (intent : OperationIntent) (chance : RebuildChance) : Operation where
  id := chance.newId
  operationKey := intent.operationKey
  operationType := intent.operationType
  resourceType := "server"
  resourceId := intent.resourceId
  providerKey := intent.providerKey
  createdAt := some chance.now
  updatedAt := some chance.now

theorem handle_getOrCreate {intent : OperationIntent} {rows : RebuildRows}
    (h : rows.operations.rows.find? (·.operationKey = intent.operationKey) = none)
    (chance : RebuildChance) : (RebuildCall.getOrCreate intent).handle chance rows =
      if rows.operations.get chance.newId = none then (.ok (newOperation intent chance),
          { rows with operations := rows.operations.put (newOperation intent chance) })
      else (raise .integrityError "operations_pkey", rows) := by
  unfold RebuildCall.handle
  dsimp only
  rw [h]
  rfl

/-- A claim keeps the id and the key of the row, and gives a copy of it. -/
theorem claim_same (row : Operation) (now : ℤ) : (Operations.claim row now).1.id = row.id ∧
      (Operations.claim row now).1.operationKey = row.operationKey ∧
        ∀ claimed ∈ (Operations.claim row now).2,
          claimed.id = row.id ∧ claimed.operationKey = row.operationKey := by
  unfold Operations.claim
  split_ifs
  · refine ⟨rfl, rfl, fun claimed hclaimed ↦ ?_⟩
    rw [← Option.mem_some.mp hclaimed]
    exact ⟨rfl, rfl⟩
  · exact ⟨rfl, rfl, fun claimed hclaimed ↦ nomatch hclaimed⟩

/-- A save keeps the id and the key of the row. -/
theorem save_same {row copy saved : Operation} {now : ℤ}
    (h : Operations.save (some row) copy now = .ok saved) :
    saved.id = row.id ∧ saved.operationKey = row.operationKey := by
  obtain ⟨-, hrest⟩ := rejectIf_bind_eq_ok.mp h
  obtain ⟨-, hdone⟩ := rejectIf_bind_eq_ok.mp hrest
  obtain rfl := pure_eq_ok.mp hdone
  exact ⟨rfl, rfl⟩

/-- The calls of an execution. -/
def ExecutionCall (operationKey : String) (images : String → Prop) : RebuildCall → Prop
  | .server _ | .claim _ | .saveOperation _ | .rebuildSupport .. | .lookupImage .. => True
  | .rebuild sending => sending.operationKey = operationKey ∧ images sending.image
  | _ => False

theorem Executed.handle (h : Executed operationKey images before rows) (request : RebuildCall)
    (hcall : ExecutionCall operationKey images request) (chance : RebuildChance) :
    Executed operationKey images before (request.handle chance rows).2 := by
  cases request with
  | server id => exact h
  | operationByKey key => cases hcall
  | getOrCreate intent => cases hcall
  | recordRequested record => cases hcall
  | claim id =>
    rw [handle_claim]
    cases hrow : rows.operations.get id with
    | none => exact h
    | some row =>
      obtain ⟨hid, hkey, -⟩ := claim_same row chance.now
      exact h.put (by rw [hid, Table.key_of_get hrow, hrow]) hkey
  | saveOperation copy =>
    rw [RebuildCall.handle]
    cases hsave : Operations.save (rows.operations.get copy.id) copy chance.now with
    | error raised => exact h
    | ok saved =>
      cases hrow : rows.operations.get copy.id with
      | none =>
        rw [hrow] at hsave
        cases hsave
      | some row =>
        rw [hrow] at hsave
        obtain ⟨hid, hkey⟩ := save_same hsave
        exact h.put (by rw [hid, Table.key_of_get hrow, hrow]) hkey
  | listPending => cases hcall
  | rebuildSupport key account => exact h
  | lookupImage serverId operationId => exact h
  | rebuild sending =>
    refine ⟨h.keys, h.requested, fun other hother ↦ ?_⟩
    rcases List.mem_append.mp hother with hold | hnew
    · exact h.sent other hold
    · rw [List.mem_singleton.mp hnew]
      exact Or.inr hcall

section Programs

variable {lookup : Bool} {operation : Operation} {image : Option String}
  {chances : ℕ → RebuildChance}

/-- What an execution has kept when it is done. -/
def Ran {α : Type} (operationKey : String) (images : String → Prop) (before : RebuildRows) :
    Result α → (ℕ → RebuildChance) → RebuildRows → Prop :=
  fun _ _ after ↦ Executed operationKey images before after

/-- A program of execution calls is an execution. -/
theorem ends_executed {α : Type} {p : RebuildProgram α}
    (hp : p.Only (ExecutionCall operationKey images))
    (h : Executed operationKey images before rows) :
    Ends RebuildCall.handle (Ran operationKey images before) p chances rows :=
  ends_of_only (fun request hcall chance _ hrows ↦ hrows.handle request hcall chance) hp h

open RebuildExecutor

theorem only_failRebuild {α : Type} (operation : Operation) (reason : String) :
    (fail operation reason : RebuildProgram α).Only (ExecutionCall operationKey images) := by
  refine only_bind (fun failed ↦ ?_) (only_liftM _)
  exact only_bind (fun _ ↦ only_throw _) (only_perform trivial)

theorem only_sendRebuild {target : String} (htarget : images target) (operation : Operation)
    (providerServerId : String) : (send operation providerServerId target).Only
      (ExecutionCall operation.operationKey images) := by
  refine only_bind (fun reply ↦ ?_) (only_attempt (only_perform ⟨rfl, htarget⟩))
  cases reply with
  | ok status =>
    refine only_bind (fun completed ↦ ?_) (only_liftM _)
    exact only_bind (fun _ ↦ only_pure _) (only_perform trivial)
  | error raised =>
    dsimp only
    split_ifs
    · refine only_bind (fun requeued ↦ ?_) (only_liftM _)
      exact only_bind (fun _ ↦ only_pure _) (only_perform trivial)
    · exact only_failRebuild operation _
    · exact only_throw _

/-- Where the execution has its target image, it sends nothing else. -/
theorem ends_rebuildTarget {target : Option String}
    (htarget : ∀ text, target = some text → strip text ≠ "" → images text)
    (providerServerId : String) (h : Executed operation.operationKey images before rows) :
    Ends RebuildCall.handle (Ran operation.operationKey images before) (match target with
        | none => fail operation "no target image for rebuild"
        | some text =>
          if strip text = "" then fail operation "no target image for rebuild"
          else send operation providerServerId text) chances rows := by
  cases target with
  | none => exact ends_executed (only_failRebuild operation _) h
  | some text =>
    dsimp only
    split_ifs with hblank
    · exact ends_executed (only_failRebuild operation _) h
    · exact ends_executed (only_sendRebuild (htarget text rfl hblank) operation providerServerId) h

theorem ends_rebuildOn (server : CloudServer) (hgiven : ∀ text, image = some text → images text)
    (hlooked : image = none → ∀ n text, (chances n).image operation.id = .ok (some text) →
      strip text ≠ "" → images text) (h : Executed operation.operationKey images before rows) :
    Ends RebuildCall.handle (Ran operation.operationKey images before)
      (executeOn lookup operation server image) chances rows := by
  unfold executeOn
  by_cases hid : (!truthy server.providerServerId) = true
  · rw [if_pos hid]
    exact ends_executed (only_failRebuild operation _) h
  rw [if_neg hid]
  by_cases hstate : server.state ∉ rebuildPreconditionStates
  · rw [if_pos hstate]
    exact ends_executed (only_failRebuild operation _) h
  rw [if_neg hstate]
  refine ends_attemptCall ?_
  have hnext := h.handle (.rebuildSupport server.providerKey server.credentialAccountId) trivial
    (chances 0)
  cases (RebuildCall.handle (.rebuildSupport server.providerKey server.credentialAccountId)
      (chances 0) rows).1 with
  | error raised =>
    dsimp only
    split_ifs
    · exact ends_executed (only_failRebuild operation _) hnext
    · exact ends_throw hnext
  | ok rebuilds =>
    cases rebuilds with
    | false => exact ends_executed (only_failRebuild operation _) hnext
    | true =>
      dsimp only
      unfold targetImage
      split_ifs with hlookup
      · refine ends_perform ?_
        rw [show (RebuildCall.lookupImage server.id operation.id).handle (Transition.rest chances 0)
            _ = ((chances 1).image operation.id, _) from rfl]
        cases hanswer : (chances 1).image operation.id with
        | error raised => exact hnext
        | ok target =>
          refine ends_rebuildTarget (fun text htext hblank ↦ ?_) _ hnext
          exact hlooked hlookup.1 1 text (by rw [hanswer, htext]) hblank
      · exact ends_rebuildTarget (fun text htext _ ↦ hgiven text htext) _ hnext

theorem ends_rebuild (hgiven : ∀ text, image = some text → images text)
    (hlooked : image = none → ∀ n text, (chances n).image operation.id = .ok (some text) →
      strip text ≠ "" → images text) (h : Executed operation.operationKey images before rows) :
    Ends RebuildCall.handle (Ran operation.operationKey images before)
      (execute lookup operation image) chances rows := by
  unfold execute
  split_ifs
  · exact ends_executed (only_failRebuild operation _) h
  · refine ends_perform ?_
    rw [show (RebuildCall.server operation.resourceId).handle (chances 0) rows =
      (.ok ((chances 0).server.filter (·.id = operation.resourceId)), rows) from rfl]
    dsimp only
    cases (chances 0).server.filter (·.id = operation.resourceId) with
    | none => exact ends_executed (only_failRebuild operation _) h
    | some server => exact ends_rebuildOn server hgiven (fun hnone n ↦ hlooked hnone (n + 1)) h

end Programs

end Executions

/-! ### The intent of a key -/

/-- The operation of a key, with the image of its confirmed request. -/
structure Held (key : String) (id : Uuid) (image : String) (rows : RebuildRows) : Prop where
  row : rows.keyOf id = some key
  only : ∀ other, rows.keyOf other = some key → other = id
  confirmed : rows.confirmedImage key = some image
  sent : ∀ sending ∈ rows.sent, sending.operationKey = key → sending.image = image

/-- Nothing is known of the key. -/
structure Absent (key : String) (rows : RebuildRows) : Prop where
  row : ∀ id, rows.keyOf id ≠ some key
  requested : ∀ record ∈ rows.requested, record.operationKey ≠ key
  sent : ∀ sending ∈ rows.sent, sending.operationKey ≠ key

/-- Either there is no operation of the key yet, or it has one image. -/
def Resolved (key : String) (rows : RebuildRows) : Prop :=
  Absent key rows ∨ ∃ id image, Held key id image rows

section Intents

variable {key operationKey : String} {images : String → Prop} {rows after : RebuildRows}
  {image : String} {chances : ℕ → RebuildChance}

theorem Resolved.oneImage (h : Resolved key rows) : rows.OneImage key := by
  intro sending hsending hkey
  rcases h with habsent | ⟨id, image, hheld⟩
  · exact absurd hkey (habsent.sent sending hsending)
  · rw [hheld.confirmed, hheld.sent sending hsending hkey]

/-- An execution for another key, or with the confirmed image. -/
theorem Resolved.executed (h : Resolved key rows) (hrow : ∃ id, rows.keyOf id = some operationKey)
    (himages : operationKey = key → ∀ text, images text → rows.confirmedImage key = some text)
    (hexecuted : Executed operationKey images rows after) : Resolved key after := by
  rcases h with habsent | ⟨id, image, hheld⟩
  · left
    have hother : operationKey ≠ key := by
      rintro rfl
      obtain ⟨id, hid⟩ := hrow
      exact habsent.row id hid
    refine ⟨fun id ↦ ?_, ?_, fun sending hsending ↦ ?_⟩
    · rw [hexecuted.keys]
      exact habsent.row id
    · rw [hexecuted.requested]
      exact habsent.requested
    · rcases hexecuted.sent sending hsending with hold | ⟨hnew, -⟩
      · exact habsent.sent sending hold
      · rw [hnew]
        exact hother
  · right
    refine ⟨id, image, ?_, fun other hother ↦ ?_, ?_, fun sending hsending hkey ↦ ?_⟩
    · rw [hexecuted.keys]
      exact hheld.row
    · rw [hexecuted.keys] at hother
      exact hheld.only other hother
    · unfold RebuildRows.confirmedImage
      rw [hexecuted.requested]
      exact hheld.confirmed
    · rcases hexecuted.sent sending hsending with hold | ⟨hnew, himage⟩
      · exact hheld.sent sending hold hkey
      · have hconfirmed := himages (hnew.symm.trans hkey) sending.image himage
        rw [hheld.confirmed] at hconfirmed
        exact (Option.some.inj hconfirmed).symm

/-- An execution that follows a claim keeps what there is of the key. -/
theorem confirmedImage_executed (hexecuted : Executed operationKey images rows after) :
    after.confirmedImage key = rows.confirmedImage key := by
  unfold RebuildRows.confirmedImage
  rw [hexecuted.requested]

/-! ### Requests -/

open RebuildCommand

theorem ends_claimedRebuild (server : CloudServer) {id : Uuid}
    (hkey : rows.keyOf id = some operationKey) :
    Ends RebuildCall.handle (Ran operationKey (· = image) rows) (claimAndExecute server image id)
      chances rows := by
  refine ends_perform ?_
  have hclaimed := (Executed.refl operationKey (· = image) rows).handle (.claim id) trivial
    (chances 0)
  rw [handle_claim] at hclaimed ⊢
  cases hrow : rows.operations.get id with
  | none =>
    rw [hrow] at hclaimed
    exact ends_throw hclaimed
  | some row =>
    rw [hrow] at hclaimed
    have hsame := (claim_same row (chances 0).now).2.2
    dsimp only at hclaimed ⊢
    cases hclaim : (Operations.claim row (chances 0).now).2 with
    | none => exact ends_throw hclaimed
    | some claimed =>
      have hcopy : claimed.operationKey = operationKey := by
        rw [(hsame claimed hclaim).2]
        rw [RebuildRows.keyOf, hrow] at hkey
        exact Option.some.inj hkey
      subst hcopy
      refine ends_bind ((ends_rebuild ?_ ?_ hclaimed).mono fun outcome _ _ hran ↦ ?_)
      · intro text htext
        exact (Option.some.inj htext).symm
      · intro hnone
        cases hnone
      · cases outcome with
        | error raised => exact hran
        | ok result =>
          refine ends_perform ?_
          exact ends_pure hran

variable {operation : Operation}

/-- The operation is executed with the image of the request if it is pending. -/
theorem ends_existingRebuild (h : Resolved key rows) (server : CloudServer)
    (hrow : rows.operations.get operation.id = some operation)
    (hpending : operation.operationKey = key → operation.status = .pending →
      rows.confirmedImage key = some image) :
    Ends RebuildCall.handle (fun _ _ after ↦ Resolved key after)
      (executeExisting server image operation) chances rows := by
  have hkey : rows.keyOf operation.id = some operation.operationKey := by
    rw [RebuildRows.keyOf, hrow]
    rfl
  unfold executeExisting
  cases hstatus : operation.status with
  | completed => exact ends_perform (ends_pure h)
  | failed => exact ends_throw h
  | inFlight => exact ends_throw h
  | pending =>
    dsimp only
    split_ifs
    · exact ends_throw h
    · refine (ends_claimedRebuild server hkey).mono fun _ _ _ hran ↦ ?_
      refine h.executed ⟨_, hkey⟩ (fun hsame text htext ↦ ?_) hran
      rw [hpending hsame hstatus, htext]
  | outcomeUnknown =>
    dsimp only
    split_ifs
    · exact ends_throw h
    · -- such a row is not claimed
      refine ends_perform ?_
      rw [handle_claim, hrow]
      dsimp only
      rw [Operations.claim, if_neg (by simp [hstatus])]
      refine ends_throw ?_
      rw [Table.put_of_get hrow]
      exact h

theorem keyOf_put (rows : RebuildRows) (created : Operation) (id : Uuid) :
    ({ rows with operations := rows.operations.put created } : RebuildRows).keyOf id =
      if created.id = id then some created.operationKey else rows.keyOf id := by
  unfold RebuildRows.keyOf
  rw [Table.get_put]
  split_ifs <;> rfl

theorem confirmedImage_append (operations : Table Operation.id) (record : RebuildRequested)
    (sent : List RebuildSent) :
    RebuildRows.confirmedImage ⟨operations, rows.requested ++ [record], sent⟩ key =
      (rows.confirmedImage key).or
        (if record.operationKey = key then some record.image else none) := by
  unfold RebuildRows.confirmedImage
  rw [List.find?_append, Option.map_or, List.find?_singleton]
  by_cases hkey : record.operationKey = key
  · simp [hkey]
  · simp [hkey]

/-- The rows after a new operation and the audit record of its request. -/
def RebuildRows.created (rows : RebuildRows) (operation : Operation) (image : String) :
    RebuildRows where
  operations := rows.operations.put operation
  requested := rows.requested ++ [⟨operation.operationKey, image⟩]
  sent := rows.sent

theorem Absent.confirmedImage (h : Absent key rows) : rows.confirmedImage key = none := by
  have hnone : rows.requested.find? (·.operationKey = key) = none := by
    rw [List.find?_eq_none]
    intro record hrecord
    simpa using h.requested record hrecord
  rw [RebuildRows.confirmedImage, hnone]
  rfl

/-- The request that makes the operation of the key gives it its image. -/
theorem Absent.created (h : Absent key rows) (hkey : operation.operationKey = key) (image : String) :
     Held key operation.id image (rows.created operation image) := by
  constructor
  · exact (keyOf_put rows operation operation.id).trans (by rw [if_pos rfl, hkey])
  · intro other hother
    have hput := (keyOf_put rows operation other).symm.trans hother
    split_ifs at hput with hid
    · exact hid.symm
    · exact absurd hput (h.row other)
  · refine (confirmedImage_append _ _ _).trans ?_
    rw [h.confirmedImage, if_pos hkey]
    rfl
  · intro sending hsending hsame
    exact absurd hsame (h.sent sending hsending)

/-- One that makes another operation changes nothing of the key. -/
theorem Resolved.created (h : Resolved key rows) (hfresh : rows.operations.get operation.id = none)
    (hkey : operation.operationKey ≠ key) (image : String) :
    Resolved key (rows.created operation image) := by
  rcases h with habsent | ⟨id, confirmed, hheld⟩
  · left
    refine ⟨fun other hother ↦ ?_, fun record hrecord ↦ ?_, habsent.sent⟩
    · have hput := (keyOf_put rows operation other).symm.trans hother
      split_ifs at hput with hid
      · exact hkey (Option.some.inj hput)
      · exact habsent.row other hput
    · rcases List.mem_append.mp hrecord with hold | hnew
      · exact habsent.requested record hold
      · rw [List.mem_singleton.mp hnew]
        exact hkey
  · right
    refine ⟨id, confirmed, ?_, fun other hother ↦ ?_, ?_, hheld.sent⟩
    · have hne : operation.id ≠ id := by
        rintro rfl
        have hrow := hheld.row
        rw [RebuildRows.keyOf, hfresh] at hrow
        cases hrow
      exact (keyOf_put rows operation id).trans (by rw [if_neg hne, hheld.row])
    · have hput := (keyOf_put rows operation other).symm.trans hother
      split_ifs at hput with hid
      · exact absurd (Option.some.inj hput) hkey
      · exact hheld.only other hput
    · refine (confirmedImage_append _ _ _).trans ?_
      rw [hheld.confirmed]
      rfl

/-- The rest of a request that has made its operation. -/
theorem ends_recordAndExecute (h : Resolved key rows) (server : CloudServer)
    (hoperation : operation.operationKey = operationKey)
    (hfresh : rows.operations.get operation.id = none)
    (hnone : ∀ id, rows.keyOf id ≠ some operationKey) :
    Ends RebuildCall.handle (fun _ _ after ↦ Resolved key after) (do
        RebuildExecutor.perform (.recordRequested ⟨operationKey, image⟩)
        claimAndExecute server image operation.id)
      chances { rows with operations := rows.operations.put operation } := by
  subst hoperation
  refine ends_perform ?_
  have hkey : (rows.created operation image).keyOf operation.id = some operation.operationKey :=
    (keyOf_put rows operation operation.id).trans (if_pos rfl)
  refine (ends_claimedRebuild server hkey).mono fun _ _ _ hran ↦ ?_
  by_cases hsame : operation.operationKey = key
  · have habsent : Absent key rows := by
      rcases h with habsent | ⟨id, confirmed, hheld⟩
      · exact habsent
      · exact absurd hheld.row (hsame ▸ hnone id)
    have hheld := habsent.created hsame image
    refine Resolved.executed (Or.inr ⟨_, image, hheld⟩) ⟨_, hkey⟩ (fun _ text htext ↦ ?_) hran
    rw [hheld.confirmed, htext]
  · exact (h.created hfresh hsame image).executed ⟨_, hkey⟩ (fun heq ↦ absurd heq hsame) hran

theorem ends_newRebuild (h : Resolved key rows) (server : CloudServer)
    (hnone : ∀ id, rows.keyOf id ≠ some operationKey) :
    Ends RebuildCall.handle (fun _ _ after ↦ Resolved key after)
      (executeNew server image operationKey) chances rows := by
  have hfound : rows.operations.rows.find? (·.operationKey = operationKey) = none := by
    rw [List.find?_eq_none]
    intro operation hmem hkey
    refine hnone operation.id ?_
    rw [RebuildRows.keyOf, Table.mem_iff_get.mp hmem, Option.map_some, of_decide_eq_true hkey]
  unfold executeNew
  by_cases hstate : server.state ∉ rebuildPreconditionStates
  · rw [if_pos hstate]
    exact ends_throw h
  rw [if_neg hstate]
  refine ends_perform ?_
  rw [handle_getOrCreate hfound]
  by_cases hfresh : rows.operations.get (chances 0).newId = none
  · rw [if_pos hfresh]
    exact ends_recordAndExecute h server rfl hfresh hnone
  · rw [if_neg hfresh]
    exact h

theorem ends_rebuildRequest {asked : RebuildRequest} (h : Resolved key rows)
    (hsame : rows.SameImage key (.request asked chances)) :
    Ends RebuildCall.handle (fun _ _ after ↦ Resolved key after) (request asked) chances rows := by
  unfold request
  refine ends_lift (fun done hdone ↦ ?_) (fun _ _ ↦ h)
  have hconfirmed : asked.confirmed = true := by
    cases done
    simpa using rejectIf_eq_ok.mp hdone
  refine ends_lift (fun _ _ ↦ ?_) (fun _ _ ↦ h)
  refine ends_lift (fun _ _ ↦ ?_) (fun _ _ ↦ h)
  refine ends_lift (fun _ _ ↦ ?_) (fun _ _ ↦ h)
  refine ends_perform ?_
  rw [show (RebuildCall.server asked.serverId).handle (chances 0) rows =
    (.ok ((chances 0).server.filter (·.id = asked.serverId)), rows) from rfl]
  dsimp only
  cases (chances 0).server.filter (·.id = asked.serverId) with
  | none => exact ends_throw h
  | some server =>
    refine ends_lift (fun _ _ ↦ ?_) (fun _ _ ↦ h)
    refine ends_perform ?_
    rw [show (RebuildCall.operationByKey asked.operationKey).handle (Transition.rest chances 0)
      rows = (.ok (rows.operations.rows.find? (·.operationKey = asked.operationKey)), rows)
      from rfl]
    dsimp only
    cases hfound : rows.operations.rows.find? (·.operationKey = asked.operationKey) with
    | none =>
      refine ends_newRebuild h server fun id hid ↦ ?_
      obtain ⟨operation, hget, hkey⟩ := Option.map_eq_some_iff.mp hid
      have hnot := List.find?_eq_none.mp hfound operation (Table.mem_of_get hget)
      simp [hkey] at hnot
    | some operation =>
      have hmem := List.mem_of_find?_eq_some hfound
      have hkey : operation.operationKey = asked.operationKey := by
        simpa using List.find?_some hfound
      refine ends_existingRebuild h server (Table.mem_iff_get.mp hmem) fun hkey' hpending ↦ ?_
      exact hsame hconfirmed (hkey.symm.trans hkey') operation hmem hkey' hpending

/-! ### Passes -/

open RebuildWorker

/-- What `image_lookup` answers for the operation of the key, if it is listed, is its image. -/
def LookedUp (key : String) (rows : RebuildRows) (listed : List Operation)
    (chances : ℕ → RebuildChance) : Prop :=
  ∀ operation ∈ listed, rows.keyOf operation.id = some key → ∀ n text,
    (chances n).image operation.id = .ok (some text) → strip text ≠ "" →
      rows.confirmedImage key = some text

theorem LookedUp.tail {operation : Operation} {rest : List Operation} {images : String → Prop}
    (h : LookedUp key rows (operation :: rest) chances)
    (hexecuted : Executed operationKey images rows after) (calls : ℕ) :
    LookedUp key after rest fun index ↦ chances (index + calls) := by
  intro other hother hkey n text hanswer hblank
  rw [hexecuted.keys] at hkey
  rw [confirmedImage_executed hexecuted]
  exact h other (List.mem_cons_of_mem _ hother) hkey _ text hanswer hblank

theorem ends_listedRebuilds (listed : List Operation) :
    ∀ {rows : RebuildRows} {chances : ℕ → RebuildChance}, Resolved key rows →
      LookedUp key rows listed chances →
      Ends RebuildCall.handle (fun _ _ after ↦ Resolved key after) (executeListed listed)
        chances rows := by
  induction listed with
  | nil =>
    intro rows chances h _
    exact ends_pure h
  | cons operation rest ih =>
    intro rows chances h hlooked
    rw [executeListed]
    refine ends_perform ?_
    rw [handle_claim]
    cases hrow : rows.operations.get operation.id with
    | none => exact ih h (hlooked.tail (Executed.refl key (fun _ ↦ False) rows) 1)
    | some row =>
      let images (text : String) : Prop :=
        strip text ≠ "" ∧ ∃ n, (chances n).image operation.id = .ok (some text)
      have hclaimed := (Executed.refl row.operationKey images rows).handle (.claim operation.id)
        trivial (chances 0)
      rw [handle_claim, hrow] at hclaimed
      have hsame := (claim_same row (chances 0).now).2.2
      have hkey : rows.keyOf operation.id = some row.operationKey := by
        rw [RebuildRows.keyOf, hrow]
        rfl
      have hkept {after : RebuildRows} (hran : Executed row.operationKey images rows after) :
          Resolved key after := by
        refine h.executed ⟨_, hkey⟩ (fun heq text himage ↦ ?_) hran
        obtain ⟨hblank, n, hanswer⟩ := himage
        exact hlooked operation (List.mem_cons_self ..) (hkey.trans (congrArg some heq)) n text
          hanswer hblank
      dsimp only at hclaimed ⊢
      cases hclaim : (Operations.claim row (chances 0).now).2 with
      | none => exact ih (hkept hclaimed) (hlooked.tail hclaimed 1)
      | some claimed =>
        obtain ⟨hid, hcopy⟩ := hsame claimed hclaim
        rw [Table.key_of_get hrow] at hid
        rw [← hcopy] at hclaimed
        refine ends_bind ((ends_rebuild ?_ ?_ hclaimed).left.mono fun outcome left after hran ↦ ?_)
        · intro text htext
          cases htext
        · intro _ n text hanswer hblank
          rw [hid] at hanswer
          exact ⟨hblank, n + 1, hanswer⟩
        · obtain ⟨hran, calls, rfl⟩ := hran
          rw [Ran, hcopy] at hran
          cases outcome with
          | error raised => exact hkept hran
          | ok result => exact ih (hkept hran) (hlooked.tail hran (calls + 1))

theorem ends_pendingRebuilds (h : Resolved key rows) (hsame : rows.SameImage key (.pass chances)) :
    Ends RebuildCall.handle (fun _ _ after ↦ Resolved key after) processPending chances rows := by
  unfold processPending
  refine ends_perform (ends_listedRebuilds _ h ?_)
  intro operation hlisted hkey n text hanswer hblank
  obtain ⟨hmem, hpending⟩ := List.mem_filter.mp hlisted
  rw [RebuildRows.keyOf, Table.mem_iff_get.mp hmem] at hkey
  exact hsame operation hmem (Option.some.inj hkey) (of_decide_eq_true hpending).2 (n + 1) text
    hanswer hblank

end Intents

/-- In a run in which whatever resumes the operation of a key brings the image of its confirmed
request, every rebuild that is sent for the operation has that image. -/
theorem oneImage_of_sameImage (key : String) (operations : Table Operation.id)
    (hnew : ∀ operation ∈ operations.rows, operation.operationKey ≠ key)
    (events : List RebuildEvent)
    (hsame : Along RebuildRows.step (RebuildRows.SameImage key) ⟨operations, [], []⟩ events) :
    Throughout RebuildRows.step (RebuildRows.OneImage key) ⟨operations, [], []⟩ events := by
  have hstart : Resolved key ⟨operations, [], []⟩ := by
    left
    refine ⟨fun id hid ↦ ?_, fun record hrecord ↦ (nomatch hrecord),
      fun sending hsending ↦ (nomatch hsending)⟩
    obtain ⟨operation, hget, hkey⟩ := Option.map_eq_some_iff.mp hid
    exact hnew operation (Table.mem_of_get hget) hkey
  refine (throughout_of_along (fun rows event h hcondition ↦ ?_) events _ hstart hsame).mono
    fun _ h ↦ h.oneImage
  cases event with
  | request asked chances =>
    exact (ends_rebuildRequest h hcondition).eval
  | pass chances =>
    exact (ends_pendingRebuilds h hcondition).eval

/-! ### One server, one key -/

namespace RetriedRebuild

def userId : Uuid :=
  ⟨"00000000-0000-0000-0000-000000000001", .refl true⟩

def server : CloudServer where
  id := ⟨"00000000-0000-0000-0000-000000000002", .refl true⟩
  userId := userId
  providerKey := "hetzner"
  state := .running
  providerServerId := some "4711"

def asked (imageId : String) : RebuildRequest where
  userId := userId
  serverId := server.id
  imageId := imageId
  idempotencyKey := "k1"
  confirmed := true

/-- The provider's answer to a rebuild, and that of the lookup to the worker. -/
def met (sent : Result String) (image : Option String := none) : ℕ → RebuildChance := fun _ ↦ {
  now := 0
  newId := ⟨"00000000-0000-0000-0000-000000000003", .refl true⟩
  server := some server
  image := fun _ ↦ .ok image
  sent := sent }

def start : RebuildRows :=
  ⟨⟨[], List.nodup_nil⟩, [], []⟩

/-- A confirmed rebuild that the provider could not take yet. -/
def unavailable : RebuildEvent :=
  .request (asked "debian-12") (met (raise .providerUnavailable "503"))

def key : String :=
  (asked "").operationKey

/-- The worker retries with the confirmed image. -/
theorem oneImage_retried : Throughout RebuildRows.step (RebuildRows.OneImage key) start
    [unavailable, .pass (met (.ok "initiated") (some "debian-12"))] := by
  refine oneImage_of_sameImage key ⟨[], List.nodup_nil⟩ (by simp) _ ⟨?_, ?_, trivial⟩
  · intro _ _ operation hoperation
    cases hoperation
  · intro operation _ _ _ n image hanswer _
    obtain rfl : "debian-12" = image := Option.some.inj (Except.ok.inj hanswer)
    decide +kernel

/-- A second request under the key sends its own image. -/
theorem not_oneImage_otherRequest : ¬ Throughout RebuildRows.step (RebuildRows.OneImage key) start
    [unavailable, .request (asked "ubuntu-24.04") (met (.ok "initiated"))] := by
  intro h
  have hlast := (Transition.throughout_iff_forall_take _ _ _ _).mp h 2
  have hsame := hlast ⟨key, "4711", "ubuntu-24.04"⟩ (by decide +kernel) rfl
  exact absurd hsame (by decide +kernel)

end RetriedRebuild

end CloudPlatform.Operations
