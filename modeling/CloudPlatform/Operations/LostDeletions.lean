import CloudPlatform.Operations.DeleteReconciler
import Mathlib.Data.List.Sort

/-!
# Deletions without an intent

The reconciler is to make an intent for a server in DELETE_REQUESTED that has no delete operation.
It does so for a server that has failed deletions too, when none of them is among the fifty failures
that the query returns. `noSecondIntent_iff` says that nothing else makes it insert a second intent.
-/

namespace CloudPlatform.Operations

open Compute (CloudServer)
open Rows (Table)

/-- The statuses in which a delete operation stands for the deletion of its server. -/
def deletionStatuses : List OperationStatus :=
  [.pending, .inFlight, .failed]

/-- The server has a delete operation in one of the statuses. -/
def HasDeletion (rows : DeleteRows) (serverId : Uuid) (statuses : List OperationStatus) : Prop :=
  ∃ operation ∈ rows.operations.rows, operation.operationType = .serverDelete ∧
    operation.resourceId = serverId ∧ operation.status ∈ statuses

/-- Every inserted intent is for a server in DELETE_REQUESTED that has no delete operation which is
pending, in flight or failed. -/
def NoSecondIntent (facts : ReconcileFacts) (rows : DeleteRows) : Prop :=
  ∀ intent ∈ (rows.reconcile facts).2.created, ∃ server ∈ rows.servers.rows,
    server.id = intent.resourceId ∧ server.state = .deleteRequested ∧
      ¬ HasDeletion rows server.id deletionStatuses

section Settling

variable (facts : ReconcileFacts) (rows : DeleteRows)

/-- The operation is to be written by the first part of the reconciliation: its server is gone, or
it is past the timeout. -/
def Stale (operation : Operation) : Prop :=
  rows.servers.get operation.resourceId = none ∨ DeleteRows.recent facts operation = false

instance (operation : Operation) : Decidable (Stale facts rows operation) :=
  inferInstanceAs (Decidable (_ ∨ _))

/-- The row of an in-flight deletion after the first part. -/
def settled (operation : Operation) : Operation :=
  if rows.servers.get operation.resourceId = none then
    { operation with
      status := .failed
      error := some "server row missing during delete-timeout reconciliation"
      updatedAt := some (facts.savedAt operation.id) }
  else if DeleteRows.recent facts operation then operation
  else
    { operation with
      status := .pending
      error := some ("in-flight timeout: re-entering the deletion saga with the " ++
        "same operation key (404 on delete is success)")
      updatedAt := some (facts.savedAt operation.id) }

/-- The reconciliation stops at an in-flight deletion that it cannot write, one with a routing
receipt. -/
def Interrupted : Prop :=
  ∃ operation ∈ rows.deletions .inFlight, Stale facts rows operation ∧
    operation.response.createRouting ≠ none

end Settling

section First

variable {facts : ReconcileFacts} {rows : DeleteRows} {operation : Operation}

@[simp] theorem id_settled : (settled facts rows operation).id = operation.id := by
  unfold settled
  split_ifs <;> rfl

theorem mem_deletions {status : OperationStatus} : operation ∈ rows.deletions status ↔
    operation ∈ rows.operations.rows ∧ operation.operationType = .serverDelete ∧
      operation.status = status := by
  rw [DeleteRows.deletions, List.mem_filter, decide_eq_true_iff]

/-- What the first part does with one in-flight deletion. -/
theorem settleInFlight_eq (facts : ReconcileFacts)
    (hrow : rows.operations.get operation.id = some operation)
    (hstatus : operation.status = .inFlight) :
    (Stale facts rows operation → operation.response.createRouting ≠ none →
      ∃ raised, rows.settleInFlight facts operation = .error raised) ∧
    (¬ (Stale facts rows operation ∧ operation.response.createRouting ≠ none) →
      ∃ after, rows.settleInFlight facts operation = .ok after ∧
        after.operations = rows.operations.put (settled facts rows operation) ∧
          after.servers = rows.servers ∧ after.created = rows.created) := by
  have hfail : operation.fail "server row missing during delete-timeout reconciliation" =
      .ok { operation with
        status := .failed
        error := some "server row missing during delete-timeout reconciliation" } := by
    unfold Operation.fail Operation.transitionTo
    rw [rejectIf_bind (by rw [hstatus]; rfl)]
    rfl
  have hrequeue (error : String) : operation.requeue error =
      .ok { operation with status := .pending, error := some error } := by
    unfold Operation.requeue Operation.transitionTo
    rw [rejectIf_bind (by rw [hstatus]; rfl)]
    rfl
  have hsave (status : OperationStatus) (error : String) :
      rows.save facts { operation with status := status, error := some error } = (do
        rejectIf operation.response.createRouting.isSome .createAttemptConflict
          "receipt-backed creates require fenced persistence"
        return { rows with operations := rows.operations.put { operation with
          status := status
          error := some error
          updatedAt := some (facts.savedAt operation.id) } }) := by
    unfold DeleteRows.save save
    dsimp only
    rw [hrow]
    dsimp only
    cases operation.response.createRouting.isSome <;> simp [rejectIf, raise, bind, Except.bind,
      pure, Except.pure]
  unfold Stale DeleteRows.settleInFlight settled
  cases hserver : rows.servers.get operation.resourceId with
  | none =>
    dsimp only
    rw [hfail, ok_bind, hsave .failed, if_pos rfl]
    constructor
    · intro _ hrouting
      exact ⟨_, by rw [Option.isSome_iff_ne_none.mpr hrouting]; rfl⟩
    · intro hfree
      have hnone : operation.response.createRouting = none := by
        by_contra hrouting
        exact hfree ⟨Or.inl rfl, hrouting⟩
      rw [hnone]
      exact ⟨_, rfl, rfl, rfl, rfl⟩
  | some server =>
    dsimp only
    rw [if_neg (Option.some_ne_none server)]
    by_cases hrecent : DeleteRows.recent facts operation = true
    · rw [if_pos hrecent, if_pos hrecent]
      constructor
      · intro hstale
        rcases hstale with hgone | hold
        · cases hgone
        · rw [hrecent] at hold
          cases hold
      · intro _
        exact ⟨rows, rfl, (Table.put_of_get hrow).symm, rfl, rfl⟩
    · rw [if_neg hrecent, if_neg hrecent, hrequeue, ok_bind, hsave .pending]
      constructor
      · intro _ hrouting
        exact ⟨_, by rw [Option.isSome_iff_ne_none.mpr hrouting]; rfl⟩
      · intro hfree
        have hnone : operation.response.createRouting = none := by
          by_contra hrouting
          exact hfree ⟨Or.inr (by simpa using hrecent), hrouting⟩
        rw [hnone]
        exact ⟨_, rfl, rfl, rfl, rfl⟩

/-- The listed rows are in flight, and each is listed once. -/
def ListedInFlight (rows : DeleteRows) (listed : List Operation) : Prop :=
  (∀ operation ∈ listed, rows.operations.get operation.id = some operation ∧
    operation.status = .inFlight) ∧ (listed.map Operation.id).Nodup

theorem listedInFlight_deletions (rows : DeleteRows) :
    ListedInFlight rows (rows.deletions .inFlight) := by
  constructor
  · intro operation hmem
    obtain ⟨hrow, -, hstatus⟩ := mem_deletions.mp hmem
    exact ⟨Table.mem_iff_get.mp hrow, hstatus⟩
  · exact rows.operations.unique.sublist (List.filter_sublist.map Operation.id)

/-- Settling the first of the listed rows leaves the others. -/
theorem ListedInFlight.put {first : Operation} {rest : List Operation} {middle : DeleteRows}
    (h : ListedInFlight rows (first :: rest))
    (hput : middle.operations = rows.operations.put (settled facts rows first)) :
    ListedInFlight middle rest ∧ ∀ operation ∈ rest, operation.id ≠ first.id := by
  obtain ⟨hrows, hnodup⟩ := h
  obtain ⟨hnew, hrestNodup⟩ := List.nodup_cons.mp hnodup
  have hne : ∀ operation ∈ rest, operation.id ≠ first.id := by
    intro operation hmem hid
    exact hnew (List.mem_map.mpr ⟨operation, hmem, hid⟩)
  refine ⟨⟨fun operation hmem ↦ ?_, hrestNodup⟩, hne⟩
  obtain ⟨hrow, hstatus⟩ := hrows operation (List.mem_cons_of_mem _ hmem)
  refine ⟨?_, hstatus⟩
  rw [hput, Table.get_put_of_ne _ (by rw [id_settled]; exact (hne operation hmem).symm)]
  exact hrow

/-- The first part with nothing to interrupt it: every listed deletion is settled in its row. -/
theorem settleAll_eq {listed : List Operation} (hlisted : ListedInFlight rows listed)
    (hfree : ∀ operation ∈ listed,
      ¬ (Stale facts rows operation ∧ operation.response.createRouting ≠ none)) :
    ∃ after, DeleteRows.settleAll facts listed rows = (.ok (), after) ∧
      after.operations.rows = rows.operations.rows.map (fun operation ↦
        if operation ∈ listed then settled facts rows operation else operation) ∧
      after.servers = rows.servers ∧ after.created = rows.created := by
  induction listed generalizing rows with
  | nil => exact ⟨rows, rfl, by simp, rfl, rfl⟩
  | cons first rest ih =>
    obtain ⟨hrow, hstatus⟩ := hlisted.1 first List.mem_cons_self
    obtain ⟨hfirstFree, hrestFree⟩ := List.forall_mem_cons.mp hfree
    obtain ⟨middle, hmiddle, hput, hservers, hcreated⟩ :=
      (settleInFlight_eq facts hrow hstatus).2 hfirstFree
    obtain ⟨hrest, hne⟩ := hlisted.put hput
    have hstale (operation : Operation) : Stale facts middle operation =
        Stale facts rows operation := by
      unfold Stale
      rw [hservers]
    have hsame (operation : Operation) : settled facts middle operation =
        settled facts rows operation := by
      unfold settled
      rw [hservers]
    obtain ⟨after, hafter, hrows, hafterServers, hafterCreated⟩ := ih hrest
      fun operation hmem ↦ (hstale operation).symm ▸ hrestFree operation hmem
    refine ⟨after, ?_, ?_, hafterServers.trans hservers, hafterCreated.trans hcreated⟩
    · rw [DeleteRows.settleAll, hmiddle]
      exact hafter
    · have hput' : middle.operations.rows = rows.operations.rows.map fun other ↦
          if other = first then settled facts rows first else other := by
        rw [hput]
        exact Table.rows_put_of_get (by rwa [id_settled])
      rw [hrows, hput', List.map_map]
      refine List.map_congr_left fun operation hmem ↦ ?_
      rw [Function.comp_apply]
      by_cases hfirst : operation = first
      · have hnone : settled facts rows first ∉ rest :=
          fun hrest ↦ hne _ hrest id_settled
        rw [if_pos hfirst, if_neg hnone, if_pos (hfirst ▸ List.mem_cons_self), hfirst]
      · rw [if_neg hfirst, hsame]
        simp only [List.mem_cons, hfirst, false_or]

/-- The first part that is interrupted inserts nothing. -/
theorem settleAll_interrupted (facts : ReconcileFacts) {listed : List Operation}
    (hlisted : ListedInFlight rows listed) (hstop : ∃ operation ∈ listed,
      Stale facts rows operation ∧ operation.response.createRouting ≠ none) :
    ∃ raised after, DeleteRows.settleAll facts listed rows = (.error raised, after) ∧
      after.created = rows.created := by
  induction listed generalizing rows with
  | nil =>
    obtain ⟨operation, hmem, -⟩ := hstop
    cases hmem
  | cons first rest ih =>
    obtain ⟨hrow, hstatus⟩ := hlisted.1 first List.mem_cons_self
    obtain ⟨herror, hok⟩ := settleInFlight_eq facts hrow hstatus
    by_cases hfirst : Stale facts rows first ∧ first.response.createRouting ≠ none
    · obtain ⟨raised, hraised⟩ := herror hfirst.1 hfirst.2
      refine ⟨raised, rows, ?_, rfl⟩
      rw [DeleteRows.settleAll, hraised]
    · obtain ⟨middle, hmiddle, hput, hservers, hcreated⟩ := hok hfirst
      have hstale (operation : Operation) : Stale facts middle operation =
          Stale facts rows operation := by
        unfold Stale
        rw [hservers]
      obtain ⟨operation, hmem, hstops⟩ := hstop
      have hrest : operation ∈ rest := by
        rcases List.mem_cons.mp hmem with hsame | hrest
        · exact absurd (hsame ▸ hstops) hfirst
        · exact hrest
      obtain ⟨raised, after, hafter, hafterCreated⟩ := ih (hlisted.put hput).1
        ⟨operation, hrest, (hstale operation).symm ▸ hstops.1, hstops.2⟩
      refine ⟨raised, after, ?_, hafterCreated.trans hcreated⟩
      rw [DeleteRows.settleAll, hmiddle]
      exact hafter

end First

/-! ### The second part -/

section Second

variable {rows : DeleteRows} {deleteOps : List Operation} {servers : List CloudServer}

/-- The second part finds no operation of the server. -/
def Selected (deleteOps : List Operation) (server : CloudServer) : Prop :=
  server.state = .deleteRequested ∧ ∀ operation ∈ deleteOps, operation.resourceId ≠ server.id

/-- The intent for a server whose operation was lost. -/
def lostIntent (server : CloudServer) : OperationIntent where
  operationKey := reconciledDeleteKey server.id
  operationType := .serverDelete
  resourceId := server.id
  providerKey := server.providerKey

theorem reconciledDeleteKey_injective {first second : Uuid}
    (h : reconciledDeleteKey first = reconciledDeleteKey second) : first = second := by
  have hchars : ("server-delete:".toList ++ first.text.toList) ++ ":reconciled".toList =
      ("server-delete:".toList ++ second.text.toList) ++ ":reconciled".toList := by
    rw [← String.toList_append, ← String.toList_append, ← String.toList_append,
      ← String.toList_append]
    exact congrArg String.toList h
  exact Uuid.text_injective (String.toList_injective
    (List.append_cancel_left (List.append_cancel_right hchars)))

theorem recreate_of_selected {server : CloudServer} (h : Selected deleteOps server) :
    rows.recreate deleteOps server = rows.getOrCreate (lostIntent server) := by
  unfold DeleteRows.recreate
  rw [if_neg (by simp [h.1]), if_neg ?_]
  · rfl
  · rw [List.any_eq_true]
    intro ⟨operation, hmem, hsame⟩
    exact h.2 operation hmem (of_decide_eq_true hsame)

theorem recreate_of_not_selected {server : CloudServer} (h : ¬ Selected deleteOps server) :
    rows.recreate deleteOps server = rows := by
  unfold DeleteRows.recreate
  split_ifs with hstate hany
  · rfl
  · rfl
  · refine absurd ⟨not_not.mp hstate, fun operation hmem hsame ↦ hany ?_⟩ h
    exact List.any_eq_true.mpr ⟨operation, hmem, decide_eq_true hsame⟩

/-- The key is in the ledger already. -/
def KeyKnown (operations : Table Operation.id) (server : CloudServer) : Prop :=
  ∃ operation ∈ operations.rows, operation.operationKey = reconciledDeleteKey server.id

theorem getOrCreate_cases (rows : DeleteRows) (intent : OperationIntent) :
    (rows.getOrCreate intent = rows ∧
      ((∃ operation ∈ rows.operations.rows, operation.operationKey = intent.operationKey) ∨
        ∃ other ∈ rows.created, other.operationKey = intent.operationKey)) ∨
    (rows.getOrCreate intent = { rows with created := rows.created ++ [intent] } ∧
      ¬ ∃ operation ∈ rows.operations.rows, operation.operationKey = intent.operationKey) := by
  unfold DeleteRows.getOrCreate
  split_ifs with hknown
  · left
    refine ⟨rfl, ?_⟩
    rcases Bool.or_eq_true_iff.mp hknown with hrow | hcreated
    · obtain ⟨operation, hmem, hkey⟩ := List.any_eq_true.mp hrow
      exact Or.inl ⟨operation, hmem, of_decide_eq_true hkey⟩
    · obtain ⟨other, hmem, hkey⟩ := List.any_eq_true.mp hcreated
      exact Or.inr ⟨other, hmem, of_decide_eq_true hkey⟩
  · right
    refine ⟨rfl, ?_⟩
    intro ⟨operation, hmem, hkey⟩
    refine hknown (Bool.or_eq_true_iff.mpr (Or.inl (List.any_eq_true.mpr ?_)))
    exact ⟨operation, hmem, decide_eq_true hkey⟩

/-- The intents that the second part inserts: for selected servers only, and for each of them unless
its key is in the ledger. -/
structure Recreated (deleteOps : List Operation) (servers : List CloudServer)
    (before after : DeleteRows) : Prop where
  operations : after.operations = before.operations
  grows : before.created ⊆ after.created
  sound : ∀ intent ∈ after.created, intent ∈ before.created ∨
    ∃ server ∈ servers, Selected deleteOps server ∧ ¬ KeyKnown before.operations server ∧
      intent = lostIntent server
  complete : ∀ server ∈ servers, Selected deleteOps server → KeyKnown before.operations server ∨
    ∃ intent ∈ after.created, intent.operationKey = reconciledDeleteKey server.id

theorem recreated_foldl (deleteOps : List Operation) (servers : List CloudServer)
    (rows : DeleteRows) : Recreated deleteOps servers rows
      (servers.foldl (fun rows server ↦ rows.recreate deleteOps server) rows) := by
  induction servers generalizing rows with
  | nil =>
    refine ⟨rfl, List.Subset.refl _, fun intent hmem ↦ Or.inl hmem, ?_⟩
    intro server hmem
    cases hmem
  | cons first rest ih =>
    have hrest := ih (rows.recreate deleteOps first)
    rw [List.foldl_cons]
    by_cases hselected : Selected deleteOps first
    · rw [recreate_of_selected hselected] at hrest ⊢
      rcases getOrCreate_cases rows (lostIntent first) with
        ⟨hsame, hknown⟩ | ⟨hinserted, hnew⟩
      · rw [hsame] at hrest ⊢
        refine ⟨hrest.operations, hrest.grows, ?_, ?_⟩
        · intro intent hmem
          rcases hrest.sound intent hmem with hold | ⟨server, hserver, hfound⟩
          · exact Or.inl hold
          · exact Or.inr ⟨server, List.mem_cons_of_mem _ hserver, hfound⟩
        · intro server hserver hchosen
          rcases List.mem_cons.mp hserver with hfirst | hlater
          · subst hfirst
            rcases hknown with hrow | ⟨other, hmem, hkey⟩
            · exact Or.inl hrow
            · exact Or.inr ⟨other, hrest.grows hmem, hkey⟩
          · exact hrest.complete server hlater hchosen
      · rw [hinserted] at hrest ⊢
        refine ⟨hrest.operations, fun intent hmem ↦ hrest.grows (List.mem_append_left _ hmem),
          ?_, ?_⟩
        · intro intent hmem
          rcases hrest.sound intent hmem with hold | ⟨server, hserver, hfound⟩
          · rcases List.mem_append.mp hold with hbefore | hlast
            · exact Or.inl hbefore
            · exact Or.inr ⟨first, List.mem_cons_self, hselected, hnew,
                List.mem_singleton.mp hlast⟩
          · exact Or.inr ⟨server, List.mem_cons_of_mem _ hserver, hfound⟩
        · intro server hserver hchosen
          rcases List.mem_cons.mp hserver with hfirst | hlater
          · subst hfirst
            exact Or.inr ⟨lostIntent server,
              hrest.grows (List.mem_append_right _ (List.mem_singleton_self _)), rfl⟩
          · exact hrest.complete server hlater hchosen
    · rw [recreate_of_not_selected hselected] at hrest ⊢
      refine ⟨hrest.operations, hrest.grows, ?_, ?_⟩
      · intro intent hmem
        rcases hrest.sound intent hmem with hold | ⟨server, hserver, hfound⟩
        · exact Or.inl hold
        · exact Or.inr ⟨server, List.mem_cons_of_mem _ hserver, hfound⟩
      · intro server hserver hchosen
        rcases List.mem_cons.mp hserver with hfirst | hlater
        · exact absurd (hfirst ▸ hchosen) hselected
        · exact hrest.complete server hlater hchosen

end Second

/-! ### Second intents -/

section Intents

variable (facts : ReconcileFacts) (rows : DeleteRows)

/-- The row of an operation after the first part. -/
def settledRow (operation : Operation) : Operation :=
  if operation ∈ rows.deletions .inFlight then settled facts rows operation else operation

/-- The failed deletions that the second part lists from: those of before, and the in-flight ones
whose server is gone. -/
def failures : List Operation :=
  (rows.operations.rows.map (settledRow facts rows)).filter fun operation ↦
    operation.operationType = .serverDelete ∧ operation.status = .failed

/-- Every server in DELETE_REQUESTED that has a failed deletion has one among the fifty that were
updated last, or a live deletion, or its reconciled key is in the ledger already. -/
def Shown : Prop :=
  ∀ server ∈ rows.servers.rows, server.state = .deleteRequested →
    HasDeletion rows server.id [.failed] →
      HasDeletion rows server.id [.pending, .inFlight] ∨ KeyKnown rows.operations server ∨
        ∃ operation ∈ (facts.newestFirst (failures facts rows)).take 50,
          operation.resourceId = server.id

theorem settledRow_same (operation : Operation) :
    (settledRow facts rows operation).operationType = operation.operationType ∧
      (settledRow facts rows operation).resourceId = operation.resourceId ∧
        (settledRow facts rows operation).operationKey = operation.operationKey := by
  unfold settledRow settled
  split_ifs <;> exact ⟨rfl, rfl, rfl⟩

variable {rows}

/-- The first part keeps the deletions of a server that is there live. -/
theorem live_settledRow {server : CloudServer} (hserver : server ∈ rows.servers.rows)
    {operation : Operation} (hresource : operation.resourceId = server.id) :
    (settledRow facts rows operation).status ∈ [OperationStatus.pending, .inFlight] ↔
      operation.status ∈ [OperationStatus.pending, .inFlight] := by
  have hthere : rows.servers.get operation.resourceId ≠ none := by
    rw [hresource, Table.mem_iff_get.mp hserver]
    exact Option.some_ne_none server
  unfold settledRow settled
  by_cases hlisted : operation ∈ rows.deletions .inFlight
  · obtain ⟨-, -, hstatus⟩ := mem_deletions.mp hlisted
    rw [if_pos hlisted, if_neg hthere]
    split_ifs <;> simp [hstatus]
  · rw [if_neg hlisted]

variable {facts} {after : DeleteRows}

/-- What the second part lists of live deletions, it lists of the servers that have one. -/
theorem live_deletions (hrows : after.operations.rows =
      rows.operations.rows.map (settledRow facts rows)) {server : CloudServer}
    (hserver : server ∈ rows.servers.rows) :
    (∃ operation ∈ after.deletions .pending ++ after.deletions .inFlight,
      operation.resourceId = server.id) ↔ HasDeletion rows server.id [.pending, .inFlight] := by
  constructor
  · intro ⟨operation, hlisted, hresource⟩
    have hlive : operation ∈ after.operations.rows ∧ operation.operationType = .serverDelete ∧
        operation.status ∈ [OperationStatus.pending, .inFlight] := by
      rcases List.mem_append.mp hlisted with hpending | hflight
      · obtain ⟨hmem, htype, hstatus⟩ := mem_deletions.mp hpending
        exact ⟨hmem, htype, by simp [hstatus]⟩
      · obtain ⟨hmem, htype, hstatus⟩ := mem_deletions.mp hflight
        exact ⟨hmem, htype, by simp [hstatus]⟩
    obtain ⟨hmem, htype, hstatus⟩ := hlive
    rw [hrows] at hmem
    obtain ⟨before, hbefore, rfl⟩ := List.mem_map.mp hmem
    obtain ⟨hsameType, hsameResource, -⟩ := settledRow_same facts rows before
    rw [hsameType] at htype
    rw [hsameResource] at hresource
    exact ⟨before, hbefore, htype, hresource,
      (live_settledRow facts hserver hresource).mp hstatus⟩
  · intro ⟨operation, hmem, htype, hresource, hstatus⟩
    obtain ⟨hsameType, hsameResource, -⟩ :=
      settledRow_same facts rows operation
    have hafter : settledRow facts rows operation ∈ after.operations.rows := by
      rw [hrows]
      exact List.mem_map_of_mem hmem
    have hlive := (live_settledRow facts hserver hresource).mpr hstatus
    refine ⟨settledRow facts rows operation, List.mem_append.mpr ?_, hsameResource.trans hresource⟩
    rw [mem_deletions, mem_deletions]
    rcases List.mem_cons.mp hlive with hpending | hflight
    · exact Or.inl ⟨hafter, hsameType.trans htype, hpending⟩
    · exact Or.inr ⟨hafter, hsameType.trans htype, List.mem_singleton.mp hflight⟩

/-- The second part selects the servers in DELETE_REQUESTED without a live deletion and without one
among the failures that it lists. -/
theorem selected_iff (hrows : after.operations.rows =
      rows.operations.rows.map (settledRow facts rows)) {server : CloudServer}
    (hserver : server ∈ rows.servers.rows) :
    Selected (after.deletions .pending ++ after.deletions .inFlight ++ after.listFailed facts)
        server ↔
      server.state = .deleteRequested ∧ ¬ HasDeletion rows server.id [.pending, .inFlight] ∧
        ¬ ∃ operation ∈ (facts.newestFirst (failures facts rows)).take 50,
          operation.resourceId = server.id := by
  have hfailed : after.listFailed facts = (facts.newestFirst (failures facts rows)).take 50 := by
    unfold DeleteRows.listFailed DeleteRows.deletions failures
    rw [hrows]
  rw [← live_deletions hrows hserver, Selected, hfailed]
  refine and_congr_right fun _ ↦ ?_
  constructor
  · intro hnone
    refine ⟨fun ⟨operation, hmem, hsame⟩ ↦ ?_, fun ⟨operation, hmem, hsame⟩ ↦ ?_⟩
    · exact hnone operation (List.mem_append_left _ hmem) hsame
    · exact hnone operation (List.mem_append_right _ hmem) hsame
  · intro ⟨hlive, hshown⟩ operation hmem hsame
    rcases List.mem_append.mp hmem with hlisted | hlisted
    · exact hlive ⟨operation, hlisted, hsame⟩
    · exact hshown ⟨operation, hlisted, hsame⟩

/-- The first part keeps the keys of the ledger. -/
theorem keyKnown_settled (hrows : after.operations.rows =
      rows.operations.rows.map (settledRow facts rows)) (server : CloudServer) :
    KeyKnown after.operations server ↔ KeyKnown rows.operations server := by
  unfold KeyKnown
  rw [hrows]
  constructor
  · intro ⟨operation, hmem, hkey⟩
    obtain ⟨before, hbefore, rfl⟩ := List.mem_map.mp hmem
    rw [(settledRow_same facts rows before).2.2] at hkey
    exact ⟨before, hbefore, hkey⟩
  · intro ⟨operation, hmem, hkey⟩
    exact ⟨settledRow facts rows operation, List.mem_map_of_mem hmem,
      (settledRow_same facts rows operation).2.2.trans hkey⟩

/-- An interrupted reconciliation inserts nothing. -/
theorem created_of_interrupted (h : Interrupted facts rows) :
    (rows.reconcile facts).2.created = rows.created := by
  obtain ⟨raised, after, hafter, hcreated⟩ :=
    settleAll_interrupted facts (listedInFlight_deletions rows) h
  unfold DeleteRows.reconcile
  rw [hafter]
  exact hcreated

/-- One that is not interrupted inserts the intents of the selected servers. -/
theorem recreated_of_not_interrupted (h : ¬ Interrupted facts rows) :
    ∃ after : DeleteRows, after.operations.rows =
        rows.operations.rows.map (settledRow facts rows) ∧ after.created = rows.created ∧
      Recreated (after.deletions .pending ++ after.deletions .inFlight ++ after.listFailed facts)
        rows.deletionInProgress after (rows.reconcile facts).2 := by
  have hfree : ∀ operation ∈ rows.deletions .inFlight,
      ¬ (Stale facts rows operation ∧ operation.response.createRouting ≠ none) :=
    fun operation hmem hstops ↦ h ⟨operation, hmem, hstops⟩
  obtain ⟨after, hafter, hrows, hservers, hcreated⟩ :=
    settleAll_eq (listedInFlight_deletions rows) hfree
  refine ⟨after, hrows, hcreated, ?_⟩
  have hlisted : after.deletionInProgress = rows.deletionInProgress := by
    unfold DeleteRows.deletionInProgress
    rw [hservers]
  have hdone : (rows.reconcile facts).2 = after.recreateLost facts := by
    unfold DeleteRows.reconcile
    rw [hafter]
  rw [hdone, ← hlisted]
  exact recreated_foldl _ _ _

/-- A second intent is inserted for a server with a failed deletion that is not shown. -/
theorem shown_of_noSecondIntent (hstart : rows.created = []) (hrun : ¬ Interrupted facts rows)
    (h : NoSecondIntent facts rows) : Shown facts rows := by
  intro server hserver hstate hfailed
  by_contra hnone
  push Not at hnone
  obtain ⟨hlive, hkey, hshown⟩ := hnone
  obtain ⟨after, hrows, hcreated, hrecreated⟩ := recreated_of_not_interrupted hrun
  have hselected := (selected_iff hrows hserver).mpr ⟨hstate, hlive, by simpa using hshown⟩
  have hlisted : server ∈ rows.deletionInProgress :=
    List.mem_filter.mpr ⟨hserver, by simp [hstate]⟩
  rcases hrecreated.complete server hlisted hselected with hknown | ⟨intent, hintent, hsame⟩
  · exact hkey ((keyKnown_settled hrows server).mp hknown)
  · obtain ⟨found, hfound, hid, -, hclear⟩ := h intent hintent
    rcases hrecreated.sound intent hintent with hold | ⟨other, -, -, -, hother⟩
    · rw [hcreated, hstart] at hold
      cases hold
    · subst hother
      have hids : other.id = server.id := reconciledDeleteKey_injective hsame
      refine hclear ?_
      rw [hid, show (lostIntent other).resourceId = server.id from hids]
      obtain ⟨operation, hmem, htype, hresource, hstatus⟩ := hfailed
      exact ⟨operation, hmem, htype, hresource,
        List.mem_cons_of_mem _ (List.mem_cons_of_mem _ hstatus)⟩

theorem noSecondIntent_of_shown (hstart : rows.created = []) (hrun : ¬ Interrupted facts rows)
    (h : Shown facts rows) : NoSecondIntent facts rows := by
  intro intent hintent
  obtain ⟨after, hrows, hcreated, hrecreated⟩ := recreated_of_not_interrupted hrun
  rcases hrecreated.sound intent hintent with hold | ⟨server, hserver, hselected, hnew, rfl⟩
  · rw [hcreated, hstart] at hold
    cases hold
  · have hmem : server ∈ rows.servers.rows := List.mem_of_mem_filter hserver
    obtain ⟨hstate, hlive, hunseen⟩ := (selected_iff hrows hmem).mp hselected
    refine ⟨server, hmem, rfl, hstate, ?_⟩
    intro ⟨operation, hrow, htype, hresource, hstatus⟩
    rcases List.mem_cons.mp hstatus with hpending | hstatus
    · exact hlive ⟨operation, hrow, htype, hresource, by simp [hpending]⟩
    · rcases List.mem_cons.mp hstatus with hflight | hfailed
      · exact hlive ⟨operation, hrow, htype, hresource, by simp [hflight]⟩
      · rcases h server hmem hstate ⟨operation, hrow, htype, hresource, hfailed⟩ with
          hlive' | hkey | hshown
        · exact hlive hlive'
        · exact hnew ((keyKnown_settled hrows server).mpr hkey)
        · exact hunseen hshown

/-- The reconciler inserts a second intent for no server, exactly when it is interrupted by an
in-flight deletion that it cannot write, or the fifty failures show one of every server in
DELETE_REQUESTED that has a failed deletion, no live one, and no reconciled key in the ledger. -/
theorem noSecondIntent_iff (facts : ReconcileFacts) (operations : Table Operation.id)
    (servers : Table CloudServer.id) :
    NoSecondIntent facts ⟨operations, servers, []⟩ ↔
      Interrupted facts ⟨operations, servers, []⟩ ∨ Shown facts ⟨operations, servers, []⟩ := by
  by_cases hrun : Interrupted facts ⟨operations, servers, []⟩
  · refine ⟨fun _ ↦ Or.inl hrun, fun _ intent hintent ↦ ?_⟩
    rw [created_of_interrupted hrun] at hintent
    cases hintent
  · constructor
    · intro h
      exact Or.inr (shown_of_noSecondIntent rfl hrun h)
    · intro h
      exact noSecondIntent_of_shown rfl hrun (h.resolve_left hrun)

end Intents

/-! ### Fifty-one failed deletions -/

namespace FailedDeletions

/-- A decimal digit. -/
def digit (n : Fin 10) : Char :=
  Nat.digitChar n

theorem isHexDigit_digit : ∀ n, isHexDigit (digit n) = true := by
  decide

/-- A UUID of zeros but for its first digit and the last two. -/
def numbered (first tens ones : Fin 10) : Uuid where
  text := String.ofList (digit first :: "0000000-0000-0000-0000-0000000000".toList ++
    [digit tens, digit ones])
  canonical := by
    simp [isCanonicalUuid, isHexDigit_digit]
    decide

theorem digit_injective : Function.Injective digit := by
  intro first second
  revert first second
  decide

theorem numbered_injective {first tens ones : Fin 10} {tens' ones' : Fin 10}
    (h : numbered first tens ones = numbered first tens' ones') : tens = tens' ∧ ones = ones' := by
  have hchars := congrArg (fun id : Uuid ↦ id.text.toList) h
  simpa [numbered, digit_injective.eq_iff] using hchars

/-- The failed deletion of a server, updated at the instant that is its number. -/
def failed (n : ℕ) : Operation where
  id := numbered 0 (Fin.ofNat 10 (n / 10)) (Fin.ofNat 10 n)
  operationKey := "server-delete:" ++
    (numbered 1 (Fin.ofNat 10 (n / 10)) (Fin.ofNat 10 n)).text ++ ":telegram"
  operationType := .serverDelete
  resourceType := "server"
  resourceId := numbered 1 (Fin.ofNat 10 (n / 10)) (Fin.ofNat 10 n)
  providerKey := "hetzner"
  status := .failed
  attempts := 1
  updatedAt := some n

/-- Failures by their last update, the latest first. -/
def Newer (first second : Operation) : Prop :=
  second.updatedAt.getD 0 ≤ first.updatedAt.getD 0

instance : DecidableRel Newer :=
  fun _ _ ↦ inferInstanceAs (Decidable (_ ≤ _))

/-- A reconciliation whose database sorts by insertion. -/
def facts : ReconcileFacts where
  inFlightTimeout := 15 * 60 * Calendar.second
  now _ := 100
  savedAt _ := 100
  newestFirst operations := operations.insertionSort Newer
  newestFirst_perm operations := List.perm_insertionSort Newer operations
  newestFirst_sorted operations := by
    have : Std.Total Newer := ⟨fun first second ↦ le_total _ _⟩
    have : IsTrans Operation Newer := ⟨fun first second third h h' ↦ le_trans h' h⟩
    refine (List.pairwise_insertionSort Newer operations).imp ?_
    intro first second h earlier hearlier later hlater
    unfold Newer at h
    rw [Option.mem_def.mp hearlier, Option.mem_def.mp hlater] at h
    exact h

/-- The ledger of fifty-one failures, the latest first. -/
def operations : Table Operation.id where
  rows := (List.range 51).reverse.map failed
  unique := by
    rw [List.map_map]
    refine List.Nodup.map_on ?_ (by decide)
    intro first hfirst second hsecond h
    obtain ⟨htens, hones⟩ := numbered_injective h
    rw [List.mem_reverse, List.mem_range] at hfirst hsecond
    have htens := congrArg Fin.val htens
    have hones := congrArg Fin.val hones
    simp only [Fin.val_ofNat] at htens hones
    omega

/-- The server of the oldest failure. -/
def server : CloudServer where
  id := numbered 1 0 0
  userId := numbered 2 0 0
  providerKey := "hetzner"
  state := .deleteRequested

def servers : Table CloudServer.id where
  rows := [server]
  unique := by simp

/-- The fifty-first failure is not among the fifty that are shown, so its server gets an intent. -/
theorem second_intent_inserted : ¬ NoSecondIntent facts ⟨operations, servers, []⟩ := by
  intro h
  have hcreated : lostIntent server ∈
      (DeleteRows.reconcile facts ⟨operations, servers, []⟩).2.created := by
    decide +kernel
  obtain ⟨found, -, hid, -, hclear⟩ := h _ hcreated
  refine hclear ⟨failed 0, ?_, rfl, ?_, ?_⟩
  · exact List.mem_map_of_mem (by decide)
  · rw [hid]
    rfl
  · decide

end FailedDeletions

end CloudPlatform.Operations
