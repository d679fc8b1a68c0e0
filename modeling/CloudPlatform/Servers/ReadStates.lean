import CloudPlatform.Servers.Reads

/-!
# What looking at servers does to them

A read is meant to change nothing that matters: a server under review stays there until it is
released, and an hourly server runs only after its hour is paid. The lifecycle machine is shared
with the releases and with the paid deliveries, so it lets a snapshot take their edges. `observed`
lists the rows that a read folds a snapshot into, `factsAfter_run` is all that the read does to the
lifecycle of the rows, and `keepsServers_iff` names the snapshots that do harm.
-/

namespace CloudPlatform.Servers

open Rows Transition
open Compute (ServerAggregate ServerLifecycleState)

/-! ### Reads and what they observe -/

/-- The screens. -/
inductive Screen
  | list (customerId : Uuid) (page : ℤ)
  | detail (customerId serverId : Uuid)
  | refresh (customerId serverId : Uuid)

/-- A screen is opened, with what the providers answer. -/
structure Look where
  screen : Screen
  registry : Registry
  now : ℤ

/-- The rows after a screen was opened. -/
def Look.run (policy : ServerManagementPolicy) (rows : ServerRows) (look : Look) : ServerRows :=
  match look.screen with
  | .list customerId page =>
    ((listServers policy look.registry look.now customerId page).run rows).2
  | .detail customerId serverId =>
    ((getServer policy look.registry look.now customerId serverId).run rows).2
  | .refresh customerId serverId =>
    ((refreshServer policy look.registry look.now customerId serverId).run rows).2

/-- The rows of a group with the snapshots that the inventory has of them. -/
def snapshotsOf (infos : List VpsInfo) (group : List ServerAggregate) :
    List (ServerAggregate × VpsInfo) :=
  group.filterMap fun row ↦ (snapshotOf infos row).map (row, ·)

/-- The rows that the groups are found in, up to the first account whose read raises. -/
def observedGroups (registry : Registry) :
    List (List ServerAggregate) → List (ServerAggregate × VpsInfo)
  | [] => []
  | group :: rest =>
    match inventoryOf registry group with
    | .error _ => []
    | .ok infos => snapshotsOf (infos.getD []) group ++ observedGroups registry rest

/-- A server with the snapshot that its adapter gives. -/
def observedServer (registry : Registry) (server : ServerAggregate) :
    List (ServerAggregate × VpsInfo) :=
  match server.providerServerId.filter (· ≠ ""), contextOf registry server with
  | some providerServerId, some context =>
    if context.inventory then
      ((context.getVpsInfo providerServerId).toOption.map (server, ·)).toList
    else []
  | _, _ => []

/-- The server of a customer, as `_owned` returns it. -/
def ownedServer (policy : ServerManagementPolicy) (rows : ServerRows)
    (customerId serverId : Uuid) : Option ServerAggregate :=
  if policy.enabled then (rows.get serverId).filter (·.userId = customerId) else none

/-- The rows that `refresh_server` folds a snapshot into. -/
def observedRefresh (policy : ServerManagementPolicy) (registry : Registry) (rows : ServerRows)
    (customerId serverId : Uuid) : List (ServerAggregate × VpsInfo) :=
  match ownedServer policy rows customerId serverId with
  | none => []
  | some server => observedServer registry server

/-- The rows that `get_server` folds a snapshot into. -/
def observedDetail (policy : ServerManagementPolicy) (registry : Registry) (rows : ServerRows)
    (customerId serverId : Uuid) : List (ServerAggregate × VpsInfo) :=
  match ownedServer policy rows customerId serverId with
  | none => []
  | some server =>
    if truthy server.providerServerId &&
        (contextOf registry server).any (·.authoritativeInventory) then
      observedServer registry server
    else []

/-- The rows that `list_servers` folds a snapshot into. -/
def observedList (policy : ServerManagementPolicy) (registry : Registry) (rows : ServerRows)
    (now : ℤ) (customerId : Uuid) (page : ℤ) : List (ServerAggregate × VpsInfo) :=
  if policy.enabled then
    observedGroups registry (accountGroups (pageOf policy rows now customerId page).2.1)
  else []

/-- The rows that a look folds a snapshot into. -/
def observed (policy : ServerManagementPolicy) (rows : ServerRows) (look : Look) :
    List (ServerAggregate × VpsInfo) :=
  match look.screen with
  | .list customerId page => observedList policy look.registry rows look.now customerId page
  | .detail customerId serverId => observedDetail policy look.registry rows customerId serverId
  | .refresh customerId serverId => observedRefresh policy look.registry rows customerId serverId

/-! ### What a fold changes -/

/-- What the lifecycle of a row and its billing are known by. -/
def facts (server : ServerAggregate) :
    ServerLifecycleState × Option ServerLifecycleState × String :=
  (server.state, server.containedFrom, server.billingModel)

theorem moveTo_of_allowed {server : ServerAggregate} {target : ServerLifecycleState}
    (hallowed : target ∈ server.state.allowed) :
    server.moveTo target = .ok { server with state := target } := by
  unfold ServerAggregate.moveTo Compute.CloudServer.transitionTo
  rw [rejectIf_bind (by simpa using hallowed)]
  rfl

/-- A followed word changes the state at most. -/
theorem follow_eq (server : ServerAggregate) (target : Option ServerLifecycleState) :
    follow server target = { server with state := (follow server target).state } := by
  cases target with
  | none => rfl
  | some target =>
    unfold follow
    dsimp only
    by_cases hsame : target = server.state
    · rw [if_pos hsame]
    · rw [if_neg hsame]
      cases hmove : server.moveTo target with
      | error raised => rfl
      | ok moved =>
        obtain ⟨-, rfl⟩ := Compute.moveTo_eq_ok hmove
        rfl

/-- The state after a word of the provider: the table decides. -/
theorem state_follow (server : ServerAggregate) (target : ServerLifecycleState) :
    (follow server (some target)).state =
      if target ∈ server.state.allowed then target else server.state := by
  unfold follow
  dsimp only
  by_cases hsame : target = server.state
  · rw [if_pos hsame, hsame, ite_self]
  · rw [if_neg hsame]
    by_cases hallowed : target ∈ server.state.allowed
    · rw [if_pos hallowed, moveTo_of_allowed hallowed]
    · rw [if_neg hallowed]
      cases hmove : server.moveTo target with
      | error raised => rfl
      | ok moved => exact absurd (Compute.moveTo_eq_ok hmove).1 hallowed

theorem facts_follow (server : ServerAggregate) (target : Option ServerLifecycleState) :
    facts (follow server target) =
      ((follow server target).state, server.containedFrom, server.billingModel) :=
  congrArg facts (follow_eq server target)

theorem id_fold (server : ServerAggregate) (info : VpsInfo) (authoritativeInventory : Bool) :
    (fold server info authoritativeInventory).id = server.id := by
  unfold fold
  generalize info.target = target
  change (follow server target).id = server.id
  rw [follow_eq server target]

theorem facts_fold (server : ServerAggregate) (info : VpsInfo) (authoritativeInventory : Bool) :
    facts (fold server info authoritativeInventory) = facts (follow server info.target) := by
  unfold fold
  generalize info.target = target
  rfl

/-! ### What a read leaves -/

/-- The outcome of a read and the rows it leaves. -/
def ReadProgram.on {α : Type} (program : ReadProgram α) (rows : ServerRows) :
    Result α × ServerRows :=
  program.run rows

section Rules

variable {α β : Type} {rows : ServerRows}

theorem on_bind (program : ReadProgram α) (next : α → ReadProgram β) :
    (program >>= next).on rows = match program.on rows with
      | (Except.ok value, after) => (next value).on after
      | (Except.error raised, after) => (Except.error raised, after) := by
  unfold ReadProgram.on
  rw [ExceptT.run_bind]
  have hstate (after : Result α → StateM ServerRows (Result β)) :
      (program.run >>= after) rows = after (program.run rows).1 (program.run rows).2 := rfl
  rw [hstate]
  rcases program.run rows with ⟨_ | _, after⟩ <;> rfl

/-- A pure step that may raise. -/
theorem on_lift_bind (outcome : Result α) (next : α → ReadProgram β) :
    (inspectGroup.liftExcept outcome >>= next).on rows = match outcome with
      | .ok value => (next value).on rows
      | .error raised => (.error raised, rows) := by
  rw [on_bind]
  cases outcome <;> rfl

/-- A program whose value is mapped leaves the rows of the program. -/
theorem rows_map (program : ReadProgram α) (f : α → β) :
    ((program >>= fun value ↦ pure (f value)).on rows).2 = (program.on rows).2 := by
  rw [on_bind]
  rcases program.on rows with ⟨_ | _, after⟩ <;> rfl

end Rules

/-- The lifecycle facts of the rows after snapshots were folded into some of them. -/
def FactsAfter (rows : ServerRows) (pairs : List (ServerAggregate × VpsInfo))
    (after : ServerRows) : Prop :=
  ∀ id, (after.get id).map facts = match pairs.find? (·.1.id = id) with
    | some (row, info) => some (facts (follow row info.target))
    | none => (rows.get id).map facts

/-- The table has the row as the read has loaded it. -/
def Current (rows : ServerRows) (server : ServerAggregate) : Prop :=
  (rows.get server.id).map facts = some (facts server)

section Folding

variable {rows mid after : ServerRows} {server : ServerAggregate}
  {first second : List (ServerAggregate × VpsInfo)}

theorem factsAfter_nil : FactsAfter rows [] rows :=
  fun _ ↦ rfl

/-- Folds into different rows, one after the other. -/
theorem FactsAfter.trans (hfirst : FactsAfter rows first mid)
    (hsecond : FactsAfter mid second after)
    (hdisjoint : ∀ p ∈ first, ∀ q ∈ second, p.1.id ≠ q.1.id) :
    FactsAfter rows (first ++ second) after := by
  intro id
  have hmid := hfirst id
  rw [hsecond id, List.find?_append]
  cases hfound : first.find? (·.1.id = id) with
  | none =>
    rw [hfound] at hmid
    rw [Option.none_or, hmid]
  | some p =>
    have hid : p.1.id = id := by simpa using List.find?_some hfound
    have hnone : second.find? (·.1.id = id) = none := by
      refine List.find?_eq_none.mpr fun q hq ↦ ?_
      have hne := hdisjoint p (List.mem_of_find?_eq_some hfound) q hq
      simpa [hid, eq_comm] using hne
    rw [hfound] at hmid
    rw [hnone, Option.or_none, hmid]

theorem FactsAfter.current (h : FactsAfter rows first after) (hcurrent : Current rows server)
    (hne : ∀ p ∈ first, p.1.id ≠ server.id) : Current after server := by
  have hnone : first.find? (·.1.id = server.id) = none :=
    List.find?_eq_none.mpr fun p hp ↦ by simpa using hne p hp
  have hget := h server.id
  rw [hnone] at hget
  exact hget.trans hcurrent

theorem on_save {row : ServerAggregate} (now : ℤ) (hrow : rows.get server.id = some row) :
    (save now server).on rows = (.ok (), rows.put (row.saved server now)) := by
  change (match rows.get server.id with
    | none => throw _
    | some row => set (rows.put (row.saved server now)) : ReadProgram Unit).on rows = _
  rw [hrow]
  rfl

/-- A saved copy leaves its own lifecycle facts in the row. -/
theorem get_saved {row : ServerAggregate} (now : ℤ) (hrow : rows.get server.id = some row)
    (hmodel : row.billingModel = server.billingModel) (id : Uuid) :
    ((rows.put (row.saved server now)).get id).map facts =
      if server.id = id then some (facts server) else (rows.get id).map facts := by
  have hkey := Table.key_of_get hrow
  have hid : (row.saved server now).id = server.id := hkey
  have hfacts : facts (row.saved server now) = facts server := by
    change (server.state, server.containedFrom, row.billingModel) = _
    rw [hmodel]
    rfl
  rw [Table.get_put, hid]
  by_cases h : server.id = id
  · rw [if_pos h, if_pos h, Option.map_some, hfacts]
  · rw [if_neg h, if_neg h]

theorem Current.row (h : Current rows server) :
    ∃ row, rows.get server.id = some row ∧ facts row = facts server :=
  Option.map_eq_some_iff.mp h

/-- `_apply_provider_info` folds the snapshot into the row and saves what changed. -/
theorem on_applyProviderInfo (now : ℤ) (info : VpsInfo) (authoritativeInventory : Bool)
    (h : Current rows server) :
    ∃ after, (applyProviderInfo now server info authoritativeInventory).on rows =
        (.ok (fold server info authoritativeInventory), after) ∧
      FactsAfter rows [(server, info)] after := by
  obtain ⟨row, hrow, hfacts⟩ := h.row
  have hid := id_fold server info authoritativeInventory
  have hfolded := facts_fold server info authoritativeInventory
  unfold applyProviderInfo
  dsimp only
  generalize fold server info authoritativeInventory = folded at hid hfolded ⊢
  have hfollow := facts_follow server info.target
  have hfind (id : Uuid) : [(server, info)].find? (·.1.id = id) =
      if server.id = id then some (server, info) else none := by
    by_cases hid : server.id = id <;> simp [hid]
  by_cases hchanged : face folded ≠ face server
  · rw [if_pos hchanged]
    have hmodel : row.billingModel = folded.billingModel := by
      have hrowModel : (facts row).2.2 = (facts folded).2.2 := by rw [hfacts, hfolded, hfollow]; rfl
      exact hrowModel
    rw [← hid] at hrow
    refine ⟨rows.put (row.saved folded now), ?_, fun id ↦ ?_⟩
    · rw [on_bind, on_save now hrow]
      rfl
    refine (get_saved now hrow hmodel id).trans ?_
    rw [hid, hfind]
    by_cases hkey : server.id = id
    · rw [if_pos hkey, if_pos hkey, hfolded]
    · rw [if_neg hkey, if_neg hkey]
  · -- The row is not saved: its state is the one that was loaded.
    rw [if_neg hchanged]
    refine ⟨rows, rfl, fun id ↦ ?_⟩
    rw [hfind]
    by_cases hkey : server.id = id
    · have hstate : (facts folded).1 = (facts server).1 :=
        congrArg (fun columns ↦ columns.1) (not_not.mp hchanged)
      rw [if_pos hkey, ← hkey, hrow, Option.map_some, hfacts]
      dsimp only
      rw [hfolded] at hstate
      rw [hfollow] at hstate ⊢
      exact congrArg some (Prod.ext hstate.symm rfl)
    · rw [if_neg hkey]

/-- `_apply_provider_ips` leaves the lifecycle alone. -/
theorem on_applyProviderIps (now : ℤ) (providerServerId : String) (context : ProviderContext)
    (h : Current rows server) :
    FactsAfter rows [] ((applyProviderIps now server providerServerId context).on rows).2 := by
  obtain ⟨row, hrow, hfacts⟩ := h.row
  unfold applyProviderIps
  by_cases hips : (!context.ips) = true
  · rw [if_pos hips]
    exact factsAfter_nil
  · rw [if_neg hips]
    cases context.listVpsIps providerServerId with
    | error raised =>
      dsimp only
      by_cases hkind : Providers.isProviderError raised.kind
      · rw [if_pos hkind]
        exact factsAfter_nil
      · rw [if_neg hkind]
        exact factsAfter_nil
    | ok ips =>
      dsimp only
      generalize haddressed : ({ server with
        ipv4 := (publicAddress 4 ips).or server.ipv4
        ipv6 := (publicAddress 6 ips).or server.ipv6 } : ServerAggregate) = addressed
      have hsame : addressed.id = server.id ∧ facts addressed = facts server := by
        rw [← haddressed]
        exact ⟨rfl, rfl⟩
      by_cases hchanged : addressed ≠ server
      · rw [if_pos hchanged]
        rw [← hsame.1] at hrow
        have hmodel : row.billingModel = addressed.billingModel :=
          congrArg (fun known ↦ known.2.2) (hfacts.trans hsame.2.symm)
        rw [on_bind, on_save now hrow]
        intro id
        refine (get_saved now hrow hmodel id).trans ?_
        by_cases hkey : addressed.id = id
        · rw [if_pos hkey, hsame.2, ← hkey, hsame.1]
          exact h.symm
        · rw [if_neg hkey]
          rfl
      · rw [if_neg hchanged]
        exact factsAfter_nil

end Folding

/-! ### The list -/

section Listing

variable {rows : ServerRows}

/-- The loop over the rows of an account. -/
theorem on_inspectRows (now : ℤ) (infos : List VpsInfo) {group : List ServerAggregate}
    (hnodup : (group.map (·.id)).Nodup) :
    ∀ (rows : ServerRows) (found : Inspection), (∀ row ∈ group, Current rows row) →
      ∃ result after, (group.foldlM (inspectRow now infos) found).on rows = (.ok result, after) ∧
        FactsAfter rows (snapshotsOf infos group) after := by
  induction group with
  | nil => exact fun rows found _ ↦ ⟨found, rows, rfl, factsAfter_nil⟩
  | cons row rest ih =>
    intro rows found hcurrent
    obtain ⟨hnew, hrest⟩ := List.nodup_cons.mp hnodup
    rw [List.foldlM_cons, on_bind]
    cases hinfo : snapshotOf infos row with
    | none =>
      have hpairs : snapshotsOf infos (row :: rest) = snapshotsOf infos rest := by
        rw [snapshotsOf, List.filterMap_cons_none (by rw [hinfo]; rfl)]
        rfl
      unfold inspectRow
      rw [hinfo, hpairs]
      exact ih hrest rows _ fun other hother ↦ hcurrent other (List.mem_cons_of_mem _ hother)
    | some info =>
      have hpairs : snapshotsOf infos (row :: rest) = [(row, info)] ++ snapshotsOf infos rest := by
        rw [snapshotsOf, List.filterMap_cons_some (by rw [hinfo]; rfl)]
        rfl
      obtain ⟨mid, hreply, hfold⟩ :=
        on_applyProviderInfo now info true (hcurrent row List.mem_cons_self)
      have hstep : (inspectRow now infos found row).on rows =
          (.ok { found with refreshed := found.refreshed ++ [fold row info true] }, mid) := by
        unfold inspectRow
        rw [hinfo]
        dsimp only
        rw [on_bind, hreply]
        rfl
      rw [hstep, hpairs]
      have hne : ∀ other ∈ rest, row.id ≠ other.id := fun other hother heq ↦
        hnew (List.mem_map.mpr ⟨other, hother, heq.symm⟩)
      obtain ⟨result, after, hresult, hafter⟩ := ih hrest mid
        { found with refreshed := found.refreshed ++ [fold row info true] } fun other hother ↦
          hfold.current (hcurrent other (List.mem_cons_of_mem _ hother))
            (by simpa using hne other hother)
      refine ⟨result, after, hresult, hfold.trans hafter ?_⟩
      intro p hp q hq
      obtain rfl := List.mem_singleton.mp hp
      obtain ⟨other, hother, hpair⟩ := List.mem_filterMap.mp hq
      obtain ⟨found, -, rfl⟩ := Option.map_eq_some_iff.mp hpair
      exact hne other hother

theorem snapshotsOf_rows (infos : List VpsInfo) (group : List ServerAggregate) :
    ((snapshotsOf infos group).map (·.1)).Sublist group := by
  induction group with
  | nil => exact List.Sublist.slnil
  | cons row rest ih =>
    cases hinfo : snapshotOf infos row with
    | none =>
      rw [snapshotsOf, List.filterMap_cons_none (by rw [hinfo]; rfl)]
      exact ih.cons row
    | some info =>
      rw [snapshotsOf, List.filterMap_cons_some (by rw [hinfo]; rfl)]
      exact ih.cons_cons row

/-- The observed rows are rows of the groups, in their order. -/
theorem observedGroups_rows (registry : Registry) (groups : List (List ServerAggregate)) :
    ((observedGroups registry groups).map (·.1)).Sublist groups.flatten := by
  induction groups with
  | nil => exact List.Sublist.slnil
  | cons group rest ih =>
    rw [observedGroups, List.flatten_cons]
    cases inventoryOf registry group with
    | error raised => exact List.nil_sublist _
    | ok infos =>
      dsimp only
      rw [List.map_append]
      exact (snapshotsOf_rows _ group).append ih

theorem snapshotsOf_nil (group : List ServerAggregate) : snapshotsOf [] group = [] :=
  List.filterMap_eq_nil_iff.mpr fun _ _ ↦ rfl

/-- The loop over the accounts of a page. -/
theorem on_inspectGroups (registry : Registry) (now : ℤ) {groups : List (List ServerAggregate)} :
    (groups.flatten.map (·.id)).Nodup →
    ∀ (rows : ServerRows) (found : Inspection), (∀ row ∈ groups.flatten, Current rows row) →
      FactsAfter rows (observedGroups registry groups)
        ((groups.foldlM (inspectGroup registry now) found).on rows).2 := by
  induction groups with
  | nil => exact fun _ rows found _ ↦ factsAfter_nil
  | cons group rest ih =>
    intro hnodup rows found hcurrent
    rw [List.flatten_cons, List.map_append, List.nodup_append] at hnodup
    obtain ⟨hgroup, hrest, hdisjoint⟩ := hnodup
    have hmem {row : ServerAggregate} (h : row ∈ group ∨ row ∈ rest.flatten) : Current rows row :=
      hcurrent row (by rwa [List.flatten_cons, List.mem_append])
    rw [List.foldlM_cons, on_bind, observedGroups, inspectGroup, on_lift_bind]
    cases hinventory : inventoryOf registry group with
    | error raised => exact factsAfter_nil
    | ok infos =>
      cases infos with
      | none =>
        dsimp only [Option.getD_none]
        rw [snapshotsOf_nil]
        exact ih hrest rows found fun row hrow ↦ hmem (Or.inr hrow)
      | some infos =>
        dsimp only [Option.getD_some]
        obtain ⟨result, mid, hresult, hfold⟩ := on_inspectRows now infos hgroup rows found
          fun row hrow ↦ hmem (Or.inl hrow)
        rw [hresult]
        have hpairs : ∀ p ∈ snapshotsOf infos group, p.1 ∈ group := fun p hp ↦
          (snapshotsOf_rows infos group).subset (List.mem_map_of_mem hp)
        have hne {first second : ServerAggregate} (hfirst : first ∈ group)
            (hsecond : second ∈ rest.flatten) : first.id ≠ second.id :=
          hdisjoint _ (List.mem_map_of_mem hfirst) _ (List.mem_map_of_mem hsecond)
        refine hfold.trans (ih hrest _ result fun row hrow ↦ ?_) fun p hp q hq ↦ ?_
        · exact hfold.current (hmem (Or.inr hrow)) fun p hp ↦ hne (hpairs p hp) hrow
        · have hlater := (observedGroups_rows registry rest).subset (List.mem_map_of_mem hq)
          exact hne (hpairs p hp) hlater

end Listing

/-! ### Which rows a look finds -/

section Finding

variable {policy : ServerManagementPolicy} {rows : ServerRows}

/-- The groups of a page share no row. -/
theorem nodup_accountGroups {page : List ServerAggregate} (hnodup : (page.map (·.id)).Nodup) :
    ((accountGroups page).flatten.map (·.id)).Nodup := by
  have hprovisioned : ((page.filter fun row ↦ truthy row.providerServerId).map (·.id)).Nodup :=
    hnodup.sublist (List.filter_sublist.map _)
  unfold accountGroups
  dsimp only
  generalize page.filter (fun row ↦ truthy row.providerServerId) = provisioned at hprovisioned ⊢
  rw [← List.flatMap_def]
  refine List.Nodup.map_on ?_ (List.nodup_flatMap.mpr ⟨fun _ _ ↦ ?_, ?_⟩)
  · intro first hfirst second hsecond
    obtain ⟨_, -, hfirst⟩ := List.mem_flatMap.mp hfirst
    obtain ⟨_, -, hsecond⟩ := List.mem_flatMap.mp hsecond
    exact List.inj_on_of_nodup_map hprovisioned (List.mem_of_mem_filter hfirst)
      (List.mem_of_mem_filter hsecond)
  · exact hprovisioned.of_map.filter _
  · have hkeys : ((firstBy accountKey provisioned).map accountKey).Nodup :=
      nodup_map_firstBy provisioned
    rw [List.nodup_iff_pairwise_ne, List.pairwise_map] at hkeys
    refine hkeys.imp ?_
    intro left right hne row hleft hright
    simp only [List.mem_filter, decide_eq_true_iff] at hleft hright
    exact hne (hleft.2.symm.trans hright.2)

theorem mem_of_accountGroups {page : List ServerAggregate} {row : ServerAggregate}
    (h : row ∈ (accountGroups page).flatten) : row ∈ page := by
  obtain ⟨group, hgroup, hrow⟩ := List.mem_flatten.mp h
  obtain ⟨key, -, rfl⟩ := List.mem_map.mp hgroup
  exact List.mem_of_mem_filter (List.mem_of_mem_filter hrow)

/-- A page is a part of the table. -/
theorem listByUserPaged_rows (userId : Uuid) (offset limit : ℕ) (hideFailedBefore : ℤ) :
    ((listByUserPaged rows userId offset limit hideFailedBefore).1.map (·.id)).Nodup ∧
      ∀ row ∈ (listByUserPaged rows userId offset limit hideFailedBefore).1, row ∈ rows.rows := by
  unfold listByUserPaged
  dsimp only
  generalize hvisible : rows.rows.filter (fun server ↦
    server.userId = userId && visibleAfter hideFailedBefore server) = visible
  have hsub : visible.Sublist rows.rows := hvisible ▸ List.filter_sublist
  have hsorted := List.mergeSort_perm visible newerFirst
  constructor
  · have hnodup : ((visible.mergeSort newerFirst).map (·.id)).Nodup :=
      (hsorted.map _).nodup_iff.mpr (rows.unique.sublist (hsub.map _))
    exact hnodup.sublist (((List.take_sublist _ _).trans (List.drop_sublist _ _)).map _)
  · intro row hrow
    exact hsub.subset (hsorted.mem_iff.mp (List.mem_of_mem_drop (List.mem_of_mem_take hrow)))

variable (policy rows) in
theorem pageOf_rows (now : ℤ) (customerId : Uuid) (page : ℤ) :
    ((pageOf policy rows now customerId page).2.1.map (·.id)).Nodup ∧
      ∀ row ∈ (pageOf policy rows now customerId page).2.1, row ∈ rows.rows := by
  unfold pageOf
  dsimp only
  split
  · exact listByUserPaged_rows _ _ _ _
  · exact listByUserPaged_rows _ _ _ _

theorem current_of_mem {row : ServerAggregate} (h : row ∈ rows.rows) : Current rows row :=
  congrArg (Option.map facts) (Table.mem_iff_get.mp h)

end Finding

/-! ### One look -/

section Looking

variable {policy : ServerManagementPolicy} {rows : ServerRows}

variable (policy rows) in
theorem on_owned (customerId serverId : Uuid) :
    ∃ raised, (owned policy customerId serverId).on rows =
      (match ownedServer policy rows customerId serverId with
        | some server => (.ok server, rows)
        | none => (.error raised, rows)) := by
  unfold owned ownedServer
  cases policy.enabled with
  | false => exact ⟨_, rfl⟩
  | true =>
    change ∃ raised, (match rows.get serverId with
      | none => throw _
      | some server => if server.userId ≠ customerId then throw _ else pure server :
        ReadProgram ServerAggregate).on rows = _
    cases hrow : rows.get serverId with
    | none => exact ⟨_, rfl⟩
    | some server =>
      by_cases howner : server.userId = customerId
      · refine ⟨⟨.serverNotFound, "server not found"⟩, ?_⟩
        dsimp only
        rw [if_neg (not_not.mpr howner)]
        simp [Option.filter, howner]
        rfl
      · refine ⟨⟨.serverNotFound, "server not found"⟩, ?_⟩
        dsimp only
        rw [if_pos howner]
        simp [Option.filter, howner]
        rfl

theorem ownedServer_mem {customerId serverId : Uuid} {server : ServerAggregate}
    (h : ownedServer policy rows customerId serverId = some server) : server ∈ rows.rows := by
  unfold ownedServer at h
  split at h
  · exact Table.mem_of_get (Option.filter_eq_some_iff.mp h).1
  · cases h

variable (policy rows) in
/-- A refresh folds the snapshot of the server's adapter into it. -/
theorem factsAfter_refreshServer (registry : Registry) (now : ℤ) (customerId serverId : Uuid) :
    FactsAfter rows (observedRefresh policy registry rows customerId serverId)
      ((refreshServer policy registry now customerId serverId).on rows).2 := by
  obtain ⟨raised, howned⟩ := on_owned policy rows customerId serverId
  unfold refreshServer observedRefresh
  rw [on_bind, howned]
  cases hserver : ownedServer policy rows customerId serverId with
  | none => exact factsAfter_nil
  | some server =>
    have hcurrent : Current rows server := current_of_mem (ownedServer_mem hserver)
    dsimp only
    unfold observedServer
    cases server.providerServerId.filter (· ≠ "") with
    | none => exact factsAfter_nil
    | some providerServerId =>
      cases contextOf registry server with
      | none => exact factsAfter_nil
      | some context =>
        dsimp only
        cases hinventory : context.inventory with
        | false => exact factsAfter_nil
        | true =>
          cases hinfo : context.getVpsInfo providerServerId with
          | error raised =>
            rw [if_pos rfl, if_neg (by decide)]
            dsimp only
            split <;> exact factsAfter_nil
          | ok info =>
            obtain ⟨mid, hfold, hfacts⟩ :=
              on_applyProviderInfo now info context.authoritativeInventory hcurrent
            rw [if_pos rfl, if_neg (by decide)]
            dsimp only
            rw [on_bind, hfold]
            dsimp only
            rw [rows_map]
            have hfolded : Current mid (fold server info context.authoritativeInventory) := by
              have hrow := hfacts server.id
              rw [List.find?_cons_of_pos (by simp)] at hrow
              rw [Current, id_fold, facts_fold]
              exact hrow
            have hboth := hfacts.trans (on_applyProviderIps now providerServerId context hfolded)
              fun _ _ _ hq ↦ absurd hq List.not_mem_nil
            rw [List.append_nil] at hboth
            exact hboth

theorem factsAfter_getServer (registry : Registry) (now : ℤ) (customerId serverId : Uuid) :
    FactsAfter rows (observedDetail policy registry rows customerId serverId)
      ((getServer policy registry now customerId serverId).on rows).2 := by
  obtain ⟨raised, howned⟩ := on_owned policy rows customerId serverId
  have hrefresh := factsAfter_refreshServer policy rows registry now customerId serverId
  unfold observedRefresh at hrefresh
  unfold getServer observedDetail
  rw [on_bind, howned]
  cases hserver : ownedServer policy rows customerId serverId with
  | none => exact factsAfter_nil
  | some server =>
    rw [hserver] at hrefresh
    dsimp only at hrefresh ⊢
    by_cases hread : truthy server.providerServerId &&
        (contextOf registry server).any (·.authoritativeInventory)
    · rw [if_pos hread, if_pos hread]
      exact hrefresh
    · rw [if_neg hread, if_neg hread]
      exact factsAfter_nil

/-- The list folds the snapshots of the inventories into the rows of its page. -/
theorem factsAfter_listServers (registry : Registry) (now : ℤ) (customerId : Uuid) (page : ℤ) :
    FactsAfter rows (observedList policy registry rows now customerId page)
      ((listServers policy registry now customerId page).on rows).2 := by
  unfold listServers observedList
  cases policy.enabled with
  | false => exact factsAfter_nil
  | true =>
    rw [if_pos rfl, if_neg (by decide), on_bind]
    change FactsAfter rows _ (((accountGroups (pageOf policy rows now customerId page).2.1).foldlM
      (inspectGroup registry now) {} >>= fun found ↦ pure _ : ReadProgram _).on rows).2
    obtain ⟨hnodup, hmem⟩ := pageOf_rows policy rows now customerId page
    rw [rows_map]
    refine on_inspectGroups registry now (nodup_accountGroups hnodup) rows {} fun row hrow ↦ ?_
    exact current_of_mem (hmem row (mem_of_accountGroups hrow))

variable (policy rows) in
/-- A look does to the lifecycle of the rows what its snapshots do. -/
theorem factsAfter_run (look : Look) :
    FactsAfter rows (observed policy rows look) (look.run policy rows) := by
  obtain ⟨screen, registry, now⟩ := look
  cases screen with
  | list customerId page => exact factsAfter_listServers registry now customerId page
  | detail customerId serverId => exact factsAfter_getServer registry now customerId serverId
  | refresh customerId serverId =>
    exact factsAfter_refreshServer policy rows registry now customerId serverId

end Looking

/-! ### What a look must not do -/

/-- A look leaves a server under review, leaves no mark of containment on a server that is not, and
does not start an hourly server: it never buys the hour. -/
structure KeepsRow (before after : ServerAggregate) : Prop where
  review : before.state = .manualReview → after.state = .manualReview
  contained : after.containedFrom.isSome → after.state ≠ .manualReview →
    before.containedFrom.isSome ∧ before.state ≠ .manualReview
  unpaid : before.isPrepaidMonthly = false → after.state = .running → before.state = .running

/-- Every row is kept. -/
def KeepsRows (rows after : ServerRows) : Prop :=
  ∀ id before, rows.get id = some before →
    ∃ server, after.get id = some server ∧ KeepsRow before server

/-- The provider reports a power state of a server under review, or reports an hourly server running
that is being provisioned or stopped. -/
def Oversteps (server : ServerAggregate) (info : VpsInfo) : Prop :=
  info.target.isSome ∧ server.state = .manualReview ∨
    info.target = some .running ∧ server.isPrepaidMonthly = false ∧
      (server.state = .provisioning ∨ server.state = .stopped)

/-- The provider's words are running and stopped. -/
theorem target_cases {info : VpsInfo} {target : ServerLifecycleState}
    (h : info.target = some target) : target = .running ∨ target = .stopped := by
  unfold VpsInfo.target at h
  obtain ⟨_, _, hmem, -⟩ := List.lookup_eq_some_iff.mp h
  have hvalues : target ∈ providerStateToLocal.map (·.2) := by
    rw [hmem]
    simp
  simpa [providerStateToLocal] using hvalues

theorem keepsRow_of_facts {before after : ServerAggregate} (h : facts after = facts before) :
    KeepsRow before after := by
  have hstate : after.state = before.state := congrArg (·.1) h
  have hcontained : after.containedFrom = before.containedFrom := congrArg (·.2.1) h
  constructor
  · intro hreview
    rw [hstate, hreview]
  · intro hset hstill
    exact ⟨hcontained ▸ hset, hstate ▸ hstill⟩
  · intro _ hrunning
    exact hstate ▸ hrunning

/-- The machine takes the reported state to running from these states. -/
theorem running_mem_allowed {state : ServerLifecycleState} :
    ServerLifecycleState.running ∈ state.allowed ↔
      state = .provisioning ∨ state = .stopped ∨ state = .manualReview := by
  cases state <;> decide

/-- A folded snapshot keeps the row exactly if it does not overstep. -/
theorem keepsRow_iff {before after : ServerAggregate} {info : VpsInfo}
    (h : facts after = facts (follow before info.target)) :
    KeepsRow before after ↔ ¬ Oversteps before info := by
  cases htarget : info.target with
  | none =>
    rw [htarget] at h
    have hnot : ¬ Oversteps before info := by simp [Oversteps, htarget]
    exact iff_of_true (keepsRow_of_facts h) hnot
  | some target =>
    rw [htarget, facts_follow, state_follow] at h
    have hstate : after.state = if target ∈ before.state.allowed then target else before.state :=
      congrArg (·.1) h
    have hcontained : after.containedFrom = before.containedFrom := congrArg (·.2.1) h
    constructor
    · rintro ⟨hreview, -, hunpaid⟩ (⟨-, hbefore⟩ | ⟨hrunning, hhourly, hbefore⟩)
      · have hafter := hreview hbefore
        rw [hstate, hbefore] at hafter
        rcases target_cases htarget with rfl | rfl <;> exact absurd hafter (by decide)
      · obtain rfl : target = .running := Option.some.inj (htarget.symm.trans hrunning)
        have hallowed : ServerLifecycleState.running ∈ before.state.allowed :=
          running_mem_allowed.mpr (hbefore.elim Or.inl fun h ↦ Or.inr (Or.inl h))
        rw [if_pos hallowed] at hstate
        have hsame := hunpaid hhourly hstate
        rw [hsame] at hbefore
        simp at hbefore
    · intro hnot
      have hreview : before.state ≠ .manualReview := fun hreview ↦
        hnot (Or.inl ⟨by rw [htarget]; rfl, hreview⟩)
      refine ⟨fun h ↦ absurd h hreview, fun hset _ ↦ ⟨hcontained ▸ hset, hreview⟩, ?_⟩
      intro hhourly hrunning
      by_contra hnew
      by_cases hallowed : target ∈ before.state.allowed
      · rw [hstate, if_pos hallowed] at hrunning
        rw [hrunning, running_mem_allowed] at hallowed
        rw [hrunning] at htarget
        rcases hallowed with hbefore | hbefore | hbefore
        · exact hnot (Or.inr ⟨htarget, hhourly, Or.inl hbefore⟩)
        · exact hnot (Or.inr ⟨htarget, hhourly, Or.inr hbefore⟩)
        · exact hreview hbefore
      · rw [hstate, if_neg hallowed] at hrunning
        exact hnew hrunning

section Keeping

variable {policy : ServerManagementPolicy} {rows : ServerRows} {look : Look}

/-- The pairs are of different rows of the table. -/
def PartOf (rows : ServerRows) (pairs : List (ServerAggregate × VpsInfo)) : Prop :=
  (pairs.map (·.1.id)).Nodup ∧ ∀ pair ∈ pairs, pair.1 ∈ rows.rows

theorem partOf_nil : PartOf rows [] :=
  ⟨List.nodup_nil, fun _ h ↦ absurd h List.not_mem_nil⟩

theorem partOf_observedServer (registry : Registry) {server : ServerAggregate}
    (hserver : server ∈ rows.rows) : PartOf rows (observedServer registry server) := by
  have hsingle (infos : Option VpsInfo) : PartOf rows (infos.map (server, ·)).toList := by
    cases infos with
    | none => exact partOf_nil
    | some info =>
      refine ⟨List.nodup_singleton _, fun pair hpair ↦ ?_⟩
      rw [List.mem_singleton.mp hpair]
      exact hserver
  unfold observedServer
  split
  · split
    · exact hsingle _
    · exact partOf_nil
  · exact partOf_nil

theorem partOf_observedList (registry : Registry) (now : ℤ) (customerId : Uuid) (page : ℤ) :
    PartOf rows (observedList policy registry rows now customerId page) := by
  unfold observedList
  split
  · obtain ⟨hnodup, hmem⟩ := pageOf_rows policy rows now customerId page
    have hsub := observedGroups_rows registry
      (accountGroups (pageOf policy rows now customerId page).2.1)
    constructor
    · have hids := (nodup_accountGroups hnodup).sublist (hsub.map (·.id))
      rwa [List.map_map] at hids
    · intro pair hpair
      exact hmem _ (mem_of_accountGroups (hsub.subset (List.mem_map_of_mem hpair)))
  · exact partOf_nil

/-- The observed rows are different rows of the table. -/
theorem partOf_observed (look : Look) : PartOf rows (observed policy rows look) := by
  unfold observed
  cases look.screen with
  | list customerId page => exact partOf_observedList look.registry look.now customerId page
  | detail customerId serverId =>
    dsimp only
    unfold observedDetail
    cases howned : ownedServer policy rows customerId serverId with
    | none => exact partOf_nil
    | some server =>
      dsimp only
      split
      · exact partOf_observedServer look.registry (ownedServer_mem howned)
      · exact partOf_nil
  | refresh customerId serverId =>
    dsimp only
    unfold observedRefresh
    cases howned : ownedServer policy rows customerId serverId with
    | none => exact partOf_nil
    | some server => exact partOf_observedServer look.registry (ownedServer_mem howned)

/-- The snapshot that a row is found with. -/
theorem PartOf.find? {pairs : List (ServerAggregate × VpsInfo)} (hpart : PartOf rows pairs)
    {pair : ServerAggregate × VpsInfo} (h : pair ∈ pairs) :
    pairs.find? (·.1.id = pair.1.id) = some pair := by
  have hunique := @Table.filter_eq_toList _ _ _ (fun pair : ServerAggregate × VpsInfo ↦ pair.1.id)
    pairs hpart.1 pair.1.id
  have hmem : pair ∈ pairs.filter (·.1.id = pair.1.id) :=
    List.mem_filter.mpr ⟨h, decide_eq_true rfl⟩
  rw [hunique] at hmem
  exact Option.mem_toList.mp hmem

/-- One look keeps the rows exactly if no snapshot that it observes oversteps. -/
theorem keepsRows_iff : KeepsRows rows (look.run policy rows) ↔
      ∀ pair ∈ observed policy rows look, ¬ Oversteps pair.1 pair.2 := by
  have hfacts := factsAfter_run policy rows look
  constructor
  · rintro hkeeps ⟨row, info⟩ hpair
    have hrow := Table.mem_iff_get.mp ((partOf_observed look).2 _ hpair)
    obtain ⟨server, hserver, hkept⟩ := hkeeps _ _ hrow
    have hafter := hfacts row.id
    rw [(partOf_observed look).find? hpair, hserver] at hafter
    exact (keepsRow_iff (Option.some.inj hafter)).mp hkept
  · intro hrespects id before hbefore
    have hafter := hfacts id
    cases hfind : (observed policy rows look).find? (·.1.id = id) with
    | none =>
      rw [hfind, hbefore] at hafter
      obtain ⟨server, hserver, hsame⟩ := Option.map_eq_some_iff.mp hafter
      exact ⟨server, hserver, keepsRow_of_facts hsame⟩
    | some pair =>
      have hpair := List.mem_of_find?_eq_some hfind
      have hid : pair.1.id = id := by simpa using List.find?_some hfind
      have hrow := Table.mem_iff_get.mp ((partOf_observed look).2 _ hpair)
      obtain rfl : pair.1 = before := Option.some.inj ((hid ▸ hrow).symm.trans hbefore)
      rw [hfind] at hafter
      obtain ⟨server, hserver, hsame⟩ := Option.map_eq_some_iff.mp hafter
      exact ⟨server, hserver, (keepsRow_iff hsame).mpr (hrespects pair hpair)⟩

end Keeping

/-- Looking at servers keeps them, in every sequence of looks, exactly if no look folds in a power
state of a server under review, or the running state of an hourly server that is provisioning or
stopped. -/
theorem keepsServers_iff (policy : ServerManagementPolicy) (rows : ServerRows) (looks : List Look) :
    Along (Look.run policy) (fun rows look ↦ KeepsRows rows (look.run policy rows)) rows looks ↔
      Along (Look.run policy)
        (fun rows look ↦ ∀ pair ∈ observed policy rows look, ¬ Oversteps pair.1 pair.2)
        rows looks := by
  have hstep : ∀ rows look, True → (KeepsRows rows (look.run policy rows) ↔
      ∀ pair ∈ observed policy rows look, ¬ Oversteps pair.1 pair.2) := fun _ _ _ ↦ keepsRows_iff
  exact along_congr hstep (fun _ _ _ _ ↦ trivial) looks rows trivial

/-! ### A server under review -/

namespace Contained

def customerId : Uuid :=
  ⟨"11111111-1111-4111-8111-111111111111", .refl true⟩

/-- An hourly server that was running when an operator contained it. -/
def server : ServerAggregate where
  id := ⟨"22222222-2222-4222-8222-222222222222", .refl true⟩
  userId := customerId
  providerKey := "hetzner"
  state := .manualReview
  providerServerId := some "4711"
  containedFrom := some .running

def rows : ServerRows where
  rows := [server]
  unique := List.nodup_singleton _

/-- The account lists the server as running. -/
def context : ProviderContext where
  authoritativeInventory := true
  inventory := true
  ips := false
  listVpsInfo := .ok [{ id := "4711", state := "running", imageName := some "ubuntu-24.04" }]
  getVpsInfo := fun _ ↦ raise .providerNotFound "not found"
  listVpsIps := fun _ ↦ .ok []

/-- The customer opens the list. -/
def look : Look where
  screen := .list customerId 1
  registry := fun _ _ ↦ some context
  now := 0

/-- The contained server runs again, and still has the mark of its containment. -/
theorem not_keepsServers_contained :
    ¬ Along (Look.run {}) (fun rows look ↦ KeepsRows rows (look.run {} rows)) rows [look] := by
  rintro ⟨hkeeps, -⟩
  obtain ⟨after, hafter, hkept⟩ := hkeeps server.id server (by decide +kernel)
  have hstate : ((look.run {} rows).get server.id).map (·.state) = some .running := by
    decide +kernel
  rw [hafter] at hstate
  have hrunning : after.state = .running := Option.some.inj hstate
  rw [hkept.review rfl] at hrunning
  cases hrunning

end Contained

end CloudPlatform.Servers
