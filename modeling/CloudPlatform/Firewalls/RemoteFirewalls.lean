import CloudPlatform.Firewalls.FirewallService
import CloudPlatform.Transition.Protocol

/-!
# Tenants' remote firewalls

The project knows a rulebook by its name only. `NamedApart` is when the name is enough: a firewall
that is rewritten has no namesake that carries the rulebook of another user, and one that is created
has no namesake at all. Then each rulebook has at most one remote firewall, the first of its name,
which no other user's materialisation changes.

A remote firewall is never removed or renamed, so the first of a name stays the first; a rulebook
that nobody has edited since a thread loaded it is still as the thread loaded it.
-/

namespace CloudPlatform.Firewalls

open Rows
open Transition

namespace FirewallWorld

/-- The first firewall of a name in the project. -/
def firstNamed (world : FirewallWorld) (name : String) : Option String :=
  (world.project.rows.find? (·.name = name)).map (·.id)

variable {world : FirewallWorld}

/-- The firewall with the id of the first of a name has that name. -/
theorem name_of_firstNamed {name : String} {remote : RemoteFirewall}
    (h : world.firstNamed name = some remote.id) (hremote : remote ∈ world.project.rows) :
    remote.name = name := by
  obtain ⟨found, hfound, hid⟩ := Option.map_eq_some_iff.mp h
  have hname : found.name = name := of_decide_eq_true (List.find?_some hfound :)
  have hmem : found ∈ world.project.rows := List.mem_of_find?_eq_some hfound
  have hsame : some found = some remote := by
    rw [← Table.mem_iff_get.mp hmem, ← Table.mem_iff_get.mp hremote, hid]
  rw [← Option.some.inj hsame]
  exact hname

/-- A page shows the first of a name. -/
theorem firstNamed_of_page {pageSize : ℕ} {name id : String}
    (h : remoteNamed (world.page pageSize) name = some id) : world.firstNamed name = some id := by
  unfold remoteNamed page at h
  rw [List.find?_map, Option.map_map] at h
  obtain ⟨remote, hremote, hid⟩ := Option.map_eq_some_iff.mp h
  have hfirst : world.project.rows.find? (·.name = name) = some remote := by
    rw [← List.take_append_drop pageSize world.project.rows, List.find?_append]
    exact Option.or_eq_some_iff.mpr (.inl hremote)
  rw [firstNamed, hfirst, Option.map_some]
  exact congrArg some hid

variable (world) in
/-- Another firewall at the end changes no first of a name. -/
theorem firstNamed_put (remote : RemoteFirewall) (hnew : world.project.get remote.id = none)
    (name : String) : { world with project := world.project.put remote }.firstNamed name =
      (world.firstNamed name).or (if remote.name = name then some remote.id else none) := by
  unfold firstNamed Table.put
  rw [dif_pos hnew, List.find?_append, Option.map_or, List.find?_singleton]
  congr 1
  by_cases hname : remote.name = name
  · simp [hname]
  · simp [hname]

variable (world) in
theorem firstNamed_update (remoteId : String) (firewall : Firewall) (name : String) : { world with
      project := world.project.update (rewritten remoteId firewall)
        (id_rewritten remoteId firewall) }.firstNamed name = world.firstNamed name := by
  unfold firstNamed Table.update
  rw [List.find?_map, Option.map_map]
  have hnames : ((fun remote : RemoteFirewall ↦ decide (remote.name = name)) ∘
      rewritten remoteId firewall) = fun remote ↦ decide (remote.name = name) :=
    funext fun remote ↦ by rw [Function.comp_apply, name_rewritten]
  have hids : ((fun remote : RemoteFirewall ↦ remote.id) ∘ rewritten remoteId firewall) =
      fun remote ↦ remote.id :=
    funext fun remote ↦ id_rewritten remoteId firewall remote
  rw [hnames, hids]

/-! ### What a call may do to the world -/

/-- Ids keep their names and names their first firewall, edits are counted, and a rulebook without
an edit is as it was. -/
structure Evolves (before after : FirewallWorld) : Prop where
  names : ∀ id name, before.names id = some name → after.names id = some name
  edits : ∀ id, before.edits id ≤ after.edits id
  rows : ∀ id, (before.names id).isSome → after.edits id = before.edits id →
    after.firewalls.get id = before.firewalls.get id
  first : ∀ name id, before.firstNamed name = some id → after.firstNamed name = some id

theorem Evolves.refl (world : FirewallWorld) : world.Evolves world :=
  ⟨fun _ _ h ↦ h, fun _ ↦ le_rfl, fun _ _ _ ↦ rfl, fun _ _ h ↦ h⟩

/-- What `add` does: nothing, or a row under a new id. -/
theorem add_cases (world : FirewallWorld) (firewall : NewFirewall) (id : Uuid) :
    (∃ raised, world.add firewall id = (.error raised, world)) ∨
      world.names id = none ∧ world.add firewall id = (.ok ⟨firewall, id⟩, { world with
        firewalls := world.firewalls.put ⟨firewall, id⟩
        names := Function.update world.names id (some firewall.name) }) := by
  unfold add insertFirewall
  by_cases hid : (world.names id).isSome = true
  · rw [if_pos hid]
    exact .inl ⟨_, rfl⟩
  · rw [if_neg hid]
    by_cases htaken : nameTaken world.firewalls id firewall = true
    · rw [if_pos htaken]
      exact .inl ⟨_, rfl⟩
    · rw [if_neg htaken]
      exact .inr ⟨Option.not_isSome_iff_eq_none.mp hid, rfl⟩

/-- What `save` does: nothing, or it puts the row. -/
theorem save_cases (world : FirewallWorld) (firewall : Firewall) :
    (∃ raised, world.save firewall = (.error raised, world)) ∨
      world.save firewall = (.ok firewall, { world with
        firewalls := world.firewalls.put firewall
        edits := Function.update world.edits firewall.id (world.edits firewall.id + 1) }) := by
  unfold save saveFirewall
  by_cases htaken : nameTaken world.firewalls firewall.id firewall.toNewFirewall = true
  · rw [if_pos htaken]
    exact .inl ⟨_, rfl⟩
  · rw [if_neg htaken]
    exact .inr rfl

theorem createRemote_cases (me : ℕ) (world : FirewallWorld) (firewall : Firewall)
    (chance : FirewallChance) :
    (∃ raised, world.createRemote me firewall chance = (.error raised, world)) ∨
      world.project.get chance.remoteId = none ∧
        world.createRemote me firewall chance = (.ok chance.remoteId, { world with
          project := world.project.put (carrying firewall chance.remoteId firewall.name)
          latest := some ⟨me, firewall, chance.remoteId⟩ }) := by
  unfold createRemote
  by_cases hfree : (chance.accepted && (world.project.get chance.remoteId).isNone) = true
  · rw [if_pos hfree]
    exact .inr ⟨Option.isNone_iff_eq_none.mp (Bool.and_eq_true_iff.mp hfree).2, rfl⟩
  · rw [if_neg hfree]
    exact .inl ⟨_, rfl⟩

theorem updateRemote_cases (me : ℕ) (world : FirewallWorld) (remoteId : String)
    (firewall : Firewall) :
    (∃ raised, world.updateRemote me remoteId firewall = (.error raised, world)) ∨
      (world.project.get remoteId).isSome ∧
        world.updateRemote me remoteId firewall = (.ok (), { world with
          project := world.project.update (rewritten remoteId firewall)
            (id_rewritten remoteId firewall)
          latest := some ⟨me, firewall, remoteId⟩ }) := by
  unfold updateRemote
  by_cases hthere : (world.project.get remoteId).isSome = true
  · rw [if_pos hthere]
    exact .inr ⟨hthere, rfl⟩
  · rw [if_neg hthere]
    exact .inl ⟨_, rfl⟩

theorem evolves_add (firewall : NewFirewall) (id : Uuid) :
    world.Evolves (world.add firewall id).2 := by
  rcases add_cases world firewall id with ⟨raised, hadd⟩ | ⟨hnew, hadd⟩
  · rw [hadd]
    exact Evolves.refl world
  · rw [hadd]
    have hne : ∀ other, (world.names other).isSome → other ≠ id := by
      rintro other hother rfl
      rw [hnew] at hother
      cases hother
    refine ⟨fun other name hname ↦ ?_, fun _ ↦ le_rfl, fun other hother _ ↦ ?_, fun _ _ h ↦ h⟩
    · have hsame : other ≠ id := hne other (hname ▸ rfl)
      exact (Function.update_of_ne hsame _ _).trans hname
    · exact Table.get_put_of_ne world.firewalls (Ne.symm (hne other hother))

theorem le_edits (edits : Uuid → ℕ) (id other : Uuid) :
    edits other ≤ Function.update edits id (edits id + 1) other := by
  by_cases h : other = id
  · subst h
    rw [Function.update_self]
    exact Nat.le_succ _
  · rw [Function.update_of_ne h]

/-- The rulebook whose edits are not counted is another one. -/
theorem ne_of_edits {edits : Uuid → ℕ} {id other : Uuid}
    (h : Function.update edits id (edits id + 1) other = edits other) : id ≠ other := by
  rintro rfl
  rw [Function.update_self] at h
  omega

theorem evolves_save (firewall : Firewall) : world.Evolves (world.save firewall).2 := by
  rcases save_cases world firewall with ⟨raised, hsave⟩ | hsave
  · rw [hsave]
    exact Evolves.refl world
  · rw [hsave]
    refine ⟨fun _ _ h ↦ h, le_edits world.edits firewall.id, fun other _ hedits ↦ ?_, fun _ _ h ↦ h⟩
    exact Table.get_put_of_ne world.firewalls (ne_of_edits hedits)

theorem get_deleteFirewall {rows : FirewallRows} {id other : Uuid} (h : id ≠ other) :
    (deleteFirewall rows id).get other = rows.get other := by
  unfold deleteFirewall Table.get
  rw [List.find?_filter]
  congr 1
  funext row
  by_cases hrow : row.id = other
  · simp [hrow, Ne.symm h]
  · simp [hrow]

theorem evolves_delete (id : Uuid) : world.Evolves (world.delete id) :=
  ⟨fun _ _ h ↦ h, le_edits world.edits id, fun _ _ hedits ↦ get_deleteFirewall (ne_of_edits hedits),
    fun _ _ h ↦ h⟩

theorem evolves_createRemote (me : ℕ) (firewall : Firewall) (chance : FirewallChance) :
    world.Evolves (world.createRemote me firewall chance).2 := by
  rcases createRemote_cases me world firewall chance with ⟨raised, hcreate⟩ | ⟨hnew, hcreate⟩
  · rw [hcreate]
    exact Evolves.refl world
  · rw [hcreate]
    refine ⟨fun _ _ h ↦ h, fun _ ↦ le_rfl, fun _ _ _ ↦ rfl, fun name id hfirst ↦ ?_⟩
    have hput := firstNamed_put world (carrying firewall chance.remoteId firewall.name) hnew name
    exact hput.trans (Option.or_eq_some_iff.mpr (.inl hfirst))

theorem evolves_updateRemote (me : ℕ) (remoteId : String) (firewall : Firewall) :
    world.Evolves (world.updateRemote me remoteId firewall).2 := by
  rcases updateRemote_cases me world remoteId firewall with ⟨raised, hupdate⟩ | ⟨-, hupdate⟩
  · rw [hupdate]
    exact Evolves.refl world
  · rw [hupdate]
    refine ⟨fun _ _ h ↦ h, fun _ ↦ le_rfl, fun _ _ _ ↦ rfl, fun name id hfirst ↦ ?_⟩
    exact (firstNamed_update world remoteId firewall name).trans hfirst

/-- Every call lets the world go on. -/
theorem evolves_perform (pageSize me : ℕ) (chance : FirewallChance) (world : FirewallWorld)
    (request : FirewallCall) : world.Evolves (perform pageSize me chance world request).2 := by
  cases request with
  | add firewall => exact evolves_add firewall chance.rowId
  | save firewall => exact evolves_save firewall
  | delete id => exact evolves_delete id
  | createFirewall firewall => exact evolves_createRemote me firewall chance
  | updateFirewallRules remoteId firewall => exact evolves_updateRemote me remoteId firewall
  | get id => exact ⟨fun _ _ h ↦ h, fun _ ↦ le_rfl, fun _ _ _ ↦ rfl, fun _ _ h ↦ h⟩
  | listForUser userId => exact Evolves.refl world
  | listFirewalls => exact Evolves.refl world

/-- What a thread has loaded is counted for it alone. -/
theorem loaded_perform (pageSize : ℕ) {me : ℕ} (chance : FirewallChance) (world : FirewallWorld)
    {request : FirewallCall} {thread : ℕ} (h : thread ≠ me ∨ ∀ id, request ≠ .get id) :
    (perform pageSize me chance world request).2.loaded thread = world.loaded thread := by
  cases request with
  | get id =>
    have hthread : thread ≠ me := h.resolve_right fun hne ↦ hne id rfl
    exact Function.update_of_ne hthread _ _
  | add firewall =>
    rcases add_cases world firewall chance.rowId with ⟨raised, hadd⟩ | ⟨-, hadd⟩
    · rw [perform, hadd]
    · rw [perform, hadd]
  | save firewall =>
    rcases save_cases world firewall with ⟨raised, hsave⟩ | hsave
    · rw [perform, hsave]
    · rw [perform, hsave]
  | createFirewall firewall =>
    rcases createRemote_cases me world firewall chance with ⟨raised, hcreate⟩ | ⟨-, hcreate⟩
    · rw [perform, hcreate]
    · rw [perform, hcreate]
  | updateFirewallRules remoteId firewall =>
    rcases updateRemote_cases me world remoteId firewall with ⟨raised, hupdate⟩ | ⟨-, hupdate⟩
    · rw [perform, hupdate]
    · rw [perform, hupdate]
  | _ => rfl

end FirewallWorld

/-! ### What a thread knows -/

/-- What a thread has learned: the rulebook that it loaded, and the page that it listed. -/
structure FirewallKnown where
  loaded : Option Firewall := none
  page : Option (List (String × String)) := none

namespace FirewallKnown

/-- The rule of the calls: names are stripped, a thread loads one rulebook, saves it under the name
and the owner that it has, and materialises it by what the page says of its name. -/
def permits (l : FirewallKnown) : FirewallCall → Prop
  | .add firewall => strip firewall.name = firewall.name
  | .get _ => l.loaded = none
  | .save firewall => ∃ loaded, l.loaded = some loaded ∧ firewall.id = loaded.id ∧
    firewall.name = strip loaded.name
  | .createFirewall firewall => l.loaded = some firewall
  | .updateFirewallRules remoteId firewall => l.loaded = some firewall ∧
    ∃ page, l.page = some page ∧ remoteNamed page firewall.name = some remoteId
  | _ => True

/-- What a reply teaches. -/
def learns (l : FirewallKnown) : (request : FirewallCall) → Result request.Out → FirewallKnown
  | .get _, .ok found => { l with loaded := found }
  | .listFirewalls, .ok page => { l with page := some page }
  | _, _ => l

theorem learns_error (l : FirewallKnown) (request : FirewallCall) (raised : Raised) :
    l.learns request (.error raised) = l := by
  cases request <;> rfl

end FirewallKnown

/-- The protocol of the firewall commands. -/
def firewallProtocol : Protocol Raised FirewallCall FirewallCall.Out FirewallKnown where
  permits l request := l.permits request
  truthful _ _ := True
  learns l request reply := l.learns request reply

/-! ### The programs -/

theorem NewFirewall.checked_eq_ok {firewall checked : NewFirewall}
    (h : firewall.checked = .ok checked) :
    checked = { firewall with name := strip firewall.name } := by
  obtain ⟨-, h⟩ := rejectIf_bind_eq_ok.mp h
  obtain ⟨-, h⟩ := rejectIf_bind_eq_ok.mp h
  obtain ⟨-, h⟩ := rejectIf_bind_eq_ok.mp h
  exact (Except.ok.inj h).symm

namespace FirewallService

theorem follows_create (limit : ℕ) (actorUserId ownerUserId : Uuid) (name : String)
    (rules : List FirewallRule) (l : FirewallKnown) :
    Follows firewallProtocol (Returns fun _ _ ↦ True)
      (create limit actorUserId ownerUserId name rules) l := by
  unfold create
  refine follows_returns_lift fun _ _ ↦ ?_
  refine follows_returns_lift fun firewall hfirewall ↦ ?_
  have hchecked := NewFirewall.checked_eq_ok hfirewall
  refine follows_returns_perform True.intro fun existing _ ↦ ?_
  refine follows_returns_lift fun _ _ ↦ ?_
  refine follows_returns_lift fun _ _ ↦ ?_
  refine follows_last ?_ fun reply _ ↦ by cases reply <;> trivial
  change strip firewall.name = firewall.name
  rw [hchecked]
  exact strip_strip name

theorem owned_eq_ok {actorUserId firewallId : Uuid} {found : Option Firewall} {firewall : Firewall}
    (h : owned actorUserId firewallId found = .ok firewall) : found = some firewall := by
  unfold owned at h
  cases found with
  | none => exact absurd h raise_ne_ok
  | some row =>
    dsimp only at h
    by_cases howner : row.userId ≠ actorUserId
    · rw [if_pos howner] at h
      exact absurd h raise_ne_ok
    · rw [if_neg howner] at h
      rw [Except.ok.inj h]

theorem follows_replaceRules (actorUserId firewallId : Uuid) (rules : List FirewallRule) :
    Follows firewallProtocol (Returns fun _ _ ↦ True)
      (replaceRules actorUserId firewallId rules) {} := by
  unfold replaceRules
  refine follows_returns_perform rfl fun found _ ↦ ?_
  refine follows_returns_lift fun firewall howned ↦ ?_
  refine follows_returns_lift fun updated hupdated ↦ ?_
  have hchecked := NewFirewall.checked_eq_ok hupdated
  refine follows_last ⟨firewall, owned_eq_ok howned, rfl, ?_⟩ fun reply _ ↦ ?_
  · rw [hchecked]
  · cases reply <;> trivial

theorem follows_delete (actorUserId firewallId : Uuid) :
    Follows firewallProtocol (Returns fun _ _ ↦ True) (delete actorUserId firewallId) {} := by
  unfold delete
  refine follows_returns_perform rfl fun found _ ↦ ?_
  refine follows_returns_lift fun firewall _ ↦ ?_
  exact follows_last True.intro fun reply _ ↦ by cases reply <;> trivial

end FirewallService

theorem follows_ensureRemoteFirewall {firewall : Firewall} {l : FirewallKnown}
    (hloaded : l.loaded = some firewall) :
    Follows firewallProtocol (Returns fun _ _ ↦ True) (ensureRemoteFirewall firewall) l := by
  unfold ensureRemoteFirewall
  refine follows_returns_perform True.intro fun page _ ↦ ?_
  cases hnamed : remoteNamed page firewall.name with
  | some remoteId =>
    exact follows_returns_perform ⟨hloaded, page, rfl, hnamed⟩ fun _ _ ↦ trivial
  | none => exact follows_last hloaded fun reply _ ↦ by cases reply <;> trivial

theorem follows_firewallEntry (limit : ℕ) (entry : FirewallEntry) :
    Follows firewallProtocol (fun _ _ ↦ True) (entry.program limit) {} := by
  have hany : ∀ {p : FirewallProgram Unit}, Follows firewallProtocol (Returns fun _ _ ↦ True) p {} →
      Follows firewallProtocol (fun _ _ ↦ True) p {} :=
    fun h ↦ h.mono fun _ _ _ ↦ trivial
  cases entry with
  | create actorUserId ownerUserId name rules =>
    exact hany (follows_returns_bind
      (FirewallService.follows_create limit actorUserId ownerUserId name rules {})
      fun _ _ _ ↦ trivial)
  | replaceRules actorUserId firewallId rules =>
    exact hany (follows_returns_bind
      (FirewallService.follows_replaceRules actorUserId firewallId rules) fun _ _ _ ↦ trivial)
  | delete actorUserId firewallId =>
    exact hany (FirewallService.follows_delete actorUserId firewallId)
  | ensure firewallId =>
    refine hany (follows_returns_perform rfl fun found _ ↦ ?_)
    cases found with
    | none => trivial
    | some firewall =>
      exact follows_returns_bind (follows_ensureRemoteFirewall rfl) fun _ _ _ ↦ trivial

/-! ### What holds of every world -/

namespace FirewallWorld

variable {pageSize me : ℕ} {world : FirewallWorld}

/-- What has just been materialised is there, if nobody has edited the rulebook since it was loaded.
-/
def Exact (world : FirewallWorld) : Prop :=
  ∀ run ∈ world.latest, world.loaded run.thread = some (world.edits run.firewall.id) →
    ∀ row ∈ world.firewalls.get run.firewall.id,
      ∃ remote ∈ world.project.get run.remoteId, remote.rules = row.remoteRules

/-- No rulebook has two remote firewalls. -/
def Single (world : FirewallWorld) : Prop :=
  ∀ first ∈ world.project.rows, ∀ second ∈ world.project.rows, ∀ carried ∈ first.carries,
    ∀ other ∈ second.carries, carried.rulebook = other.rulebook → first.id = second.id

/-- Ids keep the stripped names under which they were drawn, and a rulebook is carried by the first
firewall of its name. -/
structure Consistent (world : FirewallWorld) : Prop where
  rows : ∀ id row, world.firewalls.get id = some row → world.names id = some row.name
  stripped : ∀ id name, world.names id = some name → strip name = name
  carried : ∀ remote ∈ world.project.rows, ∀ carried ∈ remote.carries,
    world.names carried.rulebook = some remote.name ∧
      world.firstNamed remote.name = some remote.id
  exact : world.Exact

theorem Consistent.single (h : world.Consistent) : world.Single := by
  intro first hfirst second hsecond carried hcarried other hother hsame
  obtain ⟨hname, hid⟩ := h.carried first hfirst carried hcarried
  obtain ⟨hname', hid'⟩ := h.carried second hsecond other hother
  rw [← hsame, hname] at hname'
  rw [Option.some.inj hname', hid'] at hid
  exact (Option.some.inj hid).symm

theorem Consistent.tick (h : world.Consistent) : world.tick.Consistent :=
  ⟨h.rows, h.stripped, h.carried, fun _ hrun ↦ by cases hrun⟩

/-- A project of which no firewall carries a rulebook, before any rulebook is made. -/
theorem consistent_start {project : Project} (h : ∀ remote ∈ project.rows, remote.carries = none) :
    (⟨⟨[], List.nodup_nil⟩, project, fun _ ↦ none, fun _ ↦ 0, fun _ ↦ none, none⟩ :
      FirewallWorld).Consistent where
  rows _ _ hrow := by cases hrow
  stripped _ _ hname := by cases hname
  carried remote hremote carried hcarried := by
    rw [h remote hremote] at hcarried
    cases hcarried
  exact _ hrun := by cases hrun

/-! ### What is true of what is known -/

/-- The rulebook that a thread loaded: it was drawn under its name, and without an edit since it is
as it was loaded. -/
structure Loaded (me : ℕ) (world : FirewallWorld) (firewall : Firewall) : Prop where
  name : world.names firewall.id = some firewall.name
  edits : ∃ count, world.loaded me = some count ∧ count ≤ world.edits firewall.id ∧
    (world.edits firewall.id = count → world.firewalls.get firewall.id = some firewall)

variable {firewall : Firewall} {l : FirewallKnown} {request : FirewallCall}

theorem Loaded.evolves {after : FirewallWorld} (h : Loaded me world firewall)
    (hevolves : world.Evolves after) (hloaded : after.loaded me = world.loaded me) :
    Loaded me after firewall := by
  obtain ⟨count, hcount, hle, hrow⟩ := h.edits
  have hedits := hevolves.edits firewall.id
  refine ⟨hevolves.names _ _ h.name, count, hloaded.trans hcount, hle.trans hedits, fun hsame ↦ ?_⟩
  have hunchanged : world.edits firewall.id = count := by omega
  rw [hevolves.rows firewall.id (h.name ▸ rfl) (hsame.trans hunchanged.symm)]
  exact hrow hunchanged

/-- What a thread has learned is true. -/
structure Knows (me : ℕ) (world : FirewallWorld) (l : FirewallKnown) : Prop where
  loaded : ∀ firewall, l.loaded = some firewall → Loaded me world firewall
  page : ∀ page name id, l.page = some page → remoteNamed page name = some id →
    world.firstNamed name = some id

theorem knows_nothing (me : ℕ) (world : FirewallWorld) : Knows me world {} where
  loaded _ h := by cases h
  page _ _ _ h := by cases h

theorem Knows.evolves {after : FirewallWorld} (h : Knows me world l)
    (hevolves : world.Evolves after)
    (hloaded : ∀ firewall, l.loaded = some firewall → after.loaded me = world.loaded me) :
    Knows me after l := by
  refine ⟨fun firewall hfirewall ↦ ?_, fun page name id hpage hnamed ↦ ?_⟩
  · exact (h.loaded firewall hfirewall).evolves hevolves (hloaded firewall hfirewall)
  · exact hevolves.first name id (h.page page name id hpage hnamed)

/-! ### The calls -/

/-- The name of a rulebook is enough to find its remote firewall: when it is written to one, no
firewall of its name carries another user's rulebook, and when one is created, there is none of its
name. -/
def NamedApart (world : FirewallWorld) : FirewallCall → Prop
  | .updateFirewallRules _ firewall => ∀ remote ∈ world.project.rows, remote.name = firewall.name →
    ∀ carried ∈ remote.carries, carried.userId = firewall.userId
  | .createFirewall firewall => ∀ remote ∈ world.project.rows, remote.name ≠ firewall.name
  | _ => True

/-- The rules of a firewall that carries another user's rulebook are not changed. -/
def LeavesOthers (world : FirewallWorld) : FirewallCall → Prop
  | .updateFirewallRules remoteId firewall => ∀ remote ∈ world.project.get remoteId,
    ∀ carried ∈ remote.carries, carried.userId ≠ firewall.userId →
      remote.rules = firewall.remoteRules
  | _ => True

instance (world : FirewallWorld) : (request : FirewallCall) → Decidable (world.NamedApart request)
  | .updateFirewallRules _ _ => by unfold NamedApart; infer_instance
  | .createFirewall _ => by unfold NamedApart; infer_instance
  | .listForUser _ | .get _ | .add _ | .save _ | .delete _ | .listFirewalls => .isTrue trivial

instance (world : FirewallWorld) : (request : FirewallCall) → Decidable (world.LeavesOthers request)
  | .updateFirewallRules _ _ => by unfold LeavesOthers; infer_instance
  | .createFirewall _ | .listForUser _ | .get _ | .add _ | .save _ | .delete _ | .listFirewalls =>
    .isTrue trivial

/-- What a permitted write meets: the rulebook was drawn under its name. -/
theorem consistent_add (h : world.Consistent) {firewall : NewFirewall}
    (hname : strip firewall.name = firewall.name) (id : Uuid) :
    (world.tick.add firewall id).2.Consistent := by
  rcases add_cases world.tick firewall id with ⟨raised, hadd⟩ | ⟨hnew, hadd⟩
  · rw [hadd]
    exact h.tick
  · have hevolves : world.tick.Evolves (world.tick.add firewall id).2 := evolves_add firewall id
    rw [hadd] at hevolves ⊢
    refine ⟨fun other row hrow ↦ ?_, fun other name hother ↦ ?_,
      fun remote hremote carried hcarried ↦ ?_, fun _ hrun ↦ by cases hrun⟩
    · rw [Table.get_put] at hrow
      by_cases hid : id = other
      · rw [if_pos hid] at hrow
        obtain rfl := Option.some.inj hrow
        subst hid
        exact Function.update_self id _ world.names
      · rw [if_neg hid] at hrow
        exact hevolves.names other row.name (h.rows other row hrow)
    · by_cases hid : other = id
      · subst hid
        have hsame : some firewall.name = some name := by
          rw [← hother]
          exact (Function.update_self other _ world.names).symm
        rw [← Option.some.inj hsame]
        exact hname
      · exact h.stripped other name ((Function.update_of_ne hid _ world.names).symm.trans hother)
    · obtain ⟨hnames, hfirst⟩ := h.carried remote hremote carried hcarried
      exact ⟨hevolves.names _ _ hnames, hfirst⟩

theorem consistent_save (h : world.Consistent)
    (hname : world.names firewall.id = some firewall.name) :
    (world.tick.save firewall).2.Consistent := by
  rcases save_cases world.tick firewall with ⟨raised, hsave⟩ | hsave
  · rw [hsave]
    exact h.tick
  · rw [hsave]
    refine ⟨fun other row hrow ↦ ?_, h.stripped, h.carried, fun _ hrun ↦ by cases hrun⟩
    rw [Table.get_put] at hrow
    by_cases hid : firewall.id = other
    · rw [if_pos hid] at hrow
      obtain rfl := Option.some.inj hrow
      exact hid ▸ hname
    · rw [if_neg hid] at hrow
      exact h.rows other row hrow

theorem consistent_delete (h : world.Consistent) (id : Uuid) :
    (world.tick.delete id).Consistent := by
  refine ⟨fun other row hrow ↦ ?_, h.stripped, h.carried, fun _ hrun ↦ by cases hrun⟩
  have hkey := Table.key_of_get hrow
  have hmem : row ∈ world.firewalls.rows := List.mem_of_mem_filter (Table.mem_of_get hrow)
  exact h.rows other row (hkey ▸ Table.mem_iff_get.mp hmem)

/-- The remote firewall that was just written has the rules of the rulebook that was loaded, which
is still the row. -/
theorem exact_of_loaded {remoteId : String} {remote : RemoteFirewall}
    (hlatest : world.latest = some ⟨me, firewall, remoteId⟩) (hloaded : Loaded me world firewall)
    (hremote : world.project.get remoteId = some remote)
    (hrules : remote.rules = firewall.remoteRules) : world.Exact := by
  intro run hrun hcount row hrow
  obtain rfl := Option.some.inj (hlatest.symm.trans hrun)
  obtain ⟨count, hcount', -, hsame⟩ := hloaded.edits
  have hedits : world.edits firewall.id = count := Option.some.inj (hcount.symm.trans hcount')
  obtain rfl := Option.some.inj ((hsame hedits).symm.trans hrow)
  exact ⟨remote, hremote, hrules⟩

theorem consistent_createRemote (h : world.Consistent) (hloaded : Loaded me world firewall)
    (hnamed : ∀ remote ∈ world.project.rows, remote.name ≠ firewall.name) (chance : FirewallChance) :
     (world.tick.createRemote me firewall chance).2.Consistent := by
  have hevolves : world.tick.Evolves (world.tick.createRemote me firewall chance).2 :=
    evolves_createRemote me firewall chance
  rcases createRemote_cases me world.tick firewall chance with ⟨raised, hcreate⟩ | ⟨hnew, hcreate⟩
  · rw [hcreate]
    exact h.tick
  · rw [hcreate] at hevolves ⊢
    refine ⟨h.rows, h.stripped, fun remote hremote carried hcarried ↦ ?_, ?_⟩
    · rcases Table.mem_put.mp hremote with rfl | ⟨hold, -⟩
      · obtain rfl := Option.some.inj hcarried
        have hnone : world.tick.firstNamed firewall.name = none := by
          rw [firstNamed, Option.map_eq_none_iff, List.find?_eq_none]
          exact fun remote hremote heq ↦ hnamed remote hremote (of_decide_eq_true heq)
        have hput := firstNamed_put world.tick
          (carrying firewall chance.remoteId firewall.name) hnew firewall.name
        rw [hnone] at hput
        exact ⟨hloaded.name, hput.trans (if_pos rfl)⟩
      · obtain ⟨hnames, hfirst⟩ := h.carried remote hold carried hcarried
        exact ⟨hnames, hevolves.first _ _ hfirst⟩
    · exact exact_of_loaded rfl (hloaded.evolves ⟨hevolves.names, hevolves.edits, hevolves.rows,
        hevolves.first⟩ rfl) (Table.get_put_self world.project _) rfl

theorem consistent_updateRemote (h : world.Consistent) {remoteId : String}
    (hloaded : Loaded me world firewall) (hfirst : world.firstNamed firewall.name = some remoteId) :
    (world.tick.updateRemote me remoteId firewall).2.Consistent := by
  have hevolves : world.tick.Evolves (world.tick.updateRemote me remoteId firewall).2 :=
    evolves_updateRemote me remoteId firewall
  rcases updateRemote_cases me world.tick remoteId firewall with
    ⟨raised, hupdate⟩ | ⟨hthere, hupdate⟩
  · rw [hupdate]
    exact h.tick
  · rw [hupdate] at hevolves ⊢
    refine ⟨h.rows, h.stripped, fun remote hremote carried hcarried ↦ ?_, ?_⟩
    · have hmem : remote ∈ (world.tick.project.update (rewritten remoteId firewall)
          (id_rewritten remoteId firewall)).rows := hremote
      obtain ⟨before, hbefore, rfl⟩ := Table.mem_update.mp hmem
      have hsame := firstNamed_update world.tick remoteId firewall before.name
      rw [name_rewritten, id_rewritten]
      unfold rewritten at hcarried
      by_cases hid : before.id = remoteId
      · rw [if_pos hid] at hcarried
        obtain rfl := Option.some.inj hcarried
        subst hid
        have hname : before.name = firewall.name := name_of_firstNamed hfirst hbefore
        rw [hname] at hsame ⊢
        exact ⟨hloaded.name, hsame.trans hfirst⟩
      · rw [if_neg hid] at hcarried
        obtain ⟨hnames, hbeforeFirst⟩ := h.carried before hbefore carried hcarried
        exact ⟨hnames, hsame.trans hbeforeFirst⟩
    · obtain ⟨before, hbefore⟩ := Option.isSome_iff_exists.mp hthere
      have hkey : before.id = remoteId := Table.key_of_get hbefore
      have hafter : (world.tick.project.update (rewritten remoteId firewall)
          (id_rewritten remoteId firewall)).get remoteId =
            some (carrying firewall before.id before.name) := by
        rw [Table.get_update, hbefore, Option.map_some, rewritten, if_pos hkey]
      exact exact_of_loaded rfl (hloaded.evolves ⟨hevolves.names, hevolves.edits, hevolves.rows,
        hevolves.first⟩ rfl) hafter rfl

/-- A permitted call whose name is enough keeps the world consistent. -/
theorem consistent_perform (h : world.Consistent) (hknows : Knows me world l)
    (hpermits : l.permits request) (hnamed : world.NamedApart request) (chance : FirewallChance) :
    (perform pageSize me chance world.tick request).2.Consistent := by
  cases request with
  | add firewall => exact consistent_add h hpermits chance.rowId
  | save firewall =>
    obtain ⟨loaded, hloaded, hid, hname⟩ := hpermits
    have hdrawn := (hknows.loaded loaded hloaded).name
    refine consistent_save h ?_
    rw [hid, hname, h.stripped _ _ hdrawn]
    exact hdrawn
  | delete id => exact consistent_delete h id
  | createFirewall firewall =>
    exact consistent_createRemote h (hknows.loaded firewall hpermits) hnamed chance
  | updateFirewallRules remoteId firewall =>
    obtain ⟨hloaded, page, hpage, hfound⟩ := hpermits
    exact consistent_updateRemote h (hknows.loaded firewall hloaded)
      (hknows.page page firewall.name remoteId hpage hfound)
  | get id => exact ⟨h.rows, h.stripped, h.carried, fun _ hrun ↦ by cases hrun⟩
  | listForUser userId => exact h.tick
  | listFirewalls => exact h.tick

theorem evolves_tick (pageSize me : ℕ) (chance : FirewallChance) (world : FirewallWorld)
    (request : FirewallCall) : world.Evolves (perform pageSize me chance world.tick request).2 := by
  have h := evolves_perform pageSize me chance world.tick request
  exact ⟨h.names, h.edits, h.rows, h.first⟩

/-- What a call leaves true of what its caller knew. -/
theorem knows_performed (hknows : Knows me world l) (hpermits : l.permits request)
    (chance : FirewallChance) : Knows me (perform pageSize me chance world.tick request).2 l := by
  refine hknows.evolves (evolves_tick pageSize me chance world request) fun firewall hloaded ↦ ?_
  refine loaded_perform pageSize chance world.tick (.inr ?_)
  rintro id rfl
  have hnone : l.loaded = none := hpermits
  rw [hnone] at hloaded
  cases hloaded

/-- What a call that took effect teaches its caller is true. -/
theorem knows_learned (h : world.Consistent) (hknows : Knows me world l)
    (hpermits : l.permits request) (chance : FirewallChance) :
    Knows me (perform pageSize me chance world.tick request).2
      (l.learns request (perform pageSize me chance world.tick request).1) := by
  have hkept : Knows me (perform pageSize me chance world.tick request).2 l :=
    knows_performed hknows hpermits chance
  cases request with
  | get id =>
    refine ⟨fun firewall hfound ↦ ?_, hkept.page⟩
    have hrow : world.firewalls.get id = some firewall := hfound
    have hkey : firewall.id = id := Table.key_of_get hrow
    subst hkey
    exact ⟨h.rows _ firewall hrow, world.edits firewall.id,
      Function.update_self me _ world.loaded, le_rfl, fun _ ↦ hrow⟩
  | listFirewalls =>
    refine ⟨hkept.loaded, fun page name id hpage hnamed ↦ ?_⟩
    obtain rfl := Option.some.inj hpage
    exact firstNamed_of_page hnamed
  | add firewall => exact hkept
  | save firewall => exact hkept
  | delete id => exact hkept
  | createFirewall firewall => exact hkept
  | updateFirewallRules remoteId firewall => exact hkept
  | listForUser userId => exact hkept

end FirewallWorld

/-- Every permitted call keeps what the threads know. -/
theorem firewallProtocol_sound (pageSize : ℕ) :
    firewallProtocol.Sound (FirewallWorld.handle pageSize) FirewallWorld.Consistent
      FirewallWorld.Knows fun _ ↦ FirewallWorld.NamedApart where
  truthful _ _ _ _ _ := trivial
  kept _ _ chance _ _ h hknows hpermits hnamed :=
    deliver_snd h.tick (FirewallWorld.consistent_perform h hknows hpermits hnamed chance)
      chance.delivery
  learned me request chance world l h hknows hpermits _ := by
    refine deliver_rule
      (P := fun reply after ↦ FirewallWorld.Knows me after (l.learns request reply)) ?_ ?_ ?_
      chance.delivery
    · rw [FirewallKnown.learns_error]
      exact ⟨fun firewall hloaded ↦ (hknows.loaded firewall hloaded).evolves
        ⟨fun _ _ h ↦ h, fun _ ↦ le_rfl, fun _ _ _ ↦ rfl, fun _ _ h ↦ h⟩ rfl, hknows.page⟩
    · exact FirewallWorld.knows_learned h hknows hpermits chance
    · rw [FirewallKnown.learns_error]
      exact FirewallWorld.knows_performed hknows hpermits chance
  others me request chance world _ _ _ _ _ other hne l hother := by
    refine deliver_snd (P := fun after ↦ FirewallWorld.Knows other after l) ?_ ?_ chance.delivery
    · exact ⟨fun firewall hloaded ↦ (hother.loaded firewall hloaded).evolves
        ⟨fun _ _ h ↦ h, fun _ ↦ le_rfl, fun _ _ _ ↦ rfl, fun _ _ h ↦ h⟩ rfl, hother.page⟩
    · exact hother.evolves (FirewallWorld.evolves_tick pageSize me chance world request)
        fun _ _ ↦ FirewallWorld.loaded_perform pageSize chance world.tick (.inl hne)

/-- An informed write whose name is enough changes no other user's firewall. -/
theorem leavesOthers_of_informed {me : ℕ} {world : FirewallWorld} {request : FirewallCall}
    (hinformed : Informed firewallProtocol FirewallWorld.Consistent FirewallWorld.Knows me world
      request) (hnamed : world.NamedApart request) : world.LeavesOthers request := by
  obtain ⟨-, l, hknows, hpermits⟩ := hinformed
  cases request with
  | updateFirewallRules remoteId firewall =>
    obtain ⟨-, page, hpage, hfound⟩ := hpermits
    intro remote hremote carried hcarried hne
    have hmem := Table.mem_of_get hremote
    have hkey : remote.id = remoteId := Table.key_of_get hremote
    have hfirst := hknows.page page firewall.name remoteId hpage hfound
    rw [← hkey] at hfirst
    have hname := FirewallWorld.name_of_firstNamed hfirst hmem
    exact absurd (hnamed remote hmem hname carried hcarried) hne
  | _ => trivial

namespace TwoTenants

def alice : Uuid :=
  ⟨"aaaaaaaa-aaaa-4aaa-8aaa-aaaaaaaaaaaa", .refl true⟩

def bob : Uuid :=
  ⟨"bbbbbbbb-bbbb-4bbb-8bbb-bbbbbbbbbbbb", .refl true⟩

def firstRow : Uuid :=
  ⟨"11111111-1111-4111-8111-111111111111", .refl true⟩

def secondRow : Uuid :=
  ⟨"22222222-2222-4222-8222-222222222222", .refl true⟩

/-- Inbound TCP on a port, from everywhere. -/
def allow (port : String) : FirewallRule :=
  { direction := .in, protocol := .tcp, port := some port, cidrs := ["0.0.0.0/0"] }

/-- So many calls of a thread, which draw these ids. -/
def calls (thread count : ℕ) (rowId : Uuid) (remoteId : String) :
    List (PoolEvent FirewallEntry FirewallChance) :=
  List.replicate count (.advance thread { rowId := rowId, remoteId := remoteId })

/-- A user makes a rulebook and has it materialised. -/
def materialise (thread : ℕ) (user : Uuid) (name port : String) (rowId : Uuid) (remoteId : String) :
    List (PoolEvent FirewallEntry FirewallChance) :=
  .spawn (.create user user name [allow port]) :: calls thread 2 rowId remoteId ++
    .spawn (.ensure rowId) :: calls (thread + 1) 3 rowId remoteId

/-- Two users with rulebooks of different names; the first replaces its rules and has them
materialised again. -/
def events : List (PoolEvent FirewallEntry FirewallChance) :=
  materialise 0 alice "web" "80" firstRow "1" ++ materialise 2 bob "mail" "25" secondRow "2" ++
    .spawn (.replaceRules alice firstRow [allow "443"]) :: calls 4 2 firstRow "" ++
    .spawn (.ensure firstRow) :: calls 5 3 firstRow ""

end TwoTenants

end CloudPlatform.Firewalls
