import CloudPlatform.Compute.CreateServer
import CloudPlatform.Orders.PurchaseAlone
import CloudPlatform.Transition.Protocol

/-!
# The quota under concurrency

Any number of create commands of one user run interleaved, each repository call one step. The counts
that a command checks are read in transactions before its insert, so what bounds the servers is how
many others are inserted in between: `bounded_of_spareRoom`. Two commands that both count before either
inserts exceed a quota with room for one.
-/

namespace CloudPlatform.Compute

open Transition

/-! ### Commands that are watched -/

/-- A count that a command has read, and how many servers had been inserted by then. -/
structure Count where
  value : ℕ
  behind : ℕ

/-- The rows, how many servers were inserted, and the last counts of each command. -/
structure QuotaWatch where
  rows : CreateRows
  inserts : ℕ := 0
  active : ℕ → Option Count := fun _ ↦ none
  total : ℕ → Option Count := fun _ ↦ none

/-- What a reply to a thread adds to the watch. -/
def QuotaWatch.observe (s : QuotaWatch) (thread : ℕ) (rows : CreateRows) :
    (request : CreateCall) → Result request.Out → QuotaWatch
  | .countActive _, .ok value =>
    { s with rows := rows, active := Function.update s.active thread (some ⟨value, s.inserts⟩) }
  | .countTotal _, .ok value =>
    { s with rows := rows, total := Function.update s.total thread (some ⟨value, s.inserts⟩) }
  | .createServer .., .ok _ => { s with rows := rows, inserts := s.inserts + 1 }
  | _, _ => { s with rows := rows }

/-- One call of a thread. -/
def QuotaWatch.handle (thread : ℕ) (request : CreateCall) (chance : CreateChance) (s : QuotaWatch) :
    Result request.Out × QuotaWatch :=
  ((request.handle chance s.rows).1,
    s.observe thread (request.handle chance s.rows).2 request (request.handle chance s.rows).1)

/-- A command as a thread. -/
def CreateServerCommand.thread (settings : CreateServerSettings) (command : CreateServerCommand) :
    CreateProgram Unit := do
  let _ ← createServer settings command
  return ()

/-- One event of the commands that run. -/
abbrev QuotaWatch.step (settings : CreateServerSettings) :
    Pool Raised CreateCall CreateCall.Out QuotaWatch → PoolEvent CreateServerCommand CreateChance →
      Pool Raised CreateCall CreateCall.Out QuotaWatch :=
  Pool.step QuotaWatch.handle (CreateServerCommand.thread settings)

/-- The servers of the user are within the quota. -/
def QuotaWatch.Bounded (quota : QuotaPolicy) (userId : Uuid) (s : QuotaWatch) : Prop :=
  s.rows.countActive userId ≤ quota.maxActive ∧ s.rows.countTotal userId ≤ quota.maxTotal

/-- The insert of a command comes before as many other servers were inserted behind its counts as
these left spare; one that a key refuses may come at any time. -/
def SpareRoom (quota : QuotaPolicy) (thread : ℕ) (s : QuotaWatch) : CreateCall → Prop
  | .createServer server intent => (∀ row ∈ s.rows.servers, row.id ≠ server.id ∧
      row.idempotencyKey ≠ some intent.idempotencyKey) →
    (∀ count ∈ s.active thread, s.inserts - count.behind ≤ quota.maxActive - (count.value + 1)) ∧
      ∀ count ∈ s.total thread, s.inserts - count.behind ≤ quota.maxTotal - (count.value + 1)
  | _ => True

instance (quota : QuotaPolicy) (thread : ℕ) (s : QuotaWatch) :
    (request : CreateCall) → Decidable (SpareRoom quota thread s request)
  | .createServer .. => inferInstanceAs (Decidable (_ → _ ∧ _))
  | .requireLatest _ | .serverByKey _ | .getOffer _ | .blockingScope .. | .activeAccount ..
  | .checkCost _ | .sellPrice .. | .countActive _ | .countTotal _ | .accountFor .. | .wallet _
  | .hold _ | .saveServer _ | .createSnapshot .. | .getSnapshot _ | .audit .. => .isTrue trivial

/-! ### What a call does to the servers -/

section Rows

variable {rows : CreateRows} {chance : CreateChance}

/-- All that a call can do to the servers: nothing, an insert under fresh keys, or the save of a
copy. -/
inductive WritesServers (rows : CreateRows) :
    (request : CreateCall) → Result request.Out → CreateRows → Prop
  | same (request : CreateCall) (reply : Result request.Out) (after : CreateRows)
      (hsame : after.servers = rows.servers)
      (hinsert : ∀ server intent, request = .createServer server intent → reply.isOk = false) :
      WritesServers rows request reply after
  | inserted (server row : CloudServer) (intent : ServerCreateIntent) (after : CreateRows)
      (hfresh : ∀ other ∈ rows.servers, other.id ≠ server.id ∧
        other.idempotencyKey ≠ some intent.idempotencyKey)
      (hid : row.id = server.id) (huser : row.userId = server.userId)
      (hstate : row.state = server.state) (hafter : after.servers = rows.servers ++ [row]) :
      WritesServers rows (.createServer server intent) (.ok row) after
  | saved (copy saved : CloudServer) (now : ℤ) (after : CreateRows)
      (hafter : after.servers = rows.servers.map fun other ↦
        if other.id = copy.id then other.saved copy now else other) :
      WritesServers rows (.saveServer copy) (.ok saved) after

theorem CreateChance.meets_cases {α : Type} (chance : CreateChance) (rows : CreateRows)
    (answer : Result α × CreateRows) :
    (∃ raised, chance.meets rows answer = (.error raised, rows)) ∨
      chance.meets rows answer = answer := by
  unfold CreateChance.meets
  split
  · rename_i raised _
    exact Or.inl ⟨raised, rfl⟩
  · exact Or.inr rfl

theorem writesServers_meets {request : CreateCall} {answer : Result request.Out × CreateRows}
    (h : WritesServers rows request answer.1 answer.2) :
    WritesServers rows request (chance.meets rows answer).1 (chance.meets rows answer).2 := by
  rcases chance.meets_cases rows answer with ⟨raised, hfault⟩ | hserved
  · rw [hfault]
    exact .same request _ rows rfl fun _ _ _ ↦ rfl
  · rw [hserved]
    exact h

theorem writesServers_insert (server : CloudServer) (intent : ServerCreateIntent) (now : ℤ) :
    WritesServers rows (.createServer server intent) (rows.insertServer server intent now).1
      (rows.insertServer server intent now).2 := by
  unfold CreateRows.insertServer
  split
  · exact .same _ _ rows rfl fun _ _ _ ↦ rfl
  · rename_i hfresh
    refine .inserted server _ intent _ (fun other hother ↦ ?_) rfl rfl rfl rfl
    simp only [List.any_eq_true, not_exists, not_and, Bool.or_eq_true, decide_eq_true_eq,
      not_or] at hfresh
    exact hfresh other hother

theorem writesServers_update (copy : CloudServer) (now : ℤ) :
    WritesServers rows (.saveServer copy) (rows.updateServer copy now).1
      (rows.updateServer copy now).2 := by
  unfold CreateRows.updateServer
  split
  · exact .same _ _ rows rfl fun _ _ h ↦ by cases h
  · exact .saved copy _ now _ rfl

/-- Every call. -/
theorem writesServers_handle (request : CreateCall) (chance : CreateChance) (rows : CreateRows) :
    WritesServers rows request (request.handle chance rows).1 (request.handle chance rows).2 := by
  cases request with
  | createServer server intent => exact writesServers_meets (writesServers_insert server intent _)
  | saveServer copy => exact writesServers_meets (writesServers_update copy _)
  | createSnapshot serverId price =>
    refine writesServers_meets (.same _ _ _ ?_ fun _ _ h ↦ by cases h)
    unfold CreateRows.insertSnapshot
    split
    · rfl
    · split
      · rfl
      · rfl
  | _ => exact writesServers_meets (.same _ _ _ rfl fun _ _ h ↦ by cases h)

end Rows

/-! ### What a command knows -/

/-- What a command has learned: whether its counts left room, and the id of the server it created. -/
structure QuotaLearned where
  active : Bool := false
  total : Bool := false
  created : Option Uuid := none

/-- What a command may call: it inserts a REQUESTED server once both its counts left room, and saves
only the server that it created, in ERROR. -/
def quotaProtocol (quota : QuotaPolicy) (userId : Uuid) :
    Protocol Raised CreateCall CreateCall.Out QuotaLearned where
  permits l request := match request with
    | .countActive id => id = userId
    | .countTotal id => id = userId
    | .createServer server _ => l.active = true ∧ l.total = true ∧ server.state = .requested
    | .saveServer copy => l.created = some copy.id ∧ copy.state = .error
    | _ => True
  truthful _ _ := True
  learns l request reply := match request, reply with
    | .countActive _, .ok value => { l with active := value < quota.maxActive }
    | .countTotal _, .ok value => { l with total := value < quota.maxTotal }
    | .createServer .., .ok created => { l with created := some created.id }
    | _, _ => l

/-- No server of the id is DELETED. -/
def CreateRows.Alive (rows : CreateRows) (id : Uuid) : Prop :=
  ∀ row ∈ rows.servers, row.id = id → row.state ≠ .deleted

/-- What a thread has learned is true of the watch. -/
structure QuotaKnown (quota : QuotaPolicy) (me : ℕ) (s : QuotaWatch) (l : QuotaLearned) :
    Prop where
  active : l.active = true → ∃ count ∈ s.active me, count.value < quota.maxActive
  total : l.total = true → ∃ count ∈ s.total me, count.value < quota.maxTotal
  created : ∀ id ∈ l.created, s.rows.Alive id

/-- What became of every count of a number: since it was read, the number has grown by the inserts at
most. -/
def Counted (number inserts : ℕ) (counts : ℕ → Option Count) : Prop :=
  ∀ thread, ∀ count ∈ counts thread,
    count.behind ≤ inserts ∧ number ≤ count.value + (inserts - count.behind)

variable {counts : ℕ → Option Count}

theorem counted_of_le {number fewer inserts : ℕ} (h : Counted number inserts counts)
    (hle : fewer ≤ number) : Counted fewer inserts counts :=
  fun thread count hcount ↦
    ⟨(h thread count hcount).1, hle.trans (h thread count hcount).2⟩

/-- A new count is true. -/
theorem counted_update {number inserts : ℕ} (h : Counted number inserts counts) (thread : ℕ) :
    Counted number inserts (Function.update counts thread (some ⟨number, inserts⟩)) := by
  intro other count hcount
  by_cases hother : other = thread
  · rw [hother, Function.update_self] at hcount
    obtain rfl := Option.some.inj hcount
    exact ⟨le_rfl, Nat.le_add_right _ _⟩
  · rw [Function.update_of_ne hother] at hcount
    exact h other count hcount

/-- An insert adds one server at most. -/
theorem counted_insert {number grown inserts : ℕ} (h : Counted number inserts counts)
    (hgrown : grown ≤ number + 1) : Counted grown (inserts + 1) counts := by
  intro thread count hcount
  obtain ⟨hbehind, hnumber⟩ := h thread count hcount
  omega

/-- One more server behind a count that left room, with few enough others in between. -/
theorem counted_room {number grown inserts limit thread : ℕ} (h : Counted number inserts counts)
    (hgrown : grown ≤ number + 1) (hlimit : ∃ count ∈ counts thread, count.value < limit)
    (hroom : ∀ count ∈ counts thread, inserts - count.behind ≤ limit - (count.value + 1)) :
    grown ≤ limit := by
  obtain ⟨count, hcount, hlt⟩ := hlimit
  have hnumber := (h thread count hcount).2
  have hbetween := hroom count hcount
  omega

/-- The bound, and what became of the counts. -/
structure QuotaKept (quota : QuotaPolicy) (userId : Uuid) (s : QuotaWatch) : Prop where
  bounded : s.Bounded quota userId
  active : Counted (s.rows.countActive userId) s.inserts s.active
  total : Counted (s.rows.countTotal userId) s.inserts s.total

section Steps

variable {quota : QuotaPolicy} {userId : Uuid} {s : QuotaWatch} {after : CreateRows} {thread : ℕ}
  {l : QuotaLearned}

/-- Rows with no more servers of the user. -/
theorem kept_of_le (h : QuotaKept quota userId s)
    (hactive : after.countActive userId ≤ s.rows.countActive userId)
    (htotal : after.countTotal userId ≤ s.rows.countTotal userId) :
    QuotaKept quota userId { s with rows := after } where
  bounded := ⟨hactive.trans h.bounded.1, htotal.trans h.bounded.2⟩
  active := counted_of_le h.active hactive
  total := counted_of_le h.total htotal

theorem kept_of_same (h : QuotaKept quota userId s) (hsame : after.servers = s.rows.servers) :
    QuotaKept quota userId { s with rows := after } := by
  apply kept_of_le h
  · simp only [CreateRows.countActive, hsame, le_refl]
  · simp only [CreateRows.countTotal, hsame, le_refl]

/-- An insert by a command whose counts left room, with few enough others in between. -/
theorem kept_inserted (h : QuotaKept quota userId s) (hknown : QuotaKnown quota thread s l)
    (hactive : l.active = true) (htotal : l.total = true) (row : CloudServer)
    (hafter : after.servers = s.rows.servers ++ [row]) (hroom : (∀ count ∈ s.active thread,
        s.inserts - count.behind ≤ quota.maxActive - (count.value + 1)) ∧
      ∀ count ∈ s.total thread, s.inserts - count.behind ≤ quota.maxTotal - (count.value + 1)) :
    QuotaKept quota userId { s with rows := after, inserts := s.inserts + 1 } := by
  have hmoreActive : after.countActive userId ≤ s.rows.countActive userId + 1 := by
    simp only [CreateRows.countActive, hafter, List.countP_append, List.countP_singleton]
    split
    · exact le_rfl
    · exact Nat.le_succ _
  have hmoreTotal : after.countTotal userId ≤ s.rows.countTotal userId + 1 := by
    simp only [CreateRows.countTotal, hafter, List.countP_append, List.countP_singleton]
    split
    · exact le_rfl
    · exact Nat.le_succ _
  exact {
    bounded := ⟨counted_room h.active hmoreActive (hknown.active hactive) hroom.1,
      counted_room h.total hmoreTotal (hknown.total htotal) hroom.2⟩
    active := counted_insert h.active hmoreActive
    total := counted_insert h.total hmoreTotal }

/-- The save of a server in ERROR, when none of its id is DELETED. -/
theorem kept_saved (h : QuotaKept quota userId s) {copy : CloudServer} {now : ℤ}
    (halive : s.rows.Alive copy.id) (hafter : after.servers = s.rows.servers.map fun other ↦
      if other.id = copy.id then other.saved copy now else other) :
    QuotaKept quota userId { s with rows := after } := by
  apply kept_of_le h
  · simp only [CreateRows.countActive, hafter, List.countP_map]
    refine List.countP_mono_left fun row hrow hcounted ↦ ?_
    simp only [Function.comp_apply, decide_eq_true_eq] at hcounted ⊢
    by_cases hid : row.id = copy.id
    · rw [if_pos hid] at hcounted
      exact ⟨hcounted.1, halive row hrow hid⟩
    · rw [if_neg hid] at hcounted
      exact hcounted
  · simp only [CreateRows.countTotal, hafter, List.countP_map]
    refine List.countP_mono_left fun row hrow hcounted ↦ ?_
    simp only [Function.comp_apply, decide_eq_true_eq] at hcounted ⊢
    by_cases hid : row.id = copy.id
    · rw [if_pos hid] at hcounted
      exact hcounted
    · rw [if_neg hid] at hcounted
      exact hcounted

variable {request : CreateCall} {id : Uuid}

/-- A permitted call deletes no server. -/
theorem alive_writes {reply : Result request.Out} (h : WritesServers s.rows request reply after)
    (hpermits : (quotaProtocol quota userId).permits l request) (halive : s.rows.Alive id) :
    after.Alive id := by
  cases h with
  | same request reply after hsame =>
    intro row hrow
    rw [hsame] at hrow
    exact halive row hrow
  | inserted server row intent after hfresh hid huser hstate hafter =>
    intro other hother
    rw [hafter, List.mem_append, List.mem_singleton] at hother
    rcases hother with hold | rfl
    · exact halive other hold
    · intro _
      rw [hstate, hpermits.2.2]
      decide
  | saved copy saved now after hafter =>
    intro other hother
    rw [hafter, List.mem_map] at hother
    obtain ⟨row, hrow, rfl⟩ := hother
    by_cases hid : row.id = copy.id
    · rw [if_pos hid]
      intro _
      show copy.state ≠ .deleted
      rw [hpermits.2]
      decide
    · rw [if_neg hid]
      exact halive row hrow

/-- The server that a command inserts is not DELETED. -/
theorem alive_inserted {server created : CloudServer} {intent : ServerCreateIntent}
    (h : WritesServers s.rows (.createServer server intent) (.ok created) after)
    (hstate : server.state = .requested) : after.Alive created.id := by
  cases h with
  | same _ _ _ _ hinsert => cases hinsert server intent rfl
  | inserted _ _ _ _ hfresh hid huser hrequested hafter =>
    intro row hrow hsame
    rw [hafter, List.mem_append, List.mem_singleton] at hrow
    rcases hrow with hold | rfl
    · exact absurd (hsame.trans hid) (hfresh row hold).1
    · rw [hrequested, hstate]
      decide

/-! ### The protocol is sound -/

theorem observe_rows (request : CreateCall) (reply : Result request.Out) :
    (s.observe thread after request reply).rows = after := by
  unfold QuotaWatch.observe
  split
  · rfl
  · rfl
  · rfl
  · rfl

/-- The counts of the other threads stay. -/
theorem QuotaWatch.observe_others (s : QuotaWatch) (after : CreateRows) {other : ℕ} (hother : other ≠ thread) (request : CreateCall)
    (reply : Result request.Out) :
    (s.observe thread after request reply).active other = s.active other ∧
      (s.observe thread after request reply).total other = s.total other := by
  unfold QuotaWatch.observe
  split
  · exact ⟨Function.update_of_ne hother _ _, rfl⟩
  · exact ⟨rfl, Function.update_of_ne hother _ _⟩
  · exact ⟨rfl, rfl⟩
  · exact ⟨rfl, rfl⟩

theorem countActive_reply {chance : CreateChance} {value : ℕ}
    (h : ((CreateCall.countActive id).handle chance s.rows).1 = .ok value) :
    value = s.rows.countActive id := by
  simp only [CreateCall.handle, CreateChance.meets] at h
  split at h
  · cases h
  · exact (Except.ok.inj h).symm

theorem countTotal_reply {chance : CreateChance} {value : ℕ}
    (h : ((CreateCall.countTotal id).handle chance s.rows).1 = .ok value) :
    value = s.rows.countTotal id := by
  simp only [CreateCall.handle, CreateChance.meets] at h
  split at h
  · cases h
  · exact (Except.ok.inj h).symm

/-- One permitted call keeps the bound. -/
theorem kept_handle (h : QuotaKept quota userId s) (hknown : QuotaKnown quota thread s l)
    (hpermits : (quotaProtocol quota userId).permits l request)
    (hroom : SpareRoom quota thread s request) (chance : CreateChance) :
    QuotaKept quota userId (QuotaWatch.handle thread request chance s).2 := by
  have hwrites := writesServers_handle request chance s.rows
  unfold QuotaWatch.handle
  generalize hreply : (request.handle chance s.rows).1 = reply at hwrites ⊢
  generalize (request.handle chance s.rows).2 = after at hwrites ⊢
  cases hwrites with
  | inserted server row intent _ hfresh hid huser hstate hafter =>
    exact kept_inserted h hknown hpermits.1 hpermits.2.1 row hafter (hroom hfresh)
  | saved copy saved now _ hafter => exact kept_saved h (hknown.created _ hpermits.1) hafter
  | same _ _ _ hsame hinsert =>
    have hkept := kept_of_same h hsame
    cases request with
    | countActive id =>
      cases reply with
      | error raised => exact hkept
      | ok value =>
        obtain rfl : id = userId := hpermits
        obtain rfl := countActive_reply hreply
        have hcount : s.rows.countActive id = after.countActive id := by
          simp only [CreateRows.countActive, hsame]
        rw [hcount]
        exact { hkept with active := counted_update hkept.active thread }
    | countTotal id =>
      cases reply with
      | error raised => exact hkept
      | ok value =>
        obtain rfl : id = userId := hpermits
        obtain rfl := countTotal_reply hreply
        have hcount : s.rows.countTotal id = after.countTotal id := by
          simp only [CreateRows.countTotal, hsame]
        rw [hcount]
        exact { hkept with total := counted_update hkept.total thread }
    | createServer server intent =>
      cases reply with
      | error raised => exact hkept
      | ok created => cases hinsert server intent rfl
    | _ => exact hkept

/-- What the caller learns is true. -/
theorem known_handle (hknown : QuotaKnown quota thread s l)
    (hpermits : (quotaProtocol quota userId).permits l request) (chance : CreateChance) :
    QuotaKnown quota thread (QuotaWatch.handle thread request chance s).2
      ((quotaProtocol quota userId).learns l request
        (QuotaWatch.handle thread request chance s).1) := by
  have hwrites := writesServers_handle request chance s.rows
  have halive : ∀ id ∈ l.created, (request.handle chance s.rows).2.Alive id :=
    fun id hid ↦ alive_writes hwrites hpermits (hknown.created id hid)
  unfold QuotaWatch.handle
  generalize hreply : (request.handle chance s.rows).1 = reply at hwrites ⊢
  generalize (request.handle chance s.rows).2 = after at hwrites halive ⊢
  cases request with
  | countActive id =>
    cases reply with
    | error raised => exact ⟨hknown.active, hknown.total, halive⟩
    | ok value =>
      refine ⟨fun hlt ↦ ⟨⟨value, s.inserts⟩, ?_, of_decide_eq_true hlt⟩, hknown.total, halive⟩
      exact Function.update_self ..
  | countTotal id =>
    cases reply with
    | error raised => exact ⟨hknown.active, hknown.total, halive⟩
    | ok value =>
      refine ⟨hknown.active, fun hlt ↦ ⟨⟨value, s.inserts⟩, ?_, of_decide_eq_true hlt⟩, halive⟩
      exact Function.update_self ..
  | createServer server intent =>
    cases reply with
    | error raised => exact ⟨hknown.active, hknown.total, halive⟩
    | ok created =>
      refine ⟨hknown.active, hknown.total, fun id hid ↦ ?_⟩
      obtain rfl := Option.some.inj hid
      exact alive_inserted hwrites hpermits.2.2
  | _ => exact ⟨hknown.active, hknown.total, halive⟩

/-- What the others have learned stays true. -/
theorem known_others {other : ℕ} (hother : other ≠ thread) {known : QuotaLearned}
    (hknown : QuotaKnown quota other s known)
    (hpermits : (quotaProtocol quota userId).permits l request) (chance : CreateChance) :
    QuotaKnown quota other (QuotaWatch.handle thread request chance s).2 known := by
  obtain ⟨hactive, htotal⟩ := s.observe_others (request.handle chance s.rows).2 hother request
    (request.handle chance s.rows).1
  refine ⟨fun hlt ↦ ?_, fun hlt ↦ ?_, fun id hid ↦ ?_⟩
  · unfold QuotaWatch.handle
    rw [hactive]
    exact hknown.active hlt
  · unfold QuotaWatch.handle
    rw [htotal]
    exact hknown.total hlt
  · unfold QuotaWatch.handle
    rw [observe_rows]
    exact alive_writes (writesServers_handle request chance s.rows) hpermits (hknown.created id hid)

theorem quotaProtocol_sound (quota : QuotaPolicy) (userId : Uuid) :
    (quotaProtocol quota userId).Sound QuotaWatch.handle (QuotaKept quota userId)
      (QuotaKnown quota) (SpareRoom quota) where
  truthful _ _ _ _ _ := trivial
  kept _ _ chance _ _ h hknown hpermits hroom := kept_handle h hknown hpermits hroom chance
  learned _ _ chance _ _ _ hknown hpermits _ := known_handle hknown hpermits chance
  others _ _ chance _ _ _ _ hpermits _ _ hother _ hknown :=
    known_others hother hknown hpermits chance

end Steps

/-! ### The command follows it -/

section Programs

open CreateServer

variable {settings : CreateServerSettings} {command : CreateServerCommand} {userId : Uuid}
  {α β : Type} {l : QuotaLearned}

/-- The command follows the protocol, whatever it ends with. -/
abbrev Conforms (settings : CreateServerSettings) (userId : Uuid) (p : CreateProgram α)
    (l : QuotaLearned) : Prop :=
  Follows (quotaProtocol settings.quota userId) (fun _ _ ↦ True) p l

/-- A step that leaves what was learned. -/
abbrev Keeps (settings : CreateServerSettings) (userId : Uuid) (p : CreateProgram α)
    (l : QuotaLearned) : Prop :=
  Follows (quotaProtocol settings.quota userId) (fun _ learned ↦ learned = l) p l

/-- Sequencing behind a step that leaves what was learned. -/
theorem conforms_bind {p : CreateProgram α} {f : α → CreateProgram β}
    (hp : Keeps settings userId p l) (hf : ∀ value, Conforms settings userId (f value) l) :
    Conforms settings userId (p >>= f) l := by
  refine follows_bind (hp.mono fun outcome learned hlearned ↦ ?_)
  cases outcome with
  | error raised => trivial
  | ok value =>
    obtain rfl := hlearned
    exact hf value

/-- A call that any command may make and that teaches it nothing. -/
theorem keeps_call {request : CreateCall} (hpermits : (quotaProtocol settings.quota userId).permits l
    request) (hlearns : ∀ reply, (quotaProtocol settings.quota userId).learns l request reply = l) :
    Keeps settings userId (perform request) l :=
  ⟨hpermits, fun reply _ ↦ hlearns reply⟩

theorem keeps_perform {request : CreateCall} {f : request.Out → CreateProgram β}
    (hpermits : (quotaProtocol settings.quota userId).permits l request)
    (hlearns : ∀ reply, (quotaProtocol settings.quota userId).learns l request reply = l)
    (hf : ∀ value, Keeps settings userId (f value) l) :
    Keeps settings userId (perform request >>= f) l := by
  refine follows_perform hpermits (fun value _ ↦ ?_) fun raised _ ↦ hlearns _
  rw [hlearns]
  exact hf value

theorem keeps_requireTerms : Keeps settings userId (requireTerms settings userId) l := by
  unfold requireTerms
  split
  · exact keeps_call trivial fun _ ↦ rfl
  · exact rfl

theorem keeps_requireOffer : Keeps settings userId (requireOffer command.offerRef) l := by
  refine keeps_perform trivial (fun _ ↦ rfl) fun offer ↦ ?_
  split
  · exact rfl
  · split
    · exact rfl
    · exact rfl

theorem keeps_checkMaintenance :
    Keeps settings userId (checkMaintenance settings command.offerRef) l := by
  unfold checkMaintenance
  split
  · refine keeps_perform trivial (fun _ ↦ rfl) fun scope ↦ ?_
    split
    · exact rfl
    · exact rfl
  · exact rfl

theorem keeps_requireAccount : Keeps settings userId (requireAccount userId command.offerRef) l := by
  refine keeps_perform trivial (fun _ ↦ rfl) fun account ↦ ?_
  split
  · exact rfl
  · exact rfl

theorem keeps_checkCostLimit (account : Uuid) :
    Keeps settings userId (checkCostLimit settings account) l := by
  unfold checkCostLimit
  split
  · refine keeps_perform trivial (fun _ ↦ rfl) fun trigger ↦ ?_
    split
    · exact rfl
    · exact rfl
  · exact rfl

theorem keeps_fulfillmentAccount :
    Keeps settings userId (fulfillmentAccount settings command.offerRef) l := by
  unfold fulfillmentAccount
  split
  · refine follows_attempt ⟨trivial, fun reply _ ↦ ?_⟩
    cases reply with
    | ok account =>
      cases account with
      | none => exact rfl
      | some account => exact rfl
    | error raised =>
      show Keeps settings userId (if raised.kind = .providerCapacity then _
        else if Providers.isProviderError raised.kind then _ else _) l
      split
      · exact rfl
      · split
        · exact rfl
        · exact rfl
  · exact rfl

theorem keeps_reservePrice (offer : CatalogOffer) (price : SellingPrice) :
    Keeps settings userId (reservePrice command userId offer price) l := by
  refine keeps_perform trivial (fun _ ↦ rfl) fun wallet ↦ ?_
  split
  · exact rfl
  · exact keeps_perform trivial (fun _ ↦ rfl) fun hold ↦ rfl

theorem keeps_releaseHold (hold : Wallets.Hold) : Keeps settings userId (releaseHold hold) l :=
  follows_attempt ⟨trivial, fun _ _ ↦ rfl⟩

/-- The counts left room when the check comes through. -/
theorem follows_checkQuota :
    Follows (quotaProtocol settings.quota userId) (fun outcome learned ↦ outcome.isOk = true →
      learned.active = true ∧ learned.total = true) (checkQuota settings userId) l := by
  refine follows_perform rfl (fun active _ ↦ ?_) fun _ _ h ↦ by cases h
  refine follows_lift (fun _ hactive ↦ ?_) fun _ _ h ↦ by cases h
  refine follows_perform rfl (fun total _ ↦ ?_) fun _ _ h ↦ by cases h
  have hroom : active < settings.quota.maxActive :=
    not_le.mp (of_decide_eq_false (rejectIf_eq_ok.mp hactive))
  cases htotal : rejectIf (settings.quota.maxTotal ≤ total) .quotaExceeded
      s!"user has created {total} servers (lifetime limit {settings.quota.maxTotal})" with
  | error raised => exact fun h ↦ by cases h
  | ok _ =>
    have hspare : total < settings.quota.maxTotal :=
      not_le.mp (of_decide_eq_false (rejectIf_eq_ok.mp htotal))
    exact fun _ ↦ ⟨decide_eq_true hroom, decide_eq_true hspare⟩

theorem conforms_failIntent (created : CloudServer) (hold : Wallets.Hold)
    (hcreated : l.created = some created.id) :
    Keeps settings userId (failIntent created hold) l := by
  refine follows_attempt ?_
  cases hfailed : created.transitionTo .error with
  | error raised => exact keeps_releaseHold hold
  | ok failed =>
    obtain ⟨-, hdone⟩ := rejectIf_bind_eq_ok.mp hfailed
    obtain rfl := pure_eq_ok.mp hdone
    exact ⟨⟨hcreated, rfl⟩, fun _ _ ↦ keeps_releaseHold hold⟩

theorem conforms_persistSnapshot (price : SellingPrice) (hold : Wallets.Hold) (created : CloudServer)
    (hcreated : l.created = some created.id) :
    Conforms settings userId (persistSnapshot command price hold created) l := by
  refine follows_bind (follows_tryCatch ⟨trivial, fun reply _ ↦ ?_⟩)
  cases reply with
  | error raised =>
    refine follows_bind ((conforms_failIntent created hold hcreated).mono fun outcome learned _ ↦ ?_)
    cases outcome with
    | error raised => trivial
    | ok _ => trivial
  | ok snapshot => exact ⟨trivial, fun reply _ ↦ by cases reply <;> trivial⟩

theorem conforms_resolveDuplicate (walletId : Uuid) (hold : Wallets.Hold) (raised : Raised) :
    Conforms settings userId (resolveDuplicate command userId walletId hold raised) l := by
  refine follows_perform trivial (fun found _ ↦ ?_) fun _ _ ↦ trivial
  split
  · refine follows_perform trivial (fun hold _ ↦ ?_) fun _ _ ↦ trivial
    exact follows_perform trivial (fun snapshot _ ↦ trivial) fun _ _ ↦ trivial
  · exact conforms_bind (keeps_releaseHold hold) fun _ ↦ trivial

theorem conforms_persistIntent (walletId : Uuid) (offer : CatalogOffer) (price : SellingPrice)
    (account : Option String) (hold : Wallets.Hold) (hactive : l.active = true)
    (htotal : l.total = true) :
    Conforms settings userId (persistIntent command userId walletId offer price account hold) l := by
  refine follows_lift (fun _ _ ↦ ?_) fun _ _ ↦ trivial
  refine follows_attempt ⟨⟨hactive, htotal, rfl⟩, fun reply _ ↦ ?_⟩
  cases reply with
  | ok created => exact conforms_persistSnapshot price hold created rfl
  | error raised =>
    show Conforms settings userId (if raised.kind = .serverCreate then _ else _) l
    split
    · exact conforms_resolveDuplicate walletId hold raised
    · trivial

theorem conforms_replay (existing : CloudServer) :
    Conforms settings userId (replay command userId existing) l := by
  refine follows_lift (fun _ _ ↦ ?_) fun _ _ ↦ trivial
  refine follows_perform trivial (fun wallet _ ↦ ?_) fun _ _ ↦ trivial
  split
  · exact follows_perform trivial (fun snapshot _ ↦ trivial) fun _ _ ↦ trivial
  · refine follows_perform trivial (fun hold _ ↦ ?_) fun _ _ ↦ trivial
    exact follows_perform trivial (fun snapshot _ ↦ trivial) fun _ _ ↦ trivial

theorem conforms_createNew : Conforms settings userId (createNew settings command userId) l := by
  refine conforms_bind keeps_requireOffer fun offer ↦ ?_
  refine conforms_bind keeps_checkMaintenance fun _ ↦ ?_
  refine conforms_bind keeps_requireAccount fun providerAccount ↦ ?_
  refine conforms_bind (keeps_checkCostLimit providerAccount) fun _ ↦ ?_
  refine follows_lift (fun cost _ ↦ ?_) fun _ _ ↦ trivial
  refine follows_perform trivial (fun price _ ↦ ?_) fun _ _ ↦ trivial
  refine follows_bind (follows_checkQuota.mono fun outcome learned hroom ↦ ?_)
  cases outcome with
  | error raised => trivial
  | ok _ =>
    obtain ⟨hactive, htotal⟩ := hroom rfl
    refine conforms_bind keeps_fulfillmentAccount fun account ↦ ?_
    refine conforms_bind (keeps_reservePrice offer price) fun reserved ↦ ?_
    exact conforms_persistIntent reserved.1 offer price account reserved.2 hactive htotal

/-- A command of the user. -/
theorem conforms_thread (huser : command.user.id = some userId) :
    Conforms settings userId (command.thread settings) l := by
  have hcommand : Conforms settings userId (createServer settings command) l := by
    refine follows_lift (fun checked hchecked ↦ ?_) fun _ _ ↦ trivial
    obtain rfl : checked = userId := by
      simp only [checkUser, huser] at hchecked
      obtain ⟨-, hrest⟩ := rejectIf_bind_eq_ok.mp hchecked
      obtain ⟨-, hdone⟩ := rejectIf_bind_eq_ok.mp hrest
      exact (pure_eq_ok.mp hdone).symm
    refine conforms_bind keeps_requireTerms fun _ ↦ ?_
    refine follows_perform trivial (fun existing _ ↦ ?_) fun _ _ ↦ trivial
    split
    · exact conforms_replay _
    · exact conforms_createNew
  refine follows_bind (hcommand.mono fun outcome learned _ ↦ ?_)
  cases outcome with
  | error raised => trivial
  | ok _ => trivial

end Programs

/-- However the create commands of a user are interleaved and abandoned, whatever their keys and
whatever their calls meet: from fewer servers than the quota has, in every run in which no insert
comes behind more others than the counts of its command left spare, the user's servers are within the
quota in every state. -/
theorem bounded_of_spareRoom (settings : CreateServerSettings) (userId : Uuid)
    (events : List (PoolEvent CreateServerCommand CreateChance)) (start : CreateRows)
    (hactive : start.countActive userId < settings.quota.maxActive)
    (htotal : start.countTotal userId < settings.quota.maxTotal)
    (hspare : Along (QuotaWatch.step settings) (Pool.Allowed
      (fun command ↦ command.user.id = some userId) (SpareRoom settings.quota))
      ⟨{ rows := start }, []⟩ events) :
    Throughout (QuotaWatch.step settings) (fun pool ↦ pool.shared.Bounded settings.quota userId)
      ⟨{ rows := start }, []⟩ events := by
  have hstart : QuotaKept settings.quota userId { rows := start } := {
    bounded := ⟨hactive.le, htotal.le⟩
    active := fun _ _ hcount ↦ by cases hcount
    total := fun _ _ hcount ↦ by cases hcount }
  refine (Pool.throughout_of_follows (quotaProtocol_sound settings.quota userId) (fun _ ↦ {})
    (fun command huser ↦ conforms_thread huser) (fun me command s _ ↦ ?_) events _ hstart
    hspare).mono fun pool h ↦ h.bounded
  exact { active := fun h ↦ (by cases h), total := fun h ↦ (by cases h), created := fun _ h ↦ (by cases h) }

namespace QuotaRuns

open Orders.PurchaseRuns (walletId userId serverId offerId rowId)

theorem provider_ne : strip "hetzner" ≠ "" := by decide

theorem plan_ne : strip "cx22" ≠ "" := by decide

theorem location_ne : strip "fsn1" ≠ "" := by decide

def offerRef : OfferRef where
  providerKey := "hetzner"
  planId := "cx22"
  locationId := "fsn1"
  providerKey_ne := provider_ne
  planId_ne := plan_ne
  locationId_ne := location_ne

/-- A command under its own key, for a server with its own id. -/
def command (key : String) (id : Uuid) : CreateServerCommand where
  user := { id := some userId }
  offerRef := offerRef
  idempotencyKey := key
  serverId := id

/-- A wallet of 5000, and no server. -/
def empty : CreateRows where
  books := { wallet := ⟨walletId, userId, 5000, "EUR"⟩ }

/-- Room for one server. -/
def single : CreateServerSettings where
  quota := { maxActive := 1 }

/-- The offer costs 120; new rows get the id. -/
def chance (id : Uuid) : CreateChance where
  now := 0
  newId := id
  offer := some ⟨offerId, "EUR", 100, true⟩
  account := some offerId
  price :=
    { offer := { costMinor := 100, currency := "EUR" }
      sellingMinor := 120
      rule := { provider := "*", plan := "*", location := "*" }
      sellingCurrency := "EUR" }

/-- So many calls of a command. -/
def calls (thread count : ℕ) (id : Uuid) : List (PoolEvent CreateServerCommand CreateChance) :=
  List.replicate count (.advance thread (chance id))

/-- Two commands of the user. -/
def spawned : List (PoolEvent CreateServerCommand CreateChance) :=
  [.spawn (command "first" serverId), .spawn (command "second" rowId)]

/-- The second command runs when the first is done: eleven calls. -/
def queued : List (PoolEvent CreateServerCommand CreateChance) :=
  spawned ++ calls 0 11 serverId ++ calls 1 11 rowId

/-- Both commands have counted, and taken their holds, before either inserts. -/
def raced : List (PoolEvent CreateServerCommand CreateChance) :=
  spawned ++ calls 0 8 serverId ++ calls 1 8 rowId ++ calls 0 1 serverId ++ calls 1 1 rowId

end QuotaRuns

/-- The keys of the commands that a run starts. -/
def spawnedKeys (events : List (PoolEvent CreateServerCommand CreateChance)) : List String :=
  events.filterMap fun event ↦ match event with
    | .spawn command => some command.idempotencyKey
    | .advance .. => none

theorem bounded_of_spareRoom_queued :
    (run (QuotaWatch.step QuotaRuns.single) ⟨{ rows := QuotaRuns.empty }, []⟩
      QuotaRuns.queued).shared.inserts = 1 ∧
    Throughout (QuotaWatch.step QuotaRuns.single) (fun pool ↦ pool.shared.Bounded
      QuotaRuns.single.quota Orders.PurchaseRuns.userId) ⟨{ rows := QuotaRuns.empty }, []⟩
      QuotaRuns.queued :=
  ⟨by decide +kernel, bounded_of_spareRoom QuotaRuns.single Orders.PurchaseRuns.userId
    QuotaRuns.queued QuotaRuns.empty (by decide) (by decide) (by decide +kernel)⟩

/-- Two commands under two keys count no server, and then both insert one. -/
theorem not_bounded_of_raced :
    ¬ ∀ (settings : CreateServerSettings) (userId : Uuid)
      (events : List (PoolEvent CreateServerCommand CreateChance)) (start : CreateRows),
      start.countActive userId < settings.quota.maxActive →
      start.countTotal userId < settings.quota.maxTotal → (spawnedKeys events).Nodup →
      Along (QuotaWatch.step settings) (Pool.Allowed
        (fun command ↦ command.user.id = some userId) fun _ _ _ ↦ True)
        ⟨{ rows := start }, []⟩ events →
      Throughout (QuotaWatch.step settings) (fun pool ↦ pool.shared.Bounded settings.quota userId)
        ⟨{ rows := start }, []⟩ events := by
  intro h
  have hrun := h QuotaRuns.single Orders.PurchaseRuns.userId QuotaRuns.raced QuotaRuns.empty
    (by decide) (by decide) (by decide) (by decide +kernel)
  rw [throughout_iff_forall_take] at hrun
  obtain ⟨hlast, -⟩ := hrun QuotaRuns.raced.length
  rw [List.take_length] at hlast
  exact absurd hlast (by decide +kernel)

end CloudPlatform.Compute
