import CloudPlatform.Tokens.TokenService
import CloudPlatform.Transition.Run

/-!
# Revocation is final

Whatever the requests of a system interleave to, a token keeps its owner, scopes and hash, its last
use moves forward, and its revocation stays. A request whose save meets a revoked row is refused, a
bearer is answered with the token whose plaintext it presented, and only the owner revokes.
-/

namespace CloudPlatform.Tokens

open Rows
open Transition

/-! ### What a save does to a row -/

/-- The later row is the same credential, its revocation stays and its use moves forward. -/
structure ApiToken.Advances (row after : ApiToken) : Prop where
  userId : after.userId = row.userId
  scopes : after.scopes = row.scopes
  tokenHash : after.tokenHash = row.tokenHash
  revokedAt : ∀ moment, row.revokedAt = some moment → after.revokedAt = some moment
  lastUsedAt : ∀ used, row.lastUsedAt = some used → ∃ later, after.lastUsedAt = some later ∧
    used ≤ later

namespace ApiToken

theorem Advances.refl (row : ApiToken) : row.Advances row :=
  ⟨rfl, rfl, rfl, fun _ h ↦ h, fun used h ↦ ⟨used, h, le_rfl⟩⟩

theorem Advances.trans {first second third : ApiToken} (hfirst : first.Advances second)
    (hsecond : second.Advances third) : first.Advances third where
  userId := hsecond.userId.trans hfirst.userId
  scopes := hsecond.scopes.trans hfirst.scopes
  tokenHash := hsecond.tokenHash.trans hfirst.tokenHash
  revokedAt moment h := hsecond.revokedAt moment (hfirst.revokedAt moment h)
  lastUsedAt used h := by
    obtain ⟨middle, hmiddle, hle⟩ := hfirst.lastUsedAt used h
    obtain ⟨later, hlater, hle'⟩ := hsecond.lastUsedAt middle hmiddle
    exact ⟨later, hlater, hle.trans hle'⟩

theorem laterUse_ge {stored snapshot : Option ℤ} {used : ℤ} (h : stored = some used) :
    ∃ later, laterUse stored snapshot = some later ∧ used ≤ later := by
  subst h
  cases snapshot with
  | none => exact ⟨used, rfl, le_rfl⟩
  | some other =>
    by_cases hlt : used < other
    · exact ⟨other, if_pos hlt, hlt.le⟩
    · exact ⟨used, if_neg hlt, le_rfl⟩

theorem advances_absorb (row snapshot : ApiToken) : row.Advances (row.absorb snapshot) := by
  unfold absorb
  by_cases hrevoked : row.revokedAt = none
  · rw [if_pos hrevoked]
    refine ⟨rfl, rfl, rfl, fun moment h ↦ ?_, fun used h ↦ laterUse_ge h⟩
    exact nomatch hrevoked.symm.trans h
  · rw [if_neg hrevoked]
    exact Advances.refl row

theorem id_absorb (row snapshot : ApiToken) : (row.absorb snapshot).id = row.id := by
  unfold absorb
  by_cases hrevoked : row.revokedAt = none
  · rw [if_pos hrevoked]
  · rw [if_neg hrevoked]

/-- A save revokes only with a revoked snapshot. -/
theorem revokedAt_absorb {row snapshot : ApiToken} (h : snapshot.revokedAt = none) :
    (row.absorb snapshot).revokedAt = row.revokedAt := by
  unfold absorb
  by_cases hrevoked : row.revokedAt = none
  · rw [if_pos hrevoked, hrevoked]
    exact h
  · rw [if_neg hrevoked]

end ApiToken

/-- Every row is still there, and has advanced. -/
def Kept (before after : TokenRows) : Prop :=
  ∀ id row, before.get id = some row → ∃ later, after.get id = some later ∧ row.Advances later

theorem Kept.refl (rows : TokenRows) : Kept rows rows :=
  fun _ row h ↦ ⟨row, h, ApiToken.Advances.refl row⟩

theorem Kept.trans {first second third : TokenRows} (hfirst : Kept first second)
    (hsecond : Kept second third) : Kept first third := by
  intro id row h
  obtain ⟨middle, hmiddle, hadvances⟩ := hfirst id row h
  obtain ⟨later, hlater, hadvances'⟩ := hsecond id middle hmiddle
  exact ⟨later, hlater, hadvances.trans hadvances'⟩

section

variable {rows after : TokenRows} {snapshot saved : ApiToken}

theorem save_eq_ok (h : save rows snapshot = .ok (after, saved)) :
    ∃ row, rows.get snapshot.id = some row ∧
      after = rows.put (row.absorb snapshot) ∧ saved = row.absorb snapshot := by
  unfold save at h
  cases hrow : rows.get snapshot.id with
  | none =>
    rw [hrow] at h
    exact absurd h raise_ne_ok
  | some row =>
    rw [hrow] at h
    obtain ⟨rfl, rfl⟩ := Prod.mk.inj (Except.ok.inj h)
    exact ⟨row, rfl, rfl, rfl⟩

theorem kept_save (h : save rows snapshot = .ok (after, saved)) : Kept rows after := by
  obtain ⟨row, hrow, rfl, -⟩ := save_eq_ok h
  have hkey := Table.key_of_get hrow
  intro id before hbefore
  rw [Table.get_put, ApiToken.id_absorb]
  by_cases hid : row.id = id
  · rw [if_pos hid]
    have hsame : before = row := by
      rw [← hid, hkey, hrow] at hbefore
      exact (Option.some.inj hbefore).symm
    exact ⟨_, rfl, hsame ▸ row.advances_absorb snapshot⟩
  · rw [if_neg hid]
    exact ⟨before, hbefore, ApiToken.Advances.refl before⟩

/-- A save adds no row. -/
theorem exists_of_save (h : save rows snapshot = .ok (after, saved)) {id : Uuid} {later : ApiToken}
    (hlater : after.get id = some later) : ∃ row, rows.get id = some row ∧ row.Advances later := by
  obtain ⟨row, hrow, rfl, -⟩ := save_eq_ok h
  have hkey := Table.key_of_get hrow
  rw [Table.get_put, ApiToken.id_absorb] at hlater
  by_cases hid : row.id = id
  · rw [if_pos hid] at hlater
    obtain rfl := Option.some.inj hlater
    exact ⟨row, hid ▸ hkey.symm ▸ hrow, row.advances_absorb snapshot⟩
  · rw [if_neg hid] at hlater
    exact ⟨later, hlater, ApiToken.Advances.refl later⟩

theorem getByHash_eq_some {rows : TokenRows} {tokenHash : String} {record : ApiToken}
    (h : getByHash rows tokenHash = some record) :
    record ∈ rows.rows ∧ record.tokenHash = tokenHash := by
  unfold getByHash at h
  refine ⟨List.mem_of_find?_eq_some h, ?_⟩
  have hfound := List.find?_some h
  exact of_decide_eq_true hfound

theorem add_eq_ok {token : ApiToken} (h : add rows token = .ok after) :
    rows.get token.id = none ∧ (∀ row ∈ rows.rows, row.tokenHash ≠ token.tokenHash) ∧
      after = rows.put token := by
  unfold add at h
  by_cases htaken : ((rows.get token.id).isSome || rows.rows.any (fun row ↦
      row.tokenHash = token.tokenHash ||
        (row.userId = token.userId && row.name = token.name))) = true
  · rw [if_pos htaken] at h
    exact absurd h raise_ne_ok
  · rw [if_neg htaken] at h
    obtain ⟨hid, hrows⟩ := Bool.or_eq_false_iff.mp (Bool.eq_false_of_not_eq_true htaken)
    refine ⟨Option.isSome_eq_false_iff.mp hid |> Option.isNone_iff_eq_none.mp,
      fun row hrow hhash ↦ ?_, (Except.ok.inj h).symm⟩
    have hfree := List.any_eq_false.mp hrows row hrow
    simp [hhash] at hfree

theorem kept_put {rows : TokenRows} {token : ApiToken} (hid : rows.get token.id = none) :
    Kept rows (rows.put token) := by
  intro id row hrow
  rw [Table.get_put]
  by_cases hkey : token.id = id
  · rw [← hkey, hid] at hrow
    exact nomatch hrow
  · rw [if_neg hkey]
    exact ⟨row, hrow, ApiToken.Advances.refl row⟩

/-! ### The requests -/

end

section Requests

variable {settings : TokenSettings} {world : TokenWorld}

/-- A bearer's answer names the token whose plaintext it presented, and no other token has it. -/
structure Answers (world : TokenWorld) (raw : String) (answer : TokenAuthentication) : Prop where
  shown : (answer.tokenId, raw) ∈ world.shown
  only : ∀ id, (id, raw) ∈ world.shown → id = answer.tokenId
  row : ∃ row, world.rows.get answer.tokenId = some row ∧ answer.userId = row.userId ∧
    answer.scopes = row.scopes

/-- What a request has read, and is still so. -/
def Known (settings : TokenSettings) (rows : TokenRows) (call : TokenCall) : Prop :=
  match call.phase with
  | .stamping record => ∃ raw, call.request = .authenticate raw ∧ record.revokedAt = none ∧
    record.tokenHash = settings.hashToken raw ∧
      ∃ row, rows.get record.id = some row ∧ row.tokenHash = record.tokenHash
  | .revoking token => call.request = .revoke token.userId token.id ∧
    ∃ row, rows.get token.id = some row ∧ row.userId = token.userId
  | .finished (.ok (.authenticated answer)) => ∃ raw, call.request = .authenticate raw ∧
    ∃ row, rows.get answer.tokenId = some row ∧ row.tokenHash = settings.hashToken raw ∧
      answer.userId = row.userId ∧ answer.scopes = row.scopes
  | _ => True

theorem Known.kept {rows after : TokenRows} {call : TokenCall} (h : Known settings rows call)
    (hkept : Kept rows after) : Known settings after call := by
  unfold Known at h ⊢
  split
  · rename_i record hphase
    rw [hphase] at h
    obtain ⟨raw, hrequest, hrevoked, hhash, row, hrow, hsame⟩ := h
    obtain ⟨later, hlater, hadvances⟩ := hkept _ row hrow
    exact ⟨raw, hrequest, hrevoked, hhash, later, hlater, hadvances.tokenHash.trans hsame⟩
  · rename_i token hphase
    rw [hphase] at h
    obtain ⟨hrequest, row, hrow, hsame⟩ := h
    obtain ⟨later, hlater, hadvances⟩ := hkept _ row hrow
    exact ⟨hrequest, later, hlater, hadvances.userId.trans hsame⟩
  · rename_i answer hphase
    rw [hphase] at h
    obtain ⟨raw, hrequest, row, hrow, hhash, huser, hscopes⟩ := h
    obtain ⟨later, hlater, hadvances⟩ := hkept _ row hrow
    exact ⟨raw, hrequest, later, hlater, hadvances.tokenHash.trans hhash,
      huser.trans hadvances.userId.symm, hscopes.trans hadvances.scopes.symm⟩
  · trivial

/-- The rows have distinct hashes, those of the plaintexts that were shown, and what the requests
have read is still so. -/
structure Consistent (settings : TokenSettings) (world : TokenWorld) : Prop where
  distinct : ∀ id id' row row', world.rows.get id = some row → world.rows.get id' = some row' →
    row.tokenHash = row'.tokenHash → id = id'
  issued : ∀ id row, world.rows.get id = some row →
    ∃ raw, (id, raw) ∈ world.shown ∧ row.tokenHash = settings.hashToken raw
  shown : ∀ id raw, (id, raw) ∈ world.shown →
    ∃ row, world.rows.get id = some row ∧ row.tokenHash = settings.hashToken raw
  calls : ∀ call ∈ world.calls, Known settings world.rows call

/-- The first transaction of a request knows what it has read. -/
theorem known_start (rows : TokenRows) (request : TokenRequest) :
    Known settings rows ⟨request, start settings rows request⟩ := by
  cases request with
  | create actorUserId ownerUserId name scopes =>
    unfold start startCreate
    dsimp only
    by_cases hactor : actorUserId ≠ ownerUserId
    · rw [if_pos hactor]
      trivial
    · rw [if_neg hactor]
      by_cases hlimit : settings.maxTokensPerUser ≤ (listForUser rows ownerUserId).length
      · rw [if_pos hlimit]
        trivial
      · rw [if_neg hlimit]
        by_cases hname : (listForUser rows ownerUserId).any (·.name = strip name) = true
        · rw [if_pos hname]
          trivial
        · rw [if_neg hname]
          trivial
  | authenticate raw =>
    unfold start startAuthenticate
    dsimp only
    by_cases hform : "cpt_".toList.isPrefixOf raw.toList = false
    · rw [if_pos hform]
      trivial
    · rw [if_neg hform]
      cases hfound : getByHash rows (settings.hashToken raw) with
      | none => trivial
      | some record =>
        dsimp only
        by_cases hrevoked : record.revokedAt.isSome = true
        · rw [if_pos hrevoked]
          trivial
        · rw [if_neg hrevoked]
          obtain ⟨hmem, hhash⟩ := getByHash_eq_some hfound
          have hrow := Table.mem_iff_get.mp hmem
          exact ⟨raw, rfl, Option.not_isSome_iff_eq_none.mp hrevoked, hhash, record, hrow, rfl⟩
  | listTokens actorUserId ownerUserId =>
    unfold start listTokens
    dsimp only
    by_cases hactor : actorUserId ≠ ownerUserId
    · rw [if_pos hactor]
      trivial
    · rw [if_neg hactor]
      trivial
  | revoke actorUserId tokenId =>
    unfold start startRevoke
    dsimp only
    cases hrow : rows.get tokenId with
    | none => trivial
    | some token =>
      dsimp only
      by_cases howner : token.userId ≠ actorUserId
      · rw [if_pos howner]
        trivial
      · rw [if_neg howner]
        by_cases hrevoked : token.revokedAt.isSome = true
        · rw [if_pos hrevoked]
          trivial
        · rw [if_neg hrevoked]
          have hid : token.id = tokenId := Table.key_of_get hrow
          refine ⟨?_, token, hid.symm ▸ hrow, rfl⟩
          rw [hid, not_not.mp howner]

/-! ### One event -/

variable {rows : TokenRows} {calls : List TokenCall} {token : ApiToken}
  {outcome : Result TokenReply} {now : ℤ}

theorem Consistent.saved (h : Consistent settings world)
    (hold : ∀ id later, rows.get id = some later →
      ∃ row, world.rows.get id = some row ∧ row.Advances later) (hkept : Kept world.rows rows)
    (hcalls : ∀ call ∈ calls, Known settings rows call) :
    Consistent settings ⟨rows, calls, world.shown⟩ where
  distinct id id' later later' hlater hlater' hhash := by
    obtain ⟨row, hrow, hadvances⟩ := hold id later hlater
    obtain ⟨row', hrow', hadvances'⟩ := hold id' later' hlater'
    refine h.distinct id id' row row' hrow hrow' ?_
    rw [← hadvances.tokenHash, ← hadvances'.tokenHash, hhash]
  issued id later hlater := by
    obtain ⟨row, hrow, hadvances⟩ := hold id later hlater
    obtain ⟨raw, hshown, hhash⟩ := h.issued id row hrow
    exact ⟨raw, hshown, hadvances.tokenHash.trans hhash⟩
  shown id raw hshown := by
    obtain ⟨row, hrow, hhash⟩ := h.shown id raw hshown
    obtain ⟨later, hlater, hadvances⟩ := hkept id row hrow
    exact ⟨later, hlater, hadvances.tokenHash.trans hhash⟩
  calls := hcalls

theorem Consistent.added (h : Consistent settings world) {raw : String}
    (hfree : world.rows.get token.id = none)
    (hfresh : ∀ row ∈ world.rows.rows, row.tokenHash ≠ token.tokenHash)
    (hhash : token.tokenHash = settings.hashToken raw)
    (hcalls : ∀ call ∈ calls, Known settings (world.rows.put token) call) :
    Consistent settings ⟨world.rows.put token, calls, (token.id, raw) :: world.shown⟩ where
  distinct id id' row row' hrow hrow' hsame := by
    rw [Table.get_put] at hrow hrow'
    by_cases hid : token.id = id
    · rw [if_pos hid] at hrow
      obtain rfl := Option.some.inj hrow
      by_cases hid' : token.id = id'
      · exact hid.symm.trans hid'
      · rw [if_neg hid'] at hrow'
        exact absurd hsame.symm (hfresh row' (Table.mem_of_get hrow'))
    · rw [if_neg hid] at hrow
      by_cases hid' : token.id = id'
      · rw [if_pos hid'] at hrow'
        obtain rfl := Option.some.inj hrow'
        exact absurd hsame (hfresh row (Table.mem_of_get hrow))
      · rw [if_neg hid'] at hrow'
        exact h.distinct id id' row row' hrow hrow' hsame
  issued id row hrow := by
    rw [Table.get_put] at hrow
    by_cases hid : token.id = id
    · rw [if_pos hid] at hrow
      obtain rfl := Option.some.inj hrow
      exact ⟨raw, hid ▸ List.mem_cons_self, hhash⟩
    · rw [if_neg hid] at hrow
      obtain ⟨other, hshown, hother⟩ := h.issued id row hrow
      exact ⟨other, List.mem_cons_of_mem _ hshown, hother⟩
  shown id other hshown := by
    cases List.mem_cons.mp hshown with
    | inl hnew =>
      obtain ⟨rfl, rfl⟩ := Prod.mk.inj hnew
      exact ⟨token, Table.get_put_self _ _, hhash⟩
    | inr hold =>
      obtain ⟨row, hrow, hsame⟩ := h.shown id other hold
      obtain ⟨later, hlater, hadvances⟩ := kept_put hfree id row hrow
      exact ⟨later, hlater, hadvances.tokenHash.trans hsame⟩
  calls := hcalls

theorem known_of_mem_set {rows after : TokenRows} {index : ℕ} {call other : TokenCall}
    (hcalls : ∀ call ∈ calls, Known settings rows call) (hkept : Kept rows after)
    (hcall : Known settings after call) (hmem : other ∈ calls.set index call) :
    Known settings after other := by
  cases List.mem_or_eq_of_mem_set hmem with
  | inl hold => exact (hcalls other hold).kept hkept
  | inr hnew => exact hnew ▸ hcall

/-- A second transaction that adds no row and shows no plaintext. -/
structure Saves (rows : TokenRows) (done : TokenRows × Result TokenReply) : Prop where
  kept : Kept rows done.1
  old : ∀ id later, done.1.get id = some later →
    ∃ row, rows.get id = some row ∧ row.Advances later
  hidden : ∀ token raw, done.2 ≠ .ok (.created token raw)

theorem saves_unchanged (rows : TokenRows) (h : ∀ token raw, outcome ≠ .ok (.created token raw)) :
    Saves rows (rows, outcome) where
  kept := Kept.refl rows
  old _ later hlater := ⟨later, hlater, ApiToken.Advances.refl later⟩
  hidden := h

theorem saves_finishAuthenticate (rows : TokenRows) (record : ApiToken) (now : ℤ) :
    Saves rows (finishAuthenticate rows record now) := by
  unfold finishAuthenticate
  cases hsave : save rows { record with lastUsedAt := some now } with
  | error raised =>
    refine saves_unchanged rows fun token raw houtcome ↦ ?_
    by_cases hkind : raised.kind = .tokenNotFound
    · rw [if_pos hkind] at houtcome
      exact absurd houtcome raise_ne_ok
    · rw [if_neg hkind] at houtcome
      exact nomatch houtcome
  | ok done =>
    refine ⟨kept_save hsave, fun id later ↦ exists_of_save hsave, fun token raw houtcome ↦ ?_⟩
    dsimp only at houtcome
    by_cases hrevoked : done.2.revokedAt.isSome = true
    · rw [if_pos hrevoked] at houtcome
      exact absurd houtcome raise_ne_ok
    · rw [if_neg hrevoked] at houtcome
      exact nomatch houtcome

/-- The answer of a bearer names the owner and the scopes of a row that is not revoked. -/
theorem finishAuthenticate_answers {record : ApiToken} {answer : TokenAuthentication}
    (h : (finishAuthenticate rows record now).2 = .ok (.authenticated answer)) :
    answer.tokenId = record.id ∧ ∃ later,
      (finishAuthenticate rows record now).1.get record.id = some later ∧
        later.revokedAt = none ∧ answer.userId = later.userId ∧ answer.scopes = later.scopes := by
  unfold finishAuthenticate at h ⊢
  cases hsave : save rows { record with lastUsedAt := some now } with
  | error raised =>
    rw [hsave] at h
    dsimp only at h
    by_cases hkind : raised.kind = .tokenNotFound
    · rw [if_pos hkind] at h
      exact absurd h raise_ne_ok
    · rw [if_neg hkind] at h
      exact nomatch h
  | ok done =>
    rw [hsave] at h
    dsimp only at h ⊢
    by_cases hrevoked : done.2.revokedAt.isSome = true
    · rw [if_pos hrevoked] at h
      exact absurd h raise_ne_ok
    · rw [if_neg hrevoked] at h
      obtain rfl := TokenReply.authenticated.inj (Except.ok.inj h)
      obtain ⟨row, hrow, hafter, hsaved⟩ := save_eq_ok hsave
      have hid : (row.absorb { record with lastUsedAt := some now }).id = record.id :=
        (ApiToken.id_absorb _ _).trans (Table.key_of_get hrow)
      refine ⟨hsaved ▸ hid, done.2, ?_, Option.not_isSome_iff_eq_none.mp hrevoked, rfl, rfl⟩
      rw [hafter, hsaved, ← hid]
      exact Table.get_put_self _ _

theorem saves_finishRevoke (rows : TokenRows) (token : ApiToken) (now : ℤ) :
    Saves rows (finishRevoke rows token now) := by
  unfold finishRevoke
  cases hsave : save rows { token with revokedAt := some now } with
  | error raised => exact saves_unchanged rows nofun
  | ok done => exact ⟨kept_save hsave, fun id later ↦ exists_of_save hsave, nofun⟩

theorem finishRevoke_answers {answer : TokenAuthentication} :
    (finishRevoke rows token now).2 ≠ .ok (.authenticated answer) := by
  unfold finishRevoke
  cases save rows { token with revokedAt := some now } with
  | error raised => exact nofun
  | ok done => exact nofun

theorem shownBy_eq_nil (h : ∀ token raw, outcome ≠ .ok (.created token raw)) :
    TokenWorld.shownBy (some outcome) = [] := by
  unfold TokenWorld.shownBy
  split
  · rename_i token raw houtcome
    exact absurd (Option.some.inj houtcome) (h token raw)
  · rfl

theorem known_finished {request : TokenRequest}
    (h : ∀ answer, outcome = .ok (.authenticated answer) → ∃ raw, request = .authenticate raw ∧
      ∃ row, rows.get answer.tokenId = some row ∧ row.tokenHash = settings.hashToken raw ∧
        answer.userId = row.userId ∧ answer.scopes = row.scopes) :
    Known settings rows ⟨request, .finished outcome⟩ := by
  unfold Known
  split
  · rename_i hphase
    exact nomatch hphase
  · rename_i hphase
    exact nomatch hphase
  · rename_i answer hphase
    exact h answer (TokenPhase.finished.inj hphase)
  · trivial

theorem newToken_eq_ok {ownerUserId id : Uuid} {name secret : String} {scopes : Finset TokenScope}
    (h : newToken settings ownerUserId name scopes id secret now = .ok token) :
    token.id = id ∧ token.tokenHash = settings.hashToken ("cpt_" ++ secret) := by
  unfold newToken ApiToken.checked at h
  obtain ⟨-, hlength⟩ := rejectIf_bind_eq_ok.mp h
  obtain ⟨-, hdone⟩ := rejectIf_bind_eq_ok.mp hlength
  obtain rfl := pure_eq_ok.mp hdone
  exact ⟨rfl, rfl⟩

variable (settings) in
/-- The second transaction of `create` fails and changes nothing, or adds the token that it
shows. -/
theorem finishCreate_cases (rows : TokenRows) (ownerUserId : Uuid) (name : String)
    (scopes : Finset TokenScope) (id : Uuid) (secret : String) (now : ℤ) :
    (∃ raised, finishCreate settings rows ownerUserId name scopes id secret now =
      (rows, .error raised)) ∨
    ∃ token, finishCreate settings rows ownerUserId name scopes id secret now =
        (rows.put token, .ok (.created token ("cpt_" ++ secret))) ∧
      rows.get token.id = none ∧ (∀ row ∈ rows.rows, row.tokenHash ≠ token.tokenHash) ∧
        token.tokenHash = settings.hashToken ("cpt_" ++ secret) := by
  unfold finishCreate
  cases htoken : newToken settings ownerUserId name scopes id secret now with
  | error raised => exact Or.inl ⟨raised, rfl⟩
  | ok token =>
    dsimp only
    cases hadd : add rows token with
    | error raised => exact Or.inl ⟨raised, rfl⟩
    | ok after =>
      obtain ⟨hfree, hfresh, rfl⟩ := add_eq_ok hadd
      exact Or.inr ⟨token, rfl, hfree, hfresh, (newToken_eq_ok htoken).2⟩

/-- The world after a request has finished. -/
def finished (world : TokenWorld) (index : ℕ) (request : TokenRequest)
    (done : TokenRows × Result TokenReply) : TokenWorld where
  rows := done.1
  calls := world.calls.set index ⟨request, .finished done.2⟩
  shown := TokenWorld.shownBy (some done.2) ++ world.shown

variable (settings world) in
/-- What one event does: a request arrives, nothing happens, or a request makes its insert or one of
the two saves. -/
theorem step_cases (event : TokenEvent) : (∃ request, world.step settings event =
      { world with calls := world.calls ++ [⟨request, start settings world.rows request⟩] }) ∨
    world.step settings event = world ∨
    ∃ index now id secret call, event = .proceed index now id secret ∧
      world.calls[index]? = some call ∧
      ((∃ actorUserId ownerUserId name scopes, call.phase = .adding ∧
        call.request = .create actorUserId ownerUserId name scopes ∧
        world.step settings event = finished world index call.request
          (finishCreate settings world.rows ownerUserId name scopes id secret now)) ∨
      (∃ record, call.phase = .stamping record ∧ world.step settings event =
        finished world index call.request (finishAuthenticate world.rows record now)) ∨
      ∃ token, call.phase = .revoking token ∧ world.step settings event =
        finished world index call.request (finishRevoke world.rows token now)) := by
  cases event with
  | arrive request => exact Or.inl ⟨request, rfl⟩
  | proceed index now id secret =>
    refine Or.inr ?_
    unfold TokenWorld.step
    dsimp only
    cases hindex : world.calls[index]? with
    | none => exact Or.inl rfl
    | some call =>
      obtain ⟨request, phase⟩ := call
      cases phase with
      | finished outcome => cases request <;> exact Or.inl rfl
      | stamping record =>
        exact Or.inr ⟨index, now, id, secret, _, rfl, hindex, Or.inr (Or.inl ⟨record, rfl, by
          cases request <;> rfl⟩)⟩
      | revoking token =>
        exact Or.inr ⟨index, now, id, secret, _, rfl, hindex, Or.inr (Or.inr ⟨token, rfl, by
          cases request <;> rfl⟩)⟩
      | adding =>
        cases request with
        | create actorUserId ownerUserId name scopes =>
          exact Or.inr ⟨index, now, id, secret, _, rfl, hindex,
            Or.inl ⟨actorUserId, ownerUserId, name, scopes, rfl, rfl, rfl⟩⟩
        | authenticate raw => exact Or.inl rfl
        | listTokens actorUserId ownerUserId => exact Or.inl rfl
        | revoke actorUserId tokenId => exact Or.inl rfl

/-- A request that saves leaves the world consistent. -/
theorem Consistent.saves (h : Consistent settings world) {index : ℕ} {request : TokenRequest}
    {done : TokenRows × Result TokenReply} (hsaves : Saves world.rows done)
    (hknown : Known settings done.1 ⟨request, .finished done.2⟩) :
    Consistent settings (finished world index request done) := by
  unfold finished
  rw [shownBy_eq_nil hsaves.hidden, List.nil_append]
  exact h.saved hsaves.old hsaves.kept fun call hmem ↦
    known_of_mem_set h.calls hsaves.kept hknown hmem

/-- One event keeps the world consistent and the rows advancing. -/
theorem consistent_step (h : Consistent settings world) (event : TokenEvent) :
    Consistent settings (world.step settings event) ∧
      Kept world.rows (world.step settings event).rows := by
  obtain ⟨request, hstep⟩ | hstep | ⟨index, now, id, secret, call, -, hindex, hsecond⟩ :=
    step_cases settings world event
  · rw [hstep]
    refine ⟨⟨h.distinct, h.issued, h.shown, fun call hcall ↦ ?_⟩, Kept.refl _⟩
    cases List.mem_append.mp hcall with
    | inl hold => exact h.calls call hold
    | inr hnew =>
      rw [List.mem_singleton.mp hnew]
      exact known_start world.rows request
  · rw [hstep]
    exact ⟨h, Kept.refl _⟩
  · have hknown := h.calls call (List.mem_of_getElem? hindex)
    obtain ⟨actorUserId, ownerUserId, name, scopes, -, -, hstep⟩ | ⟨record, hphase, hstep⟩ |
      ⟨token, hphase, hstep⟩ := hsecond
    · rw [hstep]
      cases finishCreate_cases settings world.rows ownerUserId name scopes id secret now with
      | inl hfailed =>
        obtain ⟨raised, hdone⟩ := hfailed
        rw [hdone]
        have hsaves : Saves world.rows (world.rows, .error raised) :=
          saves_unchanged world.rows nofun
        exact ⟨h.saves hsaves (known_finished fun answer hanswer ↦ by cases hanswer),
          hsaves.kept⟩
      | inr hadded =>
        obtain ⟨token, hdone, hfree, hfresh, hhash⟩ := hadded
        rw [hdone]
        have hkept := kept_put hfree
        have hcall : Known settings (world.rows.put token)
            ⟨call.request, .finished (.ok (.created token ("cpt_" ++ secret)))⟩ :=
          known_finished fun answer hanswer ↦ by cases hanswer
        exact ⟨h.added hfree hfresh hhash fun other hmem ↦
          known_of_mem_set h.calls hkept hcall hmem, hkept⟩
    · rw [hstep]
      have hsaves := saves_finishAuthenticate world.rows record now
      refine ⟨h.saves hsaves (known_finished fun answer hanswer ↦ ?_), hsaves.kept⟩
      unfold Known at hknown
      rw [hphase] at hknown
      obtain ⟨raw, hrequest, -, hhash, row, hrow, hsame⟩ := hknown
      obtain ⟨hid, later, hlater, -, huser, hscopes⟩ := finishAuthenticate_answers hanswer
      obtain ⟨kept, hget, hadvances⟩ := hsaves.kept _ row hrow
      obtain rfl := Option.some.inj (hget.symm.trans hlater)
      refine ⟨raw, hrequest, kept, hid ▸ hget, ?_, huser, hscopes⟩
      rw [hadvances.tokenHash, hsame, hhash]
    · rw [hstep]
      have hsaves := saves_finishRevoke world.rows token now
      exact ⟨h.saves hsaves (known_finished fun answer hanswer ↦
        absurd hanswer finishRevoke_answers), hsaves.kept⟩

/-- The answers of the finished requests. -/
theorem Consistent.answers (h : Consistent settings world)
    (hinjective : Function.Injective settings.hashToken) {call : TokenCall}
    (hcall : call ∈ world.calls) {answer : TokenAuthentication}
    (hphase : call.phase = .finished (.ok (.authenticated answer))) :
    ∃ raw, call.request = .authenticate raw ∧ Answers world raw answer := by
  have hknown := h.calls call hcall
  unfold Known at hknown
  rw [hphase] at hknown
  obtain ⟨raw, hrequest, row, hrow, hhash, huser, hscopes⟩ := hknown
  obtain ⟨other, hother, hsame⟩ := h.issued _ row hrow
  have hraw : other = raw := hinjective (hsame.symm.trans hhash)
  refine ⟨raw, hrequest, hraw ▸ hother, fun id hid ↦ ?_, row, hrow, huser, hscopes⟩
  obtain ⟨row', hrow', hhash'⟩ := h.shown id raw hid
  exact h.distinct id _ row' row hrow' hrow (hhash'.trans hhash.symm)

/-- A save meets a revoked row: the bearer is refused. Only the owner's request revokes. -/
structure Respects (settings : TokenSettings) (world : TokenWorld) (event : TokenEvent) : Prop where
  refuses : ∀ index now id secret call record row, event = .proceed index now id secret →
    world.calls[index]? = some call → call.phase = .stamping record →
    world.rows.get record.id = some row → row.revokedAt.isSome = true →
    ∀ answer, ((world.step settings event).calls[index]?).map (·.phase) ≠
      some (.finished (.ok (.authenticated answer)))
  revokes : ∀ id row later, world.rows.get id = some row → row.revokedAt = none →
    (world.step settings event).rows.get id = some later → later.revokedAt ≠ none →
    ∃ index now drawn secret call, event = .proceed index now drawn secret ∧
      world.calls[index]? = some call ∧ call.request = .revoke row.userId id

theorem refuses_step (settings : TokenSettings) {index : ℕ} {now : ℤ} {id : Uuid} {secret : String}
    {call : TokenCall} {record row : ApiToken} (hcall : world.calls[index]? = some call)
    (hphase : call.phase = .stamping record) (hrow : world.rows.get record.id = some row)
    (hrevoked : row.revokedAt.isSome = true) (answer : TokenAuthentication) :
    ((world.step settings (.proceed index now id secret)).calls[index]?).map (·.phase) ≠
      some (.finished (.ok (.authenticated answer))) := by
  intro hanswered
  have hstep : world.step settings (.proceed index now id secret) =
      finished world index call.request (finishAuthenticate world.rows record now) := by
    obtain ⟨request, phase⟩ := call
    dsimp only at hphase
    subst hphase
    unfold TokenWorld.step
    dsimp only
    rw [hcall]
    cases request <;> rfl
  obtain ⟨hindex, -⟩ := List.getElem?_eq_some_iff.mp hcall
  have hset : (finished world index call.request
      (finishAuthenticate world.rows record now)).calls[index]? =
        some ⟨call.request, .finished (finishAuthenticate world.rows record now).2⟩ :=
    List.getElem?_set_self hindex
  rw [hstep, hset, Option.map_some] at hanswered
  have houtcome := TokenPhase.finished.inj (Option.some.inj hanswered)
  obtain ⟨-, later, hlater, hlive, -⟩ := finishAuthenticate_answers houtcome
  obtain ⟨kept, hget, hadvances⟩ := (saves_finishAuthenticate world.rows record now).kept _ row hrow
  obtain rfl := Option.some.inj (hget.symm.trans hlater)
  obtain ⟨moment, hmoment⟩ := Option.isSome_iff_exists.mp hrevoked
  exact nomatch hlive.symm.trans (hadvances.revokedAt moment hmoment)

/-- A save that leaves a row unrevoked in its snapshot revokes nothing. -/
theorem revokedAt_of_save {rows after : TokenRows} {snapshot saved : ApiToken}
    (h : save rows snapshot = .ok (after, saved)) {id : Uuid} {row later : ApiToken}
    (hrow : rows.get id = some row) (hlater : after.get id = some later)
    (hchanged : later.revokedAt ≠ row.revokedAt) :
    snapshot.id = id ∧ snapshot.revokedAt ≠ none := by
  obtain ⟨stored, hstored, rfl, -⟩ := save_eq_ok h
  have hkey : stored.id = snapshot.id := Table.key_of_get hstored
  rw [Table.get_put, ApiToken.id_absorb] at hlater
  by_cases hid : stored.id = id
  · rw [if_pos hid] at hlater
    obtain rfl := Option.some.inj hlater
    have hsame : stored = row := by
      rw [← hkey, hid, hrow] at hstored
      exact (Option.some.inj hstored).symm
    subst hsame
    exact ⟨hkey.symm.trans hid, fun hnone ↦ hchanged (ApiToken.revokedAt_absorb hnone)⟩
  · rw [if_neg hid, hrow] at hlater
    exact absurd (congrArg ApiToken.revokedAt (Option.some.inj hlater).symm) hchanged

theorem revokes_step (h : Consistent settings world) {event : TokenEvent} {id : Uuid}
    {row later : ApiToken} (hrow : world.rows.get id = some row) (hlive : row.revokedAt = none)
    (hlater : (world.step settings event).rows.get id = some later)
    (hrevoked : later.revokedAt ≠ none) :
    ∃ index now drawn secret call, event = .proceed index now drawn secret ∧
      world.calls[index]? = some call ∧ call.request = .revoke row.userId id := by
  have hchanged : later.revokedAt ≠ row.revokedAt := hlive ▸ hrevoked
  have hsame {rows : TokenRows} (hrows : rows = world.rows) (hget : rows.get id = some later) :
      False := by
    rw [hrows, hrow] at hget
    exact hchanged (congrArg ApiToken.revokedAt (Option.some.inj hget).symm)
  obtain ⟨request, hstep⟩ | hstep | ⟨index, now, drawn, secret, call, hevent, hindex, hsecond⟩ :=
    step_cases settings world event
  · rw [hstep] at hlater
    exact (hsame rfl hlater).elim
  · rw [hstep] at hlater
    exact (hsame rfl hlater).elim
  · refine ⟨index, now, drawn, secret, call, hevent, hindex, ?_⟩
    have hknown := h.calls call (List.mem_of_getElem? hindex)
    unfold Known at hknown
    obtain ⟨actorUserId, ownerUserId, name, scopes, -, -, hstep⟩ | ⟨record, hphase, hstep⟩ |
      ⟨token, hphase, hstep⟩ := hsecond
    · rw [hstep] at hlater
      cases finishCreate_cases settings world.rows ownerUserId name scopes drawn secret now with
      | inl hfailed =>
        obtain ⟨raised, hdone⟩ := hfailed
        rw [hdone] at hlater
        exact (hsame rfl hlater).elim
      | inr hadded =>
        obtain ⟨token, hdone, hfree, -, -⟩ := hadded
        rw [hdone] at hlater
        obtain ⟨kept, hget, -⟩ := kept_put hfree id row hrow
        have hother : token.id ≠ id := by
          rintro rfl
          exact nomatch hfree.symm.trans hrow
        change (world.rows.put token).get id = some later at hlater
        rw [Table.get_put_of_ne _ hother] at hlater
        exact (hsame rfl hlater).elim
    · rw [hphase] at hknown
      obtain ⟨raw, -, hsnapshot, -⟩ := hknown
      rw [hstep] at hlater
      change (finishAuthenticate world.rows record now).1.get id = some later at hlater
      unfold finishAuthenticate at hlater
      cases hsave : save world.rows { record with lastUsedAt := some now } with
      | error raised =>
        rw [hsave] at hlater
        exact (hsame rfl hlater).elim
      | ok done =>
        rw [hsave] at hlater
        exact absurd hsnapshot (revokedAt_of_save hsave hrow hlater hchanged).2
    · rw [hphase] at hknown
      obtain ⟨hrequest, stored, hstored, hsameUser⟩ := hknown
      rw [hstep] at hlater
      change (finishRevoke world.rows token now).1.get id = some later at hlater
      unfold finishRevoke at hlater
      cases hsave : save world.rows { token with revokedAt := some now } with
      | error raised =>
        rw [hsave] at hlater
        exact (hsame rfl hlater).elim
      | ok done =>
        rw [hsave] at hlater
        have hid : token.id = id := (revokedAt_of_save hsave hrow hlater hchanged).1
        rw [hid, hrow] at hstored
        obtain rfl := Option.some.inj hstored
        rw [hrequest, hid, hsameUser]

end Requests

namespace UsedWhileRevoked

def owner : Uuid :=
  ⟨"11111111-1111-4111-8111-111111111111", .refl true⟩

def tokenId : Uuid :=
  ⟨"22222222-2222-4222-8222-222222222222", .refl true⟩

/-- A hash that is injective. -/
def settings : TokenSettings where
  hashToken := id

/-- The bearer reads its row, the owner revokes it, and the bearer's save comes last. -/
def events : List TokenEvent :=
  [.arrive (.create owner owner "ci" {.serversRead}), .proceed 0 1000 tokenId "secret",
    .arrive (.authenticate "cpt_secret"), .arrive (.revoke owner tokenId),
    .proceed 2 3000 tokenId "", .proceed 1 2000 tokenId ""]

end UsedWhileRevoked

end CloudPlatform.Tokens
