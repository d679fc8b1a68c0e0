import CloudPlatform.Core.Calendar
import CloudPlatform.Core.Json
import CloudPlatform.Navigation.Callbacks
import CloudPlatform.Transition.Run
import Mathlib.Logic.Function.Basic

/-!
# The two session stores

`InMemoryBotSessionStore` and `RedisBotSessionStore` answer the same calls of the bot, over a
dictionary with deadlines and over a Redis that runs every command and script atomically. Both are
run on one sequence of calls and one clock. They hold the same keys until the same deadlines, and the
same texts but for the claims of the opaque namespaces: there the one keeps a document and the other
the bare marker. `sameReplies_iff` says that the answers differ only where such a marker is read.
-/

namespace CloudPlatform.Sessions

open Calendar (second)
open Navigation (splitFields)
open Transition

/-! ### Values -/

/-- A record of a store. -/
abbrev Record := List (String × Json)

/-- What the stores use of `json`, and `str` of a value. -/
structure JsonLibrary where
  dumps : Json → String
  loads : String → Option Json
  str : Json → String

def schemaVersion : String :=
  "v1"

/-- The namespaces whose values are stored verbatim. -/
def opaqueNamespaces : List String :=
  ["confirm", "replay"]

/-- `session_key`. -/
def sessionKey (keyPrefix space : String) (parts : List String) : String :=
  s!"{keyPrefix}:{space}:{schemaVersion}" ++ String.join (parts.map (":" ++ ·))

/-- `_storage_key` and `_key`. -/
def storageKey (keyPrefix space key : String) : String :=
  sessionKey keyPrefix space (splitFields ':' key)

section Values

variable (library : JsonLibrary)

/-- `encode_session_value`. -/
def encodeSessionValue (value : Record) : String :=
  library.dumps (.object [("schema", .text schemaVersion), ("value", .object value)])

/-- `decode_session_value`. -/
def decodeSessionValue (raw : Option String) : Option Record :=
  match raw.filter (· ≠ "") with
  | none => none
  | some raw =>
    match library.loads raw with
    | some (.object fields) =>
      match fields.lookup "schema", fields.lookup "value" with
      | some (.text schema), some (.object value) => if schema = schemaVersion then some value else none
      | _, _ => none
    | _ => none

/-- The literal that a claim of an opaque namespace stores. -/
def markerText (value : Record) : String :=
  match value.lookup "value" with
  | none => "1"
  | some marker => library.str marker

end Values

/-! ### Calls -/

inductive SessionCall
  | put (space key : String) (value : Record) (ttlSeconds : ℤ)
  | get (space key : String)
  | claim (space key : String) (value : Record) (ttlSeconds : ℤ)
  | take (space key : String)
  | delete (space key : String)
  | existsKey (space key : String)

inductive SessionReply
  | done
  | record (value : Option Record)
  | flag (value : Bool)

/-- A stored text, until its deadline. -/
structure Entry where
  raw : String
  deadline : ℤ

abbrev Entries := String → Option Entry

/-- The entries that are not expired. -/
def Entries.live (entries : Entries) (now : ℤ) : Entries :=
  fun key ↦ (entries key).filter (now < ·.deadline)

def Entries.set (entries : Entries) (key : String) (entry : Option Entry) : Entries :=
  Function.update entries key entry

section Stores

variable (library : JsonLibrary) (keyPrefix : String) (now : ℤ) (entries : Entries)

/-- The methods of `InMemoryBotSessionStore`; `_prune` leaves the live entries. -/
def inMemoryCall : SessionCall → Result SessionReply × Entries
  | .put space key value ttlSeconds =>
    if ttlSeconds ≤ 0 then (raise .valueError "ttl_seconds must be positive", entries)
    else (.ok .done, entries.set (storageKey keyPrefix space key)
      (some ⟨encodeSessionValue library value, now + ttlSeconds * second⟩))
  | .get space key =>
    let pruned := entries.live now
    let stored := pruned (storageKey keyPrefix space key)
    (.ok (.record (decodeSessionValue library (stored.map Entry.raw))), pruned)
  | .claim space key value ttlSeconds =>
    if ttlSeconds ≤ 0 then (raise .valueError "ttl_seconds must be positive", entries)
    else
      let pruned := entries.live now
      let storage := storageKey keyPrefix space key
      if (pruned storage).isSome then (.ok (.flag false), pruned)
      else (.ok (.flag true), pruned.set storage
        (some ⟨encodeSessionValue library value, now + ttlSeconds * second⟩))
  | .take space key =>
    let pruned := entries.live now
    let storage := storageKey keyPrefix space key
    (.ok (.record (decodeSessionValue library ((pruned storage).map Entry.raw))),
      pruned.set storage none)
  | .delete space key => (.ok .done, entries.set (storageKey keyPrefix space key) none)
  | .existsKey space key =>
    let pruned := entries.live now
    (.ok (.flag (pruned (storageKey keyPrefix space key)).isSome), pruned)

namespace Redis

/-- `SET key raw EX ttl`. -/
def set (key raw : String) (ttlSeconds : ℤ) : Entries :=
  entries.set key (some ⟨raw, now + ttlSeconds * second⟩)

/-- `GET key`. -/
def get (key : String) : Option String :=
  (entries.live now key).map Entry.raw

/-- `EXISTS key`. -/
def existsKey (key : String) : Bool :=
  (entries.live now key).isSome

/-- `DEL key`. -/
def del (key : String) : Entries :=
  entries.set key none

/-- The script `_CLAIM_SCRIPT`. -/
def claim (key raw : String) (ttlSeconds : ℤ) : ℤ × Entries :=
  if existsKey now entries key then (0, entries) else (1, set now entries key raw ttlSeconds)

/-- The script `_TAKE_SCRIPT`. -/
def take (key : String) : Option String × Entries :=
  match get now entries key with
  | none => (none, entries)
  | some value => (some value, del entries key)

end Redis

/-- The text that a claim of the Redis store writes. -/
def claimPayload (space : String) (value : Record) : String :=
  if space ∈ opaqueNamespaces then markerText library value else encodeSessionValue library value

/-- The methods of `RedisBotSessionStore`. -/
def redisCall : SessionCall → Result SessionReply × Entries
  | .put space key value ttlSeconds =>
    if ttlSeconds ≤ 0 then (raise .valueError "ttl_seconds must be positive", entries)
    else (.ok .done, Redis.set now entries (storageKey keyPrefix space key)
      (encodeSessionValue library value) ttlSeconds)
  | .get space key =>
    let raw := Redis.get now entries (storageKey keyPrefix space key)
    (.ok (.record (decodeSessionValue library raw)), entries)
  | .claim space key value ttlSeconds =>
    if ttlSeconds ≤ 0 then (raise .valueError "ttl_seconds must be positive", entries)
    else
      let (result, after) := Redis.claim now entries (storageKey keyPrefix space key)
        (claimPayload library space value) ttlSeconds
      (.ok (.flag (result = 1)), after)
  | .take space key =>
    let (raw, after) := Redis.take now entries (storageKey keyPrefix space key)
    (.ok (.record (decodeSessionValue library raw)), after)
  | .delete space key => (.ok .done, Redis.del entries (storageKey keyPrefix space key))
  | .existsKey space key =>
    (.ok (.flag (Redis.existsKey now entries (storageKey keyPrefix space key))), entries)

end Stores

/-! ### Side by side -/

/-- Both stores on one clock, with the markers that they hold for won claims of the opaque
namespaces, and the answers to the last call. -/
structure BothStores where
  now : ℤ
  memory : Entries := fun _ ↦ none
  redis : Entries := fun _ ↦ none
  markers : String → Option Record := fun _ ↦ none
  replies : Option (Result SessionReply × Result SessionReply) := none

/-- A call, some time after the one before. -/
structure SessionEvent where
  elapsed : ℕ
  call : SessionCall

section Machine

variable (library : JsonLibrary) (keyPrefix : String)

/-- The markers behind a call: a `put` replaces one, and a claim that wins writes one where its
namespace is opaque. -/
def BothStores.marked (stores : BothStores) (now : ℤ) : SessionCall → String → Option Record
  | .put space key _ ttlSeconds =>
    if ttlSeconds ≤ 0 then stores.markers
    else Function.update stores.markers (storageKey keyPrefix space key) none
  | .claim space key value ttlSeconds =>
    if ttlSeconds ≤ 0 ∨ (stores.memory.live now (storageKey keyPrefix space key)).isSome then
      stores.markers
    else Function.update stores.markers (storageKey keyPrefix space key)
      (if space ∈ opaqueNamespaces then some value else none)
  | _ => stores.markers

def BothStores.step (stores : BothStores) (event : SessionEvent) : BothStores :=
  let now := stores.now + event.elapsed
  let (memoryReply, memory) := inMemoryCall library keyPrefix now stores.memory event.call
  let (redisReply, redis) := redisCall library keyPrefix now stores.redis event.call
  { now := now, memory := memory, redis := redis
    markers := stores.marked keyPrefix now event.call
    replies := some (memoryReply, redisReply) }

/-- The last call was answered alike. -/
def SameReplies (stores : BothStores) : Prop :=
  ∀ memoryReply redisReply, stores.replies = some (memoryReply, redisReply) →
    memoryReply = redisReply

/-- The key is read where the marker of a claim lives only if the marker decodes as the document
of its value does. -/
def ReadsAlike (stores : BothStores) (now : ℤ) (storage : String) : Prop :=
  ∀ value, stores.markers storage = some value → (stores.memory.live now storage).isSome = true →
    decodeSessionValue library (some (encodeSessionValue library value)) =
      decodeSessionValue library (some (markerText library value))

def Meets (stores : BothStores) (event : SessionEvent) : Prop :=
  match event.call with
  | .get space key => ReadsAlike library stores (stores.now + event.elapsed)
      (storageKey keyPrefix space key)
  | .take space key => ReadsAlike library stores (stores.now + event.elapsed)
      (storageKey keyPrefix space key)
  | _ => True

/-- What the stores hold under one key. -/
def Paired (marker : Option Record) : Option Entry → Option Entry → Prop
  | none, none => True
  | some stored, some entry => stored.deadline = entry.deadline ∧ match marker with
    | none => stored.raw = entry.raw
    | some value => stored.raw = encodeSessionValue library value ∧
        entry.raw = markerText library value
  | _, _ => False

/-- The stores hold the same live keys until the same deadlines. -/
def Related (markers : String → Option Record) (now : ℤ) (memory redis : Entries) : Prop :=
  ∀ key, Paired library (markers key) (memory.live now key) (redis.live now key)

end Machine

/-! ### The simulation -/

section Simulation

variable {library : JsonLibrary} {keyPrefix : String} {now : ℤ} {memory redis : Entries}
  {markers : String → Option Record}

theorem live_live (entries : Entries) {later : ℤ} (h : now ≤ later) :
    (entries.live now).live later = entries.live later := by
  funext key
  unfold Entries.live
  cases entries key with
  | none => rfl
  | some entry =>
    by_cases hlive : now < entry.deadline
    · rw [Option.filter_some_pos (by simpa using hlive)]
    · rw [Option.filter_some_neg (by simpa using hlive), Option.filter_none,
        Option.filter_some_neg (by simpa using (not_lt.mp hlive).trans h)]

theorem live_set (entries : Entries) (key : String) (entry : Option Entry) :
    (entries.set key entry).live now =
      (entries.live now).set key (entry.filter (now < ·.deadline)) := by
  funext other
  by_cases hkey : other = key
  · rw [hkey, Entries.live, Entries.set, Entries.set, Function.update_self, Function.update_self]
  · rw [Entries.live, Entries.set, Entries.set, Function.update_of_ne hkey,
      Function.update_of_ne hkey, Entries.live]

/-- The stores lose the same entries as time passes. -/
theorem Paired.later {marker : Option Record} {stored entry : Option Entry}
    (h : Paired library marker stored entry) (later : ℤ) :
    Paired library marker (stored.filter (later < ·.deadline))
      (entry.filter (later < ·.deadline)) := by
  match stored, entry, h with
  | none, none, _ => trivial
  | some stored, some entry, h =>
    by_cases hlive : later < stored.deadline
    · rw [Option.filter_some_pos (by simpa using hlive),
        Option.filter_some_pos (by simpa using h.1 ▸ hlive)]
      exact h
    · rw [Option.filter_some_neg (by simpa using hlive),
        Option.filter_some_neg (by simpa [← h.1] using hlive)]
      trivial

theorem Related.later (h : Related library markers now memory redis) (elapsed : ℕ) :
    Related library markers (now + elapsed) memory redis := by
  intro key
  have hle : now ≤ now + elapsed := by omega
  rw [← live_live memory hle, ← live_live redis hle]
  exact (h key).later _

/-- Pruning changes nothing that lives. -/
theorem Related.pruned (h : Related library markers now memory redis) :
    Related library markers now (memory.live now) redis := by
  intro key
  rw [live_live memory le_rfl]
  exact h key

/-- A write to one key on both sides. -/
theorem Related.set (h : Related library markers now memory redis) (key : String)
    (marker : Option Record) {stored entry : Option Entry}
    (hpaired : Paired library marker stored entry) :
    Related library (Function.update markers key marker) now (memory.set key stored)
      (redis.set key entry) := by
  intro other
  rw [live_set, live_set]
  by_cases hkey : other = key
  · rw [hkey, Entries.set, Entries.set, Function.update_self, Function.update_self,
      Function.update_self]
    exact hpaired.later now
  · rw [Entries.set, Entries.set, Function.update_of_ne hkey, Function.update_of_ne hkey,
      Function.update_of_ne hkey]
    exact h other

/-- A key that is dropped on both sides keeps its marker, which nothing reads. -/
theorem Related.drop (h : Related library markers now memory redis) (key : String) :
    Related library markers now (memory.set key none) (redis.set key none) := by
  have hdropped := h.set key (markers key) (show Paired library _ none none from trivial)
  rwa [Function.update_eq_self] at hdropped

/-- The same keys live in both stores. -/
theorem Related.isSome_iff (h : Related library markers now memory redis) (key : String) :
    (memory.live now key).isSome = (redis.live now key).isSome := by
  have hkey := h key
  cases hmemory : memory.live now key with
  | none =>
    cases hredis : redis.live now key with
    | none => rfl
    | some entry =>
      rw [hmemory, hredis] at hkey
      exact hkey.elim
  | some stored =>
    cases hredis : redis.live now key with
    | none =>
      rw [hmemory, hredis] at hkey
      exact hkey.elim
    | some entry => rfl

/-- A key is read alike exactly if no marker lives there that decodes differently. -/
theorem Related.reads_iff (h : Related library markers now memory redis) (key : String) :
    decodeSessionValue library ((memory.live now key).map Entry.raw) =
        decodeSessionValue library ((redis.live now key).map Entry.raw) ↔
      ∀ value, markers key = some value → (memory.live now key).isSome = true →
        decodeSessionValue library (some (encodeSessionValue library value)) =
          decodeSessionValue library (some (markerText library value)) := by
  have hkey := h key
  cases hmemory : memory.live now key with
  | none =>
    have hnone : redis.live now key = none := by
      have hsome := h.isSome_iff key
      rw [hmemory] at hsome
      exact Option.not_isSome_iff_eq_none.mp (hsome ▸ Bool.false_ne_true)
    rw [hnone]
    exact iff_of_true rfl fun _ _ hlive ↦ absurd hlive Bool.false_ne_true
  | some stored =>
    cases hredis : redis.live now key with
    | none =>
      rw [hmemory, hredis] at hkey
      exact hkey.elim
    | some entry =>
      rw [hmemory, hredis] at hkey
      obtain ⟨-, htexts⟩ := hkey
      cases hmarker : markers key with
      | none =>
        rw [hmarker] at htexts
        rw [Option.map_some, Option.map_some, htexts]
        exact iff_of_true rfl nofun
      | some value =>
        rw [hmarker] at htexts
        obtain ⟨hstored, hentry⟩ := htexts
        rw [Option.map_some, Option.map_some, hstored, hentry]
        constructor
        · rintro hsame value' hvalue -
          obtain rfl := Option.some.inj hvalue
          exact hsame
        · exact fun hall ↦ hall value rfl rfl

theorem sameReplies_iff_of_replies {stores : BothStores} {memoryReply redisReply : Result SessionReply}
    (h : stores.replies = some (memoryReply, redisReply)) :
    SameReplies stores ↔ memoryReply = redisReply := by
  constructor
  · exact fun hsame ↦ hsame _ _ h
  · intro hsame first second hreplies
    rw [h] at hreplies
    obtain ⟨rfl, rfl⟩ := Prod.mk.inj (Option.some.inj hreplies)
    exact hsame

theorem record_eq_iff {first second : Option Record} :
    (.ok (.record first) : Result SessionReply) = .ok (.record second) ↔ first = second := by
  rw [Except.ok.injEq, SessionReply.record.injEq]

/-- `_TAKE_SCRIPT` answers as `GET` does, and no live entry is left under the key. -/
theorem take_spec (entries : Entries) (key : String) :
    (Redis.take now entries key).1 = Redis.get now entries key ∧
      (Redis.take now entries key).2.live now = (entries.set key none).live now := by
  unfold Redis.take
  cases hget : Redis.get now entries key with
  | none =>
    have hnone : entries.live now key = none := Option.map_eq_none_iff.mp hget
    refine ⟨rfl, ?_⟩
    rw [live_set, Option.filter_none, Entries.set, ← hnone, Function.update_eq_self]
  | some value => exact ⟨rfl, rfl⟩

/-- The stores stay related over a call, and answer it alike exactly if it meets the condition. -/
theorem step_related {stores : BothStores} (event : SessionEvent)
    (h : Related library stores.markers stores.now stores.memory stores.redis) :
    let after := stores.step library keyPrefix event
    Related library after.markers after.now after.memory after.redis ∧
      (SameReplies after ↔ Meets library keyPrefix stores event) := by
  obtain ⟨elapsed, call⟩ := event
  have hnow := h.later elapsed
  cases call with
  | put space key value ttlSeconds =>
    simp only [BothStores.step, BothStores.marked, inMemoryCall, redisCall]
    by_cases httl : ttlSeconds ≤ 0
    · simp only [if_pos httl]
      exact ⟨hnow, iff_of_true ((sameReplies_iff_of_replies rfl).mpr rfl) trivial⟩
    · simp only [if_neg httl]
      exact ⟨hnow.set _ none ⟨rfl, rfl⟩, iff_of_true ((sameReplies_iff_of_replies rfl).mpr rfl) trivial⟩
  | get space key =>
    refine ⟨hnow.pruned, (sameReplies_iff_of_replies rfl).trans (record_eq_iff.trans ?_)⟩
    exact hnow.reads_iff (storageKey keyPrefix space key)
  | claim space key value ttlSeconds =>
    simp only [BothStores.step, BothStores.marked, inMemoryCall, redisCall]
    by_cases httl : ttlSeconds ≤ 0
    · simp only [httl, true_or, if_true]
      exact ⟨hnow, iff_of_true ((sameReplies_iff_of_replies rfl).mpr rfl) trivial⟩
    · have hlive := hnow.isSome_iff (storageKey keyPrefix space key)
      simp only [httl, false_or, if_false, Redis.claim, Redis.existsKey, ← hlive]
      by_cases hthere : (stores.memory.live (stores.now + elapsed)
          (storageKey keyPrefix space key)).isSome = true
      · simp only [if_pos hthere]
        exact ⟨hnow.pruned, iff_of_true ((sameReplies_iff_of_replies rfl).mpr rfl) trivial⟩
      · simp only [if_neg hthere]
        refine ⟨hnow.pruned.set _ _ ⟨rfl, ?_⟩, iff_of_true ((sameReplies_iff_of_replies rfl).mpr rfl) trivial⟩
        unfold claimPayload
        by_cases hmarked : space ∈ opaqueNamespaces
        · rw [if_pos hmarked, if_pos hmarked]
          exact ⟨rfl, rfl⟩
        · rw [if_neg hmarked, if_neg hmarked]
  | take space key =>
    obtain ⟨hreply, hleft⟩ := @take_spec (stores.now + elapsed) stores.redis
      (storageKey keyPrefix space key)
    refine ⟨fun other ↦ ?_, (sameReplies_iff_of_replies rfl).trans (record_eq_iff.trans ?_)⟩
    · have hdropped := hnow.pruned.drop (storageKey keyPrefix space key) other
      rw [← hleft] at hdropped
      exact hdropped
    · change decodeSessionValue library _ = decodeSessionValue library
        (Redis.take (stores.now + elapsed) stores.redis (storageKey keyPrefix space key)).1 ↔ _
      rw [hreply]
      exact hnow.reads_iff (storageKey keyPrefix space key)
  | delete space key => exact ⟨hnow.drop _, iff_of_true ((sameReplies_iff_of_replies rfl).mpr rfl) trivial⟩
  | existsKey space key =>
    have hlive := hnow.isSome_iff (storageKey keyPrefix space key)
    refine ⟨hnow.pruned, iff_of_true ((sameReplies_iff_of_replies rfl).mpr ?_) trivial⟩
    rw [hlive]
    rfl

end Simulation

/-- The marker of a claim that wins in an opaque namespace. -/
theorem marked_claim {stores : BothStores} {keyPrefix space key : String} {value : Record}
    {ttlSeconds now : ℤ} (httl : 0 < ttlSeconds)
    (hfree : (stores.memory.live now (storageKey keyPrefix space key)).isSome = false)
    (hmarked : space ∈ opaqueNamespaces) :
    stores.marked keyPrefix now (.claim space key value ttlSeconds)
      (storageKey keyPrefix space key) = some value := by
  have hwins : ¬ (ttlSeconds ≤ 0 ∨
      (stores.memory.live now (storageKey keyPrefix space key)).isSome = true) := by
    rw [hfree]
    rintro (hle | hthere)
    · exact absurd httl (not_lt.mpr hle)
    · cases hthere
  rw [BothStores.marked, if_neg hwins, Function.update_self, if_pos hmarked]

/-! ### Every run -/

/-- Every call of a run is answered alike exactly if each read of a key where the marker of a claim
of an opaque namespace lives finds a marker that decodes as the document of its value does. -/
theorem sameReplies_iff (library : JsonLibrary) (keyPrefix : String) (now : ℤ)
    (events : List SessionEvent) :
    Throughout (BothStores.step library keyPrefix) SameReplies { now := now } events ↔
      Along (BothStores.step library keyPrefix) (Meets library keyPrefix) { now := now } events := by
  let invariant : BothStores → Prop := fun stores ↦
    Related library stores.markers stores.now stores.memory stores.redis
  have hstart : invariant { now := now } := fun _ ↦ trivial
  have hsame : SameReplies { now := now } := fun _ _ h ↦ nomatch h
  have hkeep (event : SessionEvent) (stores : BothStores) (h : invariant stores) :
      invariant (stores.step library keyPrefix event) := (step_related event h).1
  rw [← throughout_and_iff (fun event _ stores h ↦ hkeep event stores h) _ hstart]
  refine throughout_iff_along (fun stores event h ↦ ?_) events _ ⟨hstart, hsame⟩
  rw [and_iff_right (hkeep event stores h.1)]
  exact (step_related event h.1).2

/-! ### A marker that is read -/

namespace ReadMarker

/-- A library that answers as `json` and `str` do on the texts below. -/
def library : JsonLibrary where
  dumps _ := "\x7b\"schema\":\"v1\",\"value\":\x7b\"value\":\"1\"\x7d\x7d"
  loads raw :=
    if raw = "1" then some (.number 1)
    else some (.object [("schema", .text "v1"), ("value", .object [("value", .text "1")])])
  str _ := "1"

/-- A nonce is claimed, and its key is read. -/
def events : List SessionEvent :=
  [⟨0, .claim "confirm" "nonce" [("value", .text "1")] 60⟩, ⟨1000000, .get "confirm" "nonce"⟩]

/-- The store in memory answers with the record, the Redis store with nothing. -/
theorem not_sameReplies_events :
    ¬ Throughout (BothStores.step library "cloud-platform:bot") SameReplies { now := 0 } events := by
  intro h
  obtain ⟨-, hreads, -⟩ := (sameReplies_iff _ _ _ _).mp h
  have hmarker := @marked_claim { now := 0 } "cloud-platform:bot" "confirm" "nonce"
    [("value", .text "1")] 60 (0 + (0 : ℕ)) (by decide) rfl (by decide)
  have hsame := hreads _ hmarker (by decide +kernel)
  have hfound := congrArg Option.isSome hsame
  revert hfound
  decide +kernel

end ReadMarker

end CloudPlatform.Sessions
