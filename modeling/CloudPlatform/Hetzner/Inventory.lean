import CloudPlatform.Hetzner.OperationRecovery
import Mathlib.Data.List.Nodup
import Mathlib.Data.List.Perm.Subperm

/-!
# Complete inventories

A list of a project is read page by page. Every page says which one it is and which one follows, and
may say how many pages and how many entries there are. `_pages` returns the entries only if all that
is said fits together and the servers have different ids; every other answer is an error of the
provider. Where each page gives the number of all servers, different ids leave no room for a server
that was not listed, so the quota counts and the verdicts of absence are about all of them.
-/

namespace CloudPlatform.Hetzner

open Providers (OrderRecoveryResult isProviderError)

/-- A JSON object. -/
abbrev Fields := List (String × Json)

/-! ### Requests -/

/-- The body of a response: nothing, no JSON, or a document. -/
inductive Body
  | empty
  | invalid
  | json (document : Json)

structure Response where
  status : ℕ
  body : Body

/-- The last attempt of a request: 429 is tried again while retries are left. Without a response the
transport failed. -/
def lastAttempt (answers : ℕ → Option Response) : ℕ → ℕ → Option Response
  | 0, attempt => answers attempt
  | retries + 1, attempt =>
    match answers attempt with
    | none => none
    | some response =>
      if response.status = 429 then lastAttempt answers retries (attempt + 1) else some response

/-- `_capacity_error` finds a refusal for a limit of the project. -/
def isCapacityError (response : Response) : Bool :=
  response.status = 403 &&
    match response.body with
    | .json (.object payload) =>
      match payload.lookup "error" with
      | some (.object error) =>
        match error.lookup "code" with
        | some (.text code) => code = "resource_limit_exceeded"
        | _ => false
      | _ => false
    | _ => false

/-- `_error_message`. -/
def errorMessage (response : Response) : String :=
  "Hetzner request failed (HTTP " ++ toString response.status ++ ")"

/-- `_perform_request` of a GET. -/
def performRequest (maxRetries : ℕ) (answers : ℕ → Option Response) : Result Fields :=
  match lastAttempt answers maxRetries 0 with
  | none => raise .providerUnavailable "Hetzner request transport unavailable"
  | some response =>
    if isCapacityError response then
      raise .providerCapacity "Hetzner Project resource limit exceeded"
    else if response.status = 401 ∨ response.status = 403 then
      raise .providerAuth (errorMessage response)
    else if response.status = 404 then raise .providerNotFound (errorMessage response)
    else if response.status = 409 ∨ response.status = 423 then
      raise .providerConflict (errorMessage response)
    else if response.status = 429 then raise .providerRateLimited (errorMessage response)
    else if 500 ≤ response.status then raise .providerUnavailable (errorMessage response)
    else if 400 ≤ response.status then raise .providerError (errorMessage response)
    else if response.status = 204 then .ok []
    else
      match response.body with
      | .empty => .ok []
      | .invalid => raise .providerError "provider returned invalid JSON"
      | .json (.object payload) => .ok payload
      | .json _ => raise .providerError "provider returned unexpected JSON shape"

/-! ### Pages -/

theorem head?_toDigits_ne {n : ℕ} (h : 0 < n) : (Nat.toDigits 10 n).head? ≠ some '0' := by
  induction n using Nat.strong_induction_on with
  | _ n ih =>
    rw [Nat.toDigits_eq_if (by decide)]
    split_ifs with hsmall
    · have hdigit : ∀ digit < 10, 0 < digit → Nat.digitChar digit ≠ '0' := by decide
      exact fun heq ↦ hdigit n hsmall h (Option.some.inj heq)
    · rw [List.head?_append_of_ne_nil _ Nat.toDigits_ne_nil]
      exact ih (n / 10) (by omega) (by omega)

theorem isResourceId_toString {value : ℤ} (h : 0 < value) : isResourceId (toString value) = true := by
  obtain ⟨n, rfl⟩ := Int.eq_ofNat_of_zero_le h.le
  change isResourceId n.repr = true
  have hne : n.repr ≠ "" := by
    intro hempty
    have hchars := congrArg String.toList hempty
    rw [Nat.toList_repr] at hchars
    exact Nat.toDigits_ne_nil hchars
  have hhead : n.repr.toList.head? ≠ some '0' := by
    rw [Nat.toList_repr]
    exact head?_toDigits_ne (by omega)
  simp only [isResourceId, Bool.and_eq_true, decide_eq_true_eq, List.all_eq_true]
  exact ⟨⟨hne, fun c hc ↦ isDigit_of_mem_repr hc⟩, hhead⟩

/-- `_resource_id`. -/
def resourceId : Json → Option ResourceId
  | .number value => if h : 0 < value then some ⟨toString value, isResourceId_toString h⟩ else none
  | .text value =>
    if h : value.length ≤ 20 ∧ isResourceId value = true then some ⟨value, h.2⟩ else none
  | _ => none

/-- The id that an entry of the server list gives. -/
def identity (item : Fields) : Option ResourceId :=
  resourceId ((item.lookup "id").getD .null)

/-- `meta.pagination` of a payload. -/
def paginationOf (payload : Fields) : Option Fields :=
  match payload.lookup "meta" with
  | some (.object metadata) =>
    match metadata.lookup "pagination" with
    | some (.object pagination) => some pagination
    | _ => none
  | _ => none

/-- What `_pages` keeps between two pages. -/
structure Listing where
  items : List Fields := []
  ids : List ResourceId := []
  page : ℤ := 1
  total : Option ℤ := none
  lastPage : Option ℤ := none

section Reading

variable (path key : String)

/-- A counter of the whole list: `null`, or the value that the earlier pages have declared. -/
def readCounter (pagination : Fields) (field : String) (least : ℤ) (previous : Option ℤ) :
    Result (Option ℤ) :=
  match (pagination.lookup field).getD .null with
  | .null => .ok previous
  | .number value =>
    if value < least then raise .providerError (path ++ " returned invalid pagination")
    else if previous.any (· ≠ value) then
      raise .providerError (path ++ " returned inconsistent pagination")
    else .ok (some value)
  | _ => raise .providerError (path ++ " returned invalid pagination")

/-- One entry of a page; only the ids of servers are checked. -/
def readEntry (listing : Listing) : Json → Result Listing
  | .object item =>
    if key = "servers" then
      match (identity item).filter (· ∉ listing.ids) with
      | none => raise .providerError (path ++ " returned invalid or duplicate server identity")
      | some id =>
        .ok { listing with items := listing.items ++ [item], ids := listing.ids ++ [id] }
    else .ok { listing with items := listing.items ++ [item] }
  | _ => raise .providerError (path ++ " returned an invalid list entry")

/-- One round of `_pages`: the listing after the page, and whether the page was the last one. -/
def readPage (listing : Listing) (payload : Fields) : Result (Listing × Bool) :=
  match payload.lookup key, paginationOf payload with
  | some (.list raw), some pagination =>
    match pagination.lookup "next_page", pagination.lookup "page" with
    | some next, some (.number page) => do
      rejectIf (page ≠ listing.page) .providerError (path ++ " returned invalid pagination")
      let total ← readCounter path pagination "total_entries" 0 listing.total
      let lastPage ← readCounter path pagination "last_page" 1 listing.lastPage
      let listing ← raw.foldlM (readEntry path key) { listing with total, lastPage }
      match next with
      | .null =>
        rejectIf (lastPage.any (· ≠ listing.page) || total.any (· ≠ (listing.items.length : ℤ)))
          .providerError (path ++ " returned incomplete pagination")
        return (listing, true)
      | .number next =>
        rejectIf (next ≠ listing.page + 1 || lastPage.any (· < next)) .providerError
          (path ++ " returned invalid pagination")
        return ({ listing with page := next }, false)
      | _ => raise .providerError (path ++ " returned invalid pagination")
    | _, _ => raise .providerError (path ++ " returned invalid pagination")
  | _, _ => raise .providerError (path ++ " returned an incomplete list envelope")

variable (request : ℕ → Result Fields)

/-- The rounds that are left of `_pages`, after so many requests. -/
def pagesFrom : ℕ → ℕ → Listing → Result (List Fields)
  | 0, _, _ => raise .providerError (path ++ " exceeded safe pagination limit")
  | rounds + 1, sent, listing => do
    let payload ← request sent
    let (listing, last) ← readPage path key listing payload
    if last then return listing.items else pagesFrom rounds (sent + 1) listing

/-- `_pages`; `request` has the answers of `_request` in order. -/
def pages : Result (List Fields) :=
  pagesFrom path key request 1000 0 {}

end Reading

/-! ### What is drawn from an inventory -/

section Servers

variable (request : ℕ → Result Fields)

/-- `project_server_count`. -/
def projectServerCount : Result ℕ :=
  (pages "/servers" "servers" request).map List.length

/-- A label as the correlation compares it; no text or number inside another document is read. -/
def labelValue : Json → JsonValue
  | .null => .null
  | .flag value => .flag value
  | .number value => .number value
  | .float text => .float text
  | .text value => .text value
  | .list items => .nested "" (!items.isEmpty)
  | .object fields => .nested "" (!fields.isEmpty)

/-- An entry of the server list, as the correlation reads it. -/
def serverItem (item : Fields) : Option ServerItem :=
  (identity item).map fun id ↦
    { id
      labels := match item.lookup "labels" with
        | some (.object labels) => some (labels.map fun label ↦ (label.1, labelValue label.2))
        | _ => none }

/-- The servers that `recover_server_by_operation` scans. -/
def listServers : Result (List ServerItem) :=
  (pages "/servers" "servers" request).map (·.filterMap serverItem)

end Servers

/-! ### Every error is the provider's -/

section Errors

variable {path key : String}

/-- Whatever is raised is a `ProviderError`. -/
abbrev RaisesProviderErrors {α : Type} (result : Result α) : Prop :=
  RaisesOnly (isProviderError · = true) result

theorem raisesProviderErrors_performRequest (maxRetries : ℕ) (answers : ℕ → Option Response) :
    RaisesProviderErrors (performRequest maxRetries answers) := by
  unfold performRequest
  split
  · exact .raise (by rfl) _
  · split_ifs
    case neg =>
      split
      all_goals first
        | exact .ok _
        | exact .raise (by rfl) _
    all_goals first
      | exact .ok _
      | exact .raise (by rfl) _

theorem raisesProviderErrors_readCounter (pagination : Fields) (field : String) (least : ℤ)
    (previous : Option ℤ) :
    RaisesProviderErrors (readCounter path pagination field least previous) := by
  unfold readCounter
  split
  · exact .ok previous
  · split_ifs
    · exact .raise (by rfl) _
    · exact .raise (by rfl) _
    · exact .ok _
  · exact .raise (by rfl) _

theorem raisesProviderErrors_readEntries (raw : List Json) (listing : Listing) :
    RaisesProviderErrors (raw.foldlM (readEntry path key) listing) := by
  induction raw generalizing listing with
  | nil => exact .ok listing
  | cons entry rest ih =>
    rw [List.foldlM_cons]
    refine RaisesOnly.bind ?_ fun next _ ↦ ih next
    unfold readEntry
    split
    · split_ifs
      · split
        · exact .raise (by rfl) _
        · exact .ok _
      · exact .ok _
    · exact .raise (by rfl) _

theorem raisesProviderErrors_readPage (listing : Listing) (payload : Fields) :
    RaisesProviderErrors (readPage path key listing payload) := by
  unfold readPage
  split
  · split
    · refine .bind (.rejectIf (by rfl) _ _) fun _ _ ↦ ?_
      refine .bind (raisesProviderErrors_readCounter _ _ _ _) fun total _ ↦ ?_
      refine .bind (raisesProviderErrors_readCounter _ _ _ _) fun lastPage _ ↦ ?_
      refine .bind (raisesProviderErrors_readEntries _ _) fun after _ ↦ ?_
      split
      · exact .bind (.rejectIf (by rfl) _ _) fun _ _ ↦ .ok _
      · exact .bind (.rejectIf (by rfl) _ _) fun _ _ ↦ .ok _
      · exact .raise (by rfl) _
    · exact .raise (by rfl) _
  · exact .raise (by rfl) _

theorem raisesProviderErrors_pagesFrom {request : ℕ → Result Fields}
    (hrequest : ∀ sent, RaisesProviderErrors (request sent)) (rounds sent : ℕ) (listing : Listing) :
    RaisesProviderErrors (pagesFrom path key request rounds sent listing) := by
  induction rounds generalizing sent listing with
  | zero => exact .raise (by rfl) _
  | succ rounds ih =>
    refine .bind (hrequest sent) fun payload _ ↦ ?_
    refine .bind (raisesProviderErrors_readPage listing payload) fun read _ ↦ ?_
    obtain ⟨after, last⟩ := read
    dsimp only
    split_ifs
    · exact .ok _
    · exact ih (sent + 1) after

end Errors

/-! ### What the pages declare -/

/-- The entries of a payload. -/
def entries (key : String) (payload : Fields) : List Json :=
  match payload.lookup key with
  | some (.list raw) => raw
  | _ => []

/-- What a page declares under a field of its pagination. -/
def declared (payload : Fields) (field : String) : Option Json :=
  (paginationOf payload).bind fun pagination ↦ pagination.lookup field

/-- Every page that declares the field with a value declares this one. -/
def Agree (payloads : List Fields) (field : String) (value : Option ℤ) : Prop :=
  ∀ payload ∈ payloads, ∀ document, declared payload field = some document →
    document = .null ∨ ∃ n, value = some n ∧ document = .number n

/-- The payloads are pages `1..n` of one list: each says which page it is and points to the next, the
last one to none; all counts agree with what they carry; and the servers have different ids. -/
structure DeclaresList (key : String) (payloads items : List Fields) : Prop where
  nonempty : payloads ≠ []
  items_eq : payloads.flatMap (entries key) = items.map Json.object
  page : ∀ (k : ℕ) payload, payloads[k]? = some payload →
    declared payload "page" = some (.number (k + 1))
  nextPage : ∀ (k : ℕ) payload, payloads[k]? = some payload → declared payload "next_page" =
    some (if k + 1 = payloads.length then .null else .number (k + 2))
  lastPage : ∀ payload ∈ payloads, ∀ document, declared payload "last_page" = some document →
    document = .null ∨ document = .number payloads.length
  total : ∀ payload ∈ payloads, ∀ document, declared payload "total_entries" = some document →
    document = .null ∨ document = .number items.length
  identities : key = "servers" → ∃ ids : List ResourceId,
    ids.Nodup ∧ items.map identity = ids.map some

/-- What is known after the payloads so far. -/
structure Gathered (key : String) (payloads : List Fields) (listing : Listing) : Prop where
  items_eq : payloads.flatMap (entries key) = listing.items.map Json.object
  page : ∀ (k : ℕ) payload, payloads[k]? = some payload →
    declared payload "page" = some (.number (k + 1))
  lastPage : Agree payloads "last_page" listing.lastPage
  total : Agree payloads "total_entries" listing.total
  nodup : listing.ids.Nodup
  identities : key = "servers" → listing.items.map identity = listing.ids.map some

/-- All payloads so far point to the next page. -/
def PointOn (payloads : List Fields) : Prop :=
  ∀ (k : ℕ) payload, payloads[k]? = some payload →
    declared payload "next_page" = some (.number (k + 2))

section Steps

variable {path key : String} {payloads : List Fields} {listing after : Listing} {payload : Fields}

theorem forall_getElem?_concat {α : Type} {xs : List α} {x : α} {P : ℕ → α → Prop}
    (h : ∀ k y, xs[k]? = some y → P k y) (hlast : P xs.length x) :
    ∀ k y, (xs ++ [x])[k]? = some y → P k y := by
  intro k y hy
  rcases lt_trichotomy k xs.length with hlt | rfl | hgt
  · rw [List.getElem?_append_left hlt] at hy
    exact h k y hy
  · rw [List.getElem?_concat_length] at hy
    rw [← Option.some.inj hy]
    exact hlast
  · rw [List.getElem?_eq_none (by simp; omega)] at hy
    cases hy

theorem Agree.concat {field : String} {previous value : Option ℤ} (h : Agree payloads field previous)
    (hkept : ∀ n, previous = some n → value = some n)
    (hnew : ∀ document, declared payload field = some document →
      document = .null ∨ ∃ n, value = some n ∧ document = .number n) :
    Agree (payloads ++ [payload]) field value := by
  intro other hother document hdocument
  rcases List.mem_append.mp hother with hold | hlast
  · rcases h other hold document hdocument with hnull | ⟨n, hn, hnumber⟩
    · exact .inl hnull
    · exact .inr ⟨n, hkept n hn, hnumber⟩
  · rw [List.mem_singleton.mp hlast] at hdocument
    exact hnew document hdocument

/-- A counter keeps the value of the earlier pages and has that of this one. -/
theorem readCounter_eq_ok {pagination : Fields} {field : String} {least : ℤ}
    {previous value : Option ℤ} (h : readCounter path pagination field least previous = .ok value) :
    (∀ n, previous = some n → value = some n) ∧
      ∀ document, pagination.lookup field = some document →
        document = .null ∨ ∃ n, value = some n ∧ document = .number n := by
  cases hdocument : pagination.lookup field with
  | none =>
    rw [readCounter, hdocument] at h
    obtain rfl : previous = value := Except.ok.inj h
    exact ⟨fun n hn ↦ hn, fun document hnone ↦ by cases hnone⟩
  | some document =>
    cases document with
    | null =>
      rw [readCounter, hdocument] at h
      obtain rfl : previous = value := Except.ok.inj h
      refine ⟨fun n hn ↦ hn, fun document hsome ↦ .inl ?_⟩
      exact (Option.some.inj hsome).symm
    | number n =>
      rw [readCounter, hdocument] at h
      dsimp only [Option.getD_some] at h
      split_ifs at h with hleast hprevious
      · cases h
      · cases h
      · obtain rfl : some n = value := Except.ok.inj h
        refine ⟨fun m hm ↦ ?_, fun document hsome ↦ .inr ⟨n, rfl, (Option.some.inj hsome).symm⟩⟩
        simp only [hm, Option.any_some, ne_eq, decide_not, Bool.not_eq_true', decide_eq_false_iff_not,
          Decidable.not_not] at hprevious
        rw [hprevious]
    | flag | float | text | list | object =>
      rw [readCounter, hdocument] at h
      cases h

/-- The entries of a page go into the list in order; those of the server list with new ids. -/
theorem readEntry_foldlM {raw : List Json} (h : raw.foldlM (readEntry path key) listing = .ok after)
    (hnodup : listing.ids.Nodup)
    (hids : key = "servers" → listing.items.map identity = listing.ids.map some) :
    ∃ items ids, raw = items.map Json.object ∧
      after = { listing with items := listing.items ++ items, ids := ids } ∧ ids.Nodup ∧
      (key = "servers" → (listing.items ++ items).map identity = ids.map some) := by
  induction raw generalizing listing with
  | nil =>
    obtain rfl : listing = after := Except.ok.inj h
    exact ⟨[], listing.ids, rfl, by rw [List.append_nil], hnodup, by rwa [List.append_nil]⟩
  | cons entry rest ih =>
    rw [List.foldlM_cons] at h
    obtain ⟨next, hentry, hrest⟩ := bind_eq_ok.mp h
    cases entry with
    | object item =>
      rw [readEntry] at hentry
      split_ifs at hentry with hservers
      · cases hidentity : (identity item).filter (· ∉ listing.ids) with
        | none =>
          rw [hidentity] at hentry
          cases hentry
        | some id =>
          rw [hidentity] at hentry
          obtain rfl := Except.ok.inj hentry
          obtain ⟨hitem, hnew⟩ := Option.filter_eq_some_iff.mp hidentity
          have hnext : (listing.ids ++ [id]).Nodup := by
            rw [List.nodup_append]
            refine ⟨hnodup, List.nodup_singleton id, fun a ha b hb ↦ ?_⟩
            rw [List.mem_singleton.mp hb]
            exact fun heq ↦ of_decide_eq_true hnew (heq ▸ ha)
          obtain ⟨items, ids, hraw, hafter, hnodup, hids⟩ := ih hrest hnext fun hkey ↦ by
            rw [List.map_append, List.map_append, hids hkey, List.map_singleton, List.map_singleton,
              hitem]
          rw [List.append_assoc] at hafter hids
          exact ⟨item :: items, ids, by rw [hraw, List.map_cons], hafter, hnodup, hids⟩
      · obtain rfl := Except.ok.inj hentry
        obtain ⟨items, ids, hraw, hafter, hnodup, -⟩ := ih hrest hnodup fun hkey ↦ absurd hkey hservers
        rw [List.append_assoc] at hafter
        exact ⟨item :: items, ids, by rw [hraw, List.map_cons], hafter, hnodup,
          fun hkey ↦ absurd hkey hservers⟩
    | null | flag | number | float | text | list => cases hentry

/-- A page that is read is the one that was asked for, and agrees with all before it. -/
theorem Gathered.readPage {last : Bool} (h : Gathered key payloads listing)
    (hpage : listing.page = payloads.length + 1)
    (hread : readPage path key listing payload = .ok (after, last)) :
    Gathered key (payloads ++ [payload]) after ∧
      if last then declared payload "next_page" = some .null ∧
        (∀ n, after.lastPage = some n → n = payloads.length + 1) ∧
        ∀ n, after.total = some n → n = after.items.length
      else declared payload "next_page" = some (.number (payloads.length + 2)) ∧
        after.page = payloads.length + 2 := by
  unfold Hetzner.readPage at hread
  split at hread
  · rename_i raw pagination hraw hpagination
    split at hread
    · rename_i next page hnext hnumber
      obtain ⟨_, hsame, hread⟩ := bind_eq_ok.mp hread
      obtain ⟨total, htotal, hread⟩ := bind_eq_ok.mp hread
      obtain ⟨lastPage, hlastPage, hread⟩ := bind_eq_ok.mp hread
      obtain ⟨gathered, hgathered, hread⟩ := bind_eq_ok.mp hread
      obtain rfl : page = listing.page := by simpa using rejectIf_eq_ok.mp hsame
      obtain ⟨items, ids, rfl, rfl, hnodup, hids⟩ := readEntry_foldlM hgathered h.nodup h.identities
      have hdeclared : ∀ field, declared payload field = pagination.lookup field := fun field ↦ by
        rw [declared, hpagination, Option.bind_some]
      obtain ⟨hkeptTotal, hnewTotal⟩ := readCounter_eq_ok htotal
      obtain ⟨hkeptLast, hnewLast⟩ := readCounter_eq_ok hlastPage
      have hentries : entries key payload = items.map Json.object := by rw [entries, hraw]
      have hall : ∀ page, Gathered key (payloads ++ [payload])
          { items := listing.items ++ items, ids, page, total, lastPage } := fun page ↦
        { items_eq := by
            rw [List.flatMap_append, List.flatMap_singleton, h.items_eq, hentries, List.map_append]
          page := forall_getElem?_concat h.page (by rw [hdeclared, hnumber, hpage])
          lastPage := h.lastPage.concat hkeptLast fun document hdocument ↦
            hnewLast document (by rw [← hdeclared, hdocument])
          total := h.total.concat hkeptTotal fun document hdocument ↦
            hnewTotal document (by rw [← hdeclared, hdocument])
          nodup := hnodup
          identities := hids }
      cases next with
      | null =>
        obtain ⟨_, hcomplete, hread⟩ := bind_eq_ok.mp hread
        obtain ⟨rfl, rfl⟩ := Prod.mk.inj (pure_eq_ok.mp hread)
        have hcounts := rejectIf_eq_ok.mp hcomplete
        rw [Bool.or_eq_false_iff, Option.any_eq_false, Option.any_eq_false] at hcounts
        refine ⟨hall _, ?_, fun n hn ↦ ?_, fun n hn ↦ ?_⟩
        · rw [hdeclared, hnext]
        · simpa [hpage] using hcounts.1 n hn
        · simpa using hcounts.2 n hn
      | number number =>
        obtain ⟨_, hpoints, hread⟩ := bind_eq_ok.mp hread
        obtain ⟨rfl, rfl⟩ := Prod.mk.inj (pure_eq_ok.mp hread)
        have hfollows := rejectIf_eq_ok.mp hpoints
        rw [Bool.or_eq_false_iff, decide_eq_false_iff_not, not_not] at hfollows
        have hnumbered : number = payloads.length + 2 := by
          rw [hfollows.1, hpage]
          ring
        refine ⟨hall _, ?_, hnumbered⟩
        rw [hdeclared, hnext, hnumbered]
      | flag | float | text | list | object => cases hread
    · cases hread
  · cases hread

end Steps

section Runs

variable {path key : String} {request : ℕ → Result Fields} {items inventory : List Fields}

/-- The payloads are the first answers. -/
def Answered (request : ℕ → Result Fields) (payloads : List Fields) : Prop :=
  ∀ (k : ℕ) payload, payloads[k]? = some payload → request k = .ok payload

theorem pagesFrom_eq_ok {payloads : List Fields} {listing : Listing} {rounds : ℕ}
    (h : Gathered key payloads listing) (hpage : listing.page = payloads.length + 1)
    (hpoint : PointOn payloads) (hanswered : Answered request payloads)
    (hread : pagesFrom path key request rounds payloads.length listing = .ok items) :
    ∃ all, DeclaresList key all items ∧ Answered request all := by
  induction rounds generalizing payloads listing with
  | zero => cases hread
  | succ rounds ih =>
    rw [pagesFrom] at hread
    obtain ⟨payload, hrequest, hread⟩ := bind_eq_ok.mp hread
    obtain ⟨⟨after, last⟩, hpayload, hread⟩ := bind_eq_ok.mp hread
    obtain ⟨hgathered, hend⟩ := h.readPage hpage hpayload
    have hall : Answered request (payloads ++ [payload]) := forall_getElem?_concat hanswered hrequest
    have hlength : (payloads ++ [payload]).length = payloads.length + 1 := List.length_append
    cases last with
    | true =>
      obtain ⟨hnext, hlast, htotal⟩ := hend
      obtain rfl : after.items = items := pure_eq_ok.mp hread
      refine ⟨payloads ++ [payload], ?_, hall⟩
      exact {
        nonempty := List.append_ne_nil_of_right_ne_nil _ (List.cons_ne_nil _ _)
        items_eq := hgathered.items_eq
        page := hgathered.page
        nextPage := by
          refine forall_getElem?_concat (fun k other hother ↦ ?_) (by rw [if_pos hlength.symm, hnext])
          have hk : k < payloads.length := (List.getElem?_eq_some_iff.mp hother).1
          rw [hpoint k other hother, if_neg (by omega)]
        lastPage := fun other hother document hdocument ↦ by
          refine (hgathered.lastPage other hother document hdocument).imp_right ?_
          rintro ⟨n, hn, rfl⟩
          rw [hlast n hn, hlength, Nat.cast_succ]
        total := fun other hother document hdocument ↦ by
          refine (hgathered.total other hother document hdocument).imp_right ?_
          rintro ⟨n, hn, rfl⟩
          rw [htotal n hn]
        identities := fun hkey ↦ ⟨after.ids, hgathered.nodup, hgathered.identities hkey⟩ }
    | false =>
      obtain ⟨hnext, hafter⟩ := hend
      have hpoints : PointOn (payloads ++ [payload]) := forall_getElem?_concat hpoint hnext
      refine ih hgathered ?_ hpoints hall ?_
      · rw [hafter, hlength]
        push_cast
        ring
      · rw [hlength]
        exact hread

theorem pages_eq_ok (h : pages path key request = .ok items) :
    ∃ payloads, DeclaresList key payloads items ∧ Answered request payloads := by
  have hstart : Gathered key [] ({} : Listing) :=
    { items_eq := rfl
      page := fun _ _ h ↦ by cases h
      lastPage := fun _ h ↦ absurd h List.not_mem_nil
      total := fun _ h ↦ absurd h List.not_mem_nil
      nodup := List.nodup_nil
      identities := fun _ ↦ rfl }
  exact pagesFrom_eq_ok hstart rfl (fun _ _ h ↦ by cases h) (fun _ _ h ↦ by cases h) h

/-! ### A provider that tells the truth -/

/-- Every answer is a part of one unchanging list of servers, with the length of that list. -/
def ServesTruthfully (request : ℕ → Result Fields) (inventory : List Fields) : Prop :=
  ∀ k payload, request k = .ok payload →
    (∀ entry ∈ entries "servers" payload, ∃ item ∈ inventory, entry = .object item) ∧
      declared payload "total_entries" = some (.number inventory.length)

/-- The server carries the label of an operation. -/
def CarriesLabel (item : Fields) (label : String) : Prop :=
  ∃ labels, item.lookup "labels" = some (.object labels) ∧
    labels.lookup "platform-operation" = some (.text label)

/-- What is returned of a truthful list is the list. -/
theorem DeclaresList.perm {payloads : List Fields} (h : DeclaresList "servers" payloads items)
    (hanswered : Answered request payloads) (htrue : ServesTruthfully request inventory) :
    items.Perm inventory := by
  obtain ⟨ids, hnodup, hids⟩ := h.identities rfl
  have hserved : ∀ payload ∈ payloads, ∃ k, request k = .ok payload := fun payload hpayload ↦ by
    obtain ⟨k, hk⟩ := List.getElem?_of_mem hpayload
    exact ⟨k, hanswered k payload hk⟩
  have hsubset : items ⊆ inventory := by
    intro item hitem
    have hentry : Json.object item ∈ payloads.flatMap (entries "servers") := by
      rw [h.items_eq]
      exact List.mem_map_of_mem hitem
    obtain ⟨payload, hpayload, hmem⟩ := List.mem_flatMap.mp hentry
    obtain ⟨k, hk⟩ := hserved payload hpayload
    obtain ⟨other, hother, heq⟩ := (htrue k payload hk).1 _ hmem
    rw [Json.object.inj heq]
    exact hother
  have hdistinct : items.Nodup := by
    refine List.Nodup.of_map identity ?_
    rw [hids]
    exact hnodup.map (Option.some_injective _)
  have hlength : inventory.length = items.length := by
    obtain ⟨payload, hpayload⟩ := List.exists_mem_of_ne_nil payloads h.nonempty
    obtain ⟨k, hk⟩ := hserved payload hpayload
    rcases h.total payload hpayload _ (htrue k payload hk).2 with hnull | hnumber
    · cases hnull
    · exact Int.ofNat_inj.mp (Json.number.inj hnumber)
  exact (List.subperm_of_subset hdistinct hsubset).perm_of_length_le hlength.le

theorem get_labels (labels : Fields) (key : String) :
    JsonObject.get (labels.map fun label ↦ (label.1, labelValue label.2)) key =
      (labels.lookup key).map labelValue := by
  induction labels with
  | nil => rfl
  | cons label rest ih =>
    obtain ⟨name, value⟩ := label
    by_cases hkey : name = key
    · simp [JsonObject.get, hkey]
    · have hne : (key == name) = false := by simpa using Ne.symm hkey
      simpa [JsonObject.get, List.lookup_cons, hkey, hne] using ih

/-- A server with the label is a candidate of the recovery. -/
theorem exists_carries {item : Fields} {id : ResourceId} {label : String}
    (hid : identity item = some id) (h : CarriesLabel item label) :
    ∃ server, serverItem item = some server ∧ server.carries label = true := by
  obtain ⟨labels, hlabels, hlabel⟩ := h
  refine ⟨_, by rw [serverItem, hid, Option.map_some], ?_⟩
  rw [ServerItem.carries]
  simp only [hlabels]
  rw [Option.any_some, get_labels, hlabel]
  exact decide_eq_true rfl

theorem filter_eq_nil_of_noMatch {sha256 : String → String} {servers : List ServerItem}
    {operationKey : String} {legacyLabel : Bool} {platformServerId : Option String}
    {result : OrderRecoveryResult}
    (h : recoverServerByOperation sha256 (.ok servers) operationKey legacyLabel platformServerId =
      .ok result) (hverdict : result.verdict = .noMatch) :
    servers.filter (·.carries (recoveryLabel sha256 operationKey legacyLabel)) = [] := by
  rw [recoverServerByOperation] at h
  cases hfilter : servers.filter (·.carries (recoveryLabel sha256 operationKey legacyLabel)) with
  | nil => rfl
  | cons first rest =>
    simp only [hfilter] at h
    split_ifs at h
    · rw [← Except.ok.inj h] at hverdict
      cases hverdict
    · rw [← Except.ok.inj h] at hverdict
      cases hverdict

end Runs

/-- The requests of a listing: the attempts of each are the provider's answers to it. -/
def requests (maxRetries : ℕ) (answers : ℕ → ℕ → Option Response) (sent : ℕ) : Result Fields :=
  performRequest maxRetries (answers sent)

/-- An inventory is complete or refused, whatever the provider answers: `_pages` raises a
`ProviderError` or returns the entries of pages that declare one list. If the provider tells the truth
about an unchanging list, the count is exact and `NO_MATCH` means that no server has the label. -/
theorem complete_or_refused (sha256 : String → String) (maxRetries : ℕ)
    (answers : ℕ → ℕ → Option Response) :
    (∀ path key,
      match pages path key (requests maxRetries answers) with
      | .error raised => isProviderError raised.kind = true
      | .ok items => ∃ payloads, DeclaresList key payloads items ∧
          Answered (requests maxRetries answers) payloads) ∧
    ∀ inventory, ServesTruthfully (requests maxRetries answers) inventory →
      (∀ count, projectServerCount (requests maxRetries answers) = .ok count →
        count = inventory.length) ∧
      ∀ operationKey legacyLabel platformServerId result,
        recoverServerByOperation sha256 (listServers (requests maxRetries answers)) operationKey
            legacyLabel platformServerId = .ok result →
          result.verdict = .noMatch → ∀ item ∈ inventory,
            ¬ CarriesLabel item (recoveryLabel sha256 operationKey legacyLabel) := by
  have hraises : ∀ sent, RaisesProviderErrors (requests maxRetries answers sent) :=
    fun sent ↦ raisesProviderErrors_performRequest maxRetries (answers sent)
  refine ⟨fun path key ↦ ?_, fun inventory htrue ↦ ⟨?_, ?_⟩⟩
  · cases hpages : pages path key (requests maxRetries answers) with
    | error raised => exact raisesProviderErrors_pagesFrom hraises 1000 0 {} raised hpages
    | ok items => exact pages_eq_ok hpages
  · intro count hcount
    cases hpages : pages "/servers" "servers" (requests maxRetries answers) with
    | error raised =>
      rw [projectServerCount, hpages] at hcount
      cases hcount
    | ok items =>
      rw [projectServerCount, hpages] at hcount
      obtain ⟨payloads, hdeclares, hanswered⟩ := pages_eq_ok hpages
      rw [← Except.ok.inj hcount]
      exact (hdeclares.perm hanswered htrue).length_eq
  · intro operationKey legacyLabel platformServerId result hresult hverdict item hitem hcarries
    cases hpages : pages "/servers" "servers" (requests maxRetries answers) with
    | error raised =>
      have hkind := raisesProviderErrors_pagesFrom hraises 1000 0 {} raised hpages
      rw [listServers, hpages] at hresult
      simp only [Except.map, recoverServerByOperation, if_pos hkind] at hresult
      rw [← Except.ok.inj hresult] at hverdict
      cases hverdict
    | ok items =>
      obtain ⟨payloads, hdeclares, hanswered⟩ := pages_eq_ok hpages
      have hmem := (hdeclares.perm hanswered htrue).mem_iff.mpr hitem
      obtain ⟨ids, -, hids⟩ := hdeclares.identities rfl
      obtain ⟨id, -, hid⟩ := List.mem_map.mp (hids ▸ List.mem_map_of_mem hmem)
      obtain ⟨server, hserver, hlabel⟩ := exists_carries hid.symm hcarries
      rw [listServers, hpages] at hresult
      have hnone := filter_eq_nil_of_noMatch hresult hverdict
      exact List.filter_eq_nil_iff.mp hnone server
        (List.mem_filterMap.mpr ⟨item, hmem, hserver⟩) hlabel

/-! ### Two servers on two pages -/

namespace TwoPages

/-- A server with the label of an operation. -/
def server (id label : String) : Fields :=
  [("id", .text id), ("labels", .object [("platform-operation", .text label)])]

/-- A page with one of the two servers. -/
def page (number : ℤ) (next : Json) (item : Fields) : Fields :=
  [("servers", .list [.object item]),
    ("meta", .object [("pagination", .object
      [("page", .number number), ("next_page", next), ("total_entries", .number 2)])])]

/-- The two pages; there is no response to a third request. -/
def answers : ℕ → ℕ → Option Response
  | 0, _ => some ⟨200, .json (.object (page 1 (.number 2) (server "41" "first")))⟩
  | 1, _ => some ⟨200, .json (.object (page 2 .null (server "42" "second")))⟩
  | _, _ => none

def inventory : List Fields :=
  [server "41" "first", server "42" "second"]

theorem servesTruthfully : ServesTruthfully (requests 3 answers) inventory := by
  intro sent payload h
  rcases sent with _ | _ | sent
  · rw [← Except.ok.inj h]
    refine ⟨fun entry hentry ↦ ⟨server "41" "first", List.mem_cons_self, ?_⟩, rfl⟩
    exact List.mem_singleton.mp hentry
  · rw [← Except.ok.inj h]
    refine ⟨fun entry hentry ↦ ⟨server "42" "second", by simp [inventory], ?_⟩, rfl⟩
    exact List.mem_singleton.mp hentry
  · cases h

end TwoPages

/-- Both servers are counted, and a third label is on none of them. -/
theorem complete_or_refused_twoPages :
    projectServerCount (requests 3 TwoPages.answers) = .ok 2 ∧ 2 = TwoPages.inventory.length ∧
      ∀ item ∈ TwoPages.inventory, ¬ CarriesLabel item "third" := by
  have hserved := (complete_or_refused id 3 TwoPages.answers).2 _ TwoPages.servesTruthfully
  have hcount : projectServerCount (requests 3 TwoPages.answers) = .ok 2 := rfl
  exact ⟨hcount, hserved.1 2 hcount, hserved.2 "third" true none _ rfl rfl⟩

end CloudPlatform.Hetzner
