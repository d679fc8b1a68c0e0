import CloudPlatform.Hetzner.OperationRecovery
import Mathlib.Data.List.Nodup

/-!
# What a recovery finds

Every recovery of a complete inventory returns the only server that carries its label, unless that
server names another platform server. So it returns the server of its operation exactly if it looks
for the label that the create has written and no other server of the project carries it; and it
attaches nothing to an operation without a server exactly if no server stands out under its label.
The places that recover an operation without a routing receipt look for the other spelling.
-/

namespace CloudPlatform.Hetzner

open Providers (OrderRecoveryResult)

variable {sha256 : String → String} {inventory : List ServerItem}

/-! ### The match of a complete inventory -/

/-- The only server with the label, if it does not name another platform server. -/
def soleMatch (inventory : List ServerItem) (label : String) (platformServerId : Option String) :
    Option ServerItem :=
  match inventory.filter (·.carries label) with
  | [item] => if item.conflicts platformServerId then none else some item
  | _ => none

theorem strip_resourceId (id : ResourceId) : strip id.val ≠ "" := by
  intro hstrip
  have hid := id.property
  unfold isResourceId at hid
  simp only [Bool.and_eq_true, decide_eq_true_eq, List.all_eq_true] at hid
  obtain ⟨⟨hne, hdigits⟩, -⟩ := hid
  cases hchars : id.val.toList with
  | nil => exact hne (String.toList_eq_nil_iff.mp hchars)
  | cons c rest =>
    have hmem : c ∈ id.val.toList := by
      rw [hchars]
      exact List.mem_cons_self
    have hspace := isSpace_of_strip_eq_empty hstrip c hmem
    rw [isSpace_of_isDigit (hdigits c hmem)] at hspace
    cases hspace

theorem resourceId_ne_empty (id : ResourceId) : id.val ≠ "" := by
  intro hempty
  exact strip_resourceId id (by rw [hempty]; rfl)

variable (sha256) in
/-- What the scan of a complete inventory answers. -/
theorem recoverServerByOperation_complete (operationKey : String) (legacyLabel : Bool)
    (platformServerId : Option String) :
    (∃ item, soleMatch inventory (recoveryLabel sha256 operationKey legacyLabel) platformServerId =
        some item ∧ recoverServerByOperation sha256 (.ok inventory) operationKey legacyLabel
          platformServerId = .ok { verdict := .matched, providerOrderId := some item.id.val }) ∨
      soleMatch inventory (recoveryLabel sha256 operationKey legacyLabel) platformServerId = none ∧
        ∃ result : OrderRecoveryResult, recoverServerByOperation sha256 (.ok inventory) operationKey
          legacyLabel platformServerId = .ok result ∧ result.verdict ≠ .matched := by
  unfold soleMatch recoverServerByOperation
  dsimp only
  cases inventory.filter (·.carries (recoveryLabel sha256 operationKey legacyLabel)) with
  | nil => exact .inr ⟨rfl, _, rfl, by simp⟩
  | cons first rest =>
    cases rest with
    | cons second others => exact .inr ⟨rfl, _, if_pos (by simp), by simp⟩
    | nil =>
      by_cases hconflict : first.conflicts platformServerId = true
      · exact .inr ⟨if_pos hconflict, _, if_pos (by simp [hconflict]), by simp⟩
      · exact .inl ⟨first, if_neg hconflict, if_neg (by simpa using hconflict)⟩

theorem soleMatch_mem {label : String} {platformServerId : Option String} {item : ServerItem}
    (h : soleMatch inventory label platformServerId = some item) : item ∈ inventory := by
  unfold soleMatch at h
  split at h
  · rename_i only honly
    split at h
    · cases h
    · obtain rfl := Option.some.inj h
      have hmem : only ∈ inventory.filter (·.carries label) := by
        rw [honly]
        exact List.mem_singleton_self only
      exact List.mem_of_mem_filter hmem
  · cases h

/-- A server that stands alone under its label and names no other platform server. -/
theorem soleMatch_eq_some (hids : (inventory.map (·.id)).Nodup) {label : String}
    {platformServerId : Option String} {item : ServerItem} :
    soleMatch inventory label platformServerId = some item ↔
      item ∈ inventory ∧ item.carries label = true ∧ item.conflicts platformServerId = false ∧
        ∀ other ∈ inventory, other.carries label = true → other.id = item.id := by
  constructor
  · intro h
    have hmem := soleMatch_mem h
    unfold soleMatch at h
    split at h
    · rename_i only honly
      by_cases hconflict : only.conflicts platformServerId = true
      · rw [if_pos hconflict] at h
        cases h
      · rw [if_neg hconflict] at h
        obtain rfl := Option.some.inj h
        have hcarries : ∀ other, other ∈ inventory → other.carries label = true → other = only := by
          intro other hother hlabel
          have hfiltered : other ∈ inventory.filter (·.carries label) :=
            List.mem_filter.mpr ⟨hother, hlabel⟩
          rw [honly] at hfiltered
          exact List.mem_singleton.mp hfiltered
        have honlyMem : only ∈ inventory.filter (·.carries label) := by
          rw [honly]
          exact List.mem_singleton_self only
        exact ⟨hmem, (List.mem_filter.mp honlyMem).2, Bool.eq_false_of_not_eq_true hconflict,
          fun other hother hlabel ↦ congrArg ServerItem.id (hcarries other hother hlabel)⟩
    · cases h
  · rintro ⟨hmem, hcarries, hconflict, halone⟩
    have hfilter : inventory.filter (·.carries label) = [item] := by
      have hnodup : (inventory.filter (·.carries label)).Nodup :=
        (List.Nodup.of_map _ hids).filter _
      refine List.perm_singleton.mp ((List.perm_ext_iff_of_nodup hnodup (List.nodup_singleton _)).mpr
        fun other ↦ ?_)
      rw [List.mem_filter, List.mem_singleton]
      constructor
      · rintro ⟨hother, hlabel⟩
        exact List.inj_on_of_nodup_map hids hother hmem (halone other hother hlabel)
      · rintro rfl
        exact ⟨hmem, hcarries⟩
    rw [soleMatch, hfilter]
    exact if_neg (by simp [hconflict])

/-! ### The places of recovery -/

/-- The spelling that a place looks for. -/
def RecoverySite.legacyLabel (intent : CreateIntent) : RecoverySite → Bool
  | .provisionDirect => true
  | .recoverHistoricalDirect => true
  | .provisionFromPool => !intent.receipt
  | .recoverPooled => false
  | .recoverHistoricalPending => true
  | .reconcileHistoricalDirect => true
  | .reconcileReceipt => false

variable {intent : CreateIntent}

theorem confirmedMatch_complete {legacyLabel : Bool} :
    (recoverServerByOperation sha256 (readsOf inventory).servers intent.operationKey legacyLabel
        (some intent.serverId.text) >>= confirmedMatch (readsOf inventory)) =
      .ok ((soleMatch inventory (recoveryLabel sha256 intent.operationKey legacyLabel)
        (some intent.serverId.text)).map (·.id.val)) := by
  change (recoverServerByOperation sha256 (.ok inventory) _ _ _ >>= _) = _
  rcases recoverServerByOperation_complete sha256 intent.operationKey legacyLabel
    (some intent.serverId.text) with ⟨item, hitem, hdone⟩ | ⟨hnone, result, hdone, hverdict⟩
  · have hfind : ∃ found, inventory.find? (·.id.val = item.id.val) = some found ∧
        found.id.val = item.id.val := by
      cases hfound : inventory.find? (·.id.val = item.id.val) with
      | none =>
        have habsent := List.find?_eq_none.mp hfound item (soleMatch_mem hitem)
        exact absurd (decide_eq_true rfl) habsent
      | some found => exact ⟨found, rfl, of_decide_eq_true (List.find?_some hfound :)⟩
    obtain ⟨found, hfound, hid⟩ := hfind
    rw [hdone, hitem, ok_bind]
    simp only [confirmedMatch, if_neg (resourceId_ne_empty item.id), readsOf, hfound, ok_bind,
      Option.filter_some, hid, decide_true, if_true, Option.map_some]
    rfl
  · rw [hdone, hnone, ok_bind]
    unfold confirmedMatch
    split
    · rename_i hmatched _
      exact absurd hmatched hverdict
    · rfl

theorem readLegacyCreateIdentity_complete (hlost : intent.providerServerId = none) (receipt : Bool) :
     readLegacyCreateIdentity sha256 (readsOf inventory) intent receipt =
      .ok ((soleMatch inventory (recoveryLabel sha256 intent.operationKey (!receipt))
        (some intent.serverId.text)).map (·.id.val)) := by
  unfold readLegacyCreateIdentity
  rw [hlost]
  change (recoverServerByOperation sha256 (.ok inventory) _ _ _ >>= _) = _
  rcases recoverServerByOperation_complete sha256 intent.operationKey (!receipt)
    (some intent.serverId.text) with ⟨item, hitem, hdone⟩ | ⟨hnone, result, hdone, hverdict⟩
  · rw [hdone, hitem, ok_bind]
    simp only [if_true, Option.filter_some, ne_eq, strip_resourceId item.id, not_false_eq_true,
      decide_true, Option.map_some]
    rfl
  · rw [hdone, hnone, ok_bind, if_neg hverdict]
    rfl

/-- A place that recovers a lost create finds the sole match of the label that it looks for. -/
theorem recover_complete (hlost : intent.providerServerId = none) (site : RecoverySite) :
    site.recover sha256 (readsOf inventory) intent = .ok ((soleMatch inventory
        (recoveryLabel sha256 intent.operationKey (site.legacyLabel intent))
        (some intent.serverId.text)).map (·.id.val)) := by
  cases site with
  | provisionDirect => exact confirmedMatch_complete
  | provisionFromPool => exact confirmedMatch_complete
  | recoverHistoricalDirect =>
    have hkept : ∀ found : Option String, found.filter (fun _ ↦ true) = found :=
      fun found ↦ by cases found <;> rfl
    simp only [RecoverySite.recover, recoverHistoricalDirect, confirmedMatch_complete,
      unchangedOnProviderError, ok_bind, hlost, Option.all_none, hkept]
    rfl
  | recoverPooled =>
    simp only [RecoverySite.recover, recoverPooled, confirmedMatch_complete,
      unchangedOnProviderError]
    rfl
  | recoverHistoricalPending =>
    simp only [RecoverySite.recover, readLegacyCreateIdentity_complete hlost,
      unchangedOnProviderError]
    rfl
  | reconcileHistoricalDirect =>
    simp only [RecoverySite.recover, readLegacyCreateIdentity_complete hlost,
      unchangedOnProviderError]
    rfl
  | reconcileReceipt =>
    simp only [RecoverySite.recover, readLegacyCreateIdentity_complete hlost,
      unchangedOnProviderError]
    rfl

/-! ### Projects -/

/-- A project with the servers of the creates that were accepted, whose responses were lost, and any
other servers, in the order of its inventory. -/
structure LostCreates (sha256 : String → String) where
  intents : List CreateIntent
  accepted : List (CreateIntent × ResourceId)
  others : List ServerItem
  inventory : List ServerItem
  keys : (intents.map (·.operationKey)).Nodup
  lost : ∀ intent ∈ intents, intent.providerServerId = none
  mem : ∀ entry ∈ accepted, entry.1 ∈ intents
  once : (accepted.map (·.1)).Nodup
  listed : inventory.Perm (others ++ accepted.map fun entry ↦
    createServer sha256 entry.1.request entry.1.operationKey entry.2)
  ids : (inventory.map (·.id)).Nodup

namespace LostCreates

variable (creates : LostCreates sha256)

/-- The server of an intent. -/
def serverOf (intent : CreateIntent) : Option ResourceId :=
  (creates.accepted.find? (·.1 = intent)).map (·.2)

/-- A place finds the server of the intent, and nothing if there is none. -/
def Finds (intent : CreateIntent) (site : RecoverySite) : Prop :=
  site.recover sha256 (readsOf creates.inventory) intent =
    .ok ((creates.serverOf intent).map (·.val))

/-- The place looks for the label that the create has written, and only the server of the intent
carries it; under the label of an intent without a server no server stands alone, unless it names
another platform server. -/
def Distinguishes (intent : CreateIntent) (site : RecoverySite) : Prop :=
  match creates.serverOf intent with
  | some id =>
    recoveryLabel sha256 intent.operationKey (site.legacyLabel intent) =
        operationLabel sha256 intent.operationKey ∧
      ∀ item ∈ creates.inventory,
        item.carries (operationLabel sha256 intent.operationKey) = true → item.id = id
  | none => ∀ item ∈ creates.inventory,
    item.carries (recoveryLabel sha256 intent.operationKey (site.legacyLabel intent)) = true →
      item.conflicts (some intent.serverId.text) = true ∨
        ∃ other ∈ creates.inventory, other.id ≠ item.id ∧
          other.carries
            (recoveryLabel sha256 intent.operationKey (site.legacyLabel intent)) = true

instance (intent : CreateIntent) (site : RecoverySite) : Decidable (creates.Finds intent site) := by
  unfold Finds
  infer_instance

variable {creates}

/-- The label of the operation, as the create wrote it. -/
theorem carries_createServer (intent : CreateIntent) (id : ResourceId) (label : String) :
    (createServer sha256 intent.request intent.operationKey id).carries label = true ↔
      label = operationLabel sha256 intent.operationKey := by
  unfold ServerItem.carries createServer createdLabels
  rw [Option.any_some, JsonObject.get_put_self, decide_eq_true_iff, Option.some_inj,
    JsonValue.text.injEq, eq_comm]

/-- The created server names its platform server. -/
theorem conflicts_createServer (intent : CreateIntent) (id : ResourceId) :
    (createServer sha256 intent.request intent.operationKey id).conflicts
      (some intent.serverId.text) = false := by
  have hnamed : (createdLabels sha256 intent.request intent.operationKey).get
      "platform_server_id" = some (.text intent.serverId.text) := by
    rw [createdLabels, JsonObject.get_put_of_ne (by decide)]
    unfold CreateIntent.request CreateIntent.labels
    cases intent.order with
    | none => rfl
    | some contract => rfl
  unfold ServerItem.conflicts createServer
  rw [Option.any_some, Option.any_some, hnamed, Option.any_some]
  simp

variable {intent : CreateIntent}

theorem serverOf_mem {id : ResourceId} (h : creates.serverOf intent = some id) :
    createServer sha256 intent.request intent.operationKey id ∈ creates.inventory := by
  obtain ⟨entry, hentry, rfl⟩ := Option.map_eq_some_iff.mp h
  have hintent : entry.1 = intent := of_decide_eq_true (List.find?_some hentry :)
  subst hintent
  refine creates.listed.mem_iff.mpr (List.mem_append_right _ (List.mem_map.mpr ⟨entry, ?_, rfl⟩))
  exact List.mem_of_find?_eq_some hentry

/-- A place finds what it should exactly if the project distinguishes the intent. -/
theorem finds_iff (hmem : intent ∈ creates.intents) (site : RecoverySite) :
    creates.Finds intent site ↔ creates.Distinguishes intent site := by
  unfold Finds Distinguishes
  rw [recover_complete (creates.lost intent hmem), Except.ok.injEq]
  cases hserver : creates.serverOf intent with
  | some id =>
    have hcreated := serverOf_mem hserver
    rw [Option.map_some, Option.map_eq_some_iff]
    constructor
    · rintro ⟨item, hitem, hid⟩
      obtain ⟨hitemMem, hcarries, -, halone⟩ := (soleMatch_eq_some creates.ids).mp hitem
      have hsame : item = createServer sha256 intent.request intent.operationKey id :=
        List.inj_on_of_nodup_map creates.ids hitemMem hcreated (Subtype.ext hid)
      rw [hsame] at hcarries halone
      have hlabel := (carries_createServer intent id _).mp hcarries
      rw [hlabel] at halone
      exact ⟨hlabel, halone⟩
    · rintro ⟨hlabel, halone⟩
      refine ⟨createServer sha256 intent.request intent.operationKey id,
        (soleMatch_eq_some creates.ids).mpr ⟨hcreated, ?_, conflicts_createServer intent id, ?_⟩, rfl⟩
      · exact (carries_createServer intent id _).mpr hlabel
      · rw [hlabel]
        exact halone
  | none =>
    rw [Option.map_none, Option.map_eq_none_iff, Option.eq_none_iff_forall_not_mem]
    constructor
    · intro hnone item hitem hcarries
      by_contra hstands
      obtain ⟨hconflict, hothers⟩ := not_or.mp hstands
      refine hnone item ((soleMatch_eq_some creates.ids).mpr
        ⟨hitem, hcarries, Bool.eq_false_of_not_eq_true hconflict, fun other hother hlabel ↦ ?_⟩)
      by_contra hne
      exact hothers ⟨other, hother, hne, hlabel⟩
    · intro hstands item hitem
      obtain ⟨hitemMem, hcarries, hconflict, halone⟩ := (soleMatch_eq_some creates.ids).mp hitem
      rcases hstands item hitemMem hcarries with hnames | ⟨other, hother, hne, hlabel⟩
      · rw [hconflict] at hnames
        cases hnames
      · exact hne (halone other hother hlabel)

end LostCreates

/-- The recoveries of a project find exactly what the creates made, if and only if the project
distinguishes every intent to every place that recovers it. -/
theorem recovery_exact_iff (creates : LostCreates sha256) :
    (∀ intent ∈ creates.intents, ∀ site ∈ intent.sites, creates.Finds intent site) ↔
      ∀ intent ∈ creates.intents, ∀ site ∈ intent.sites, creates.Distinguishes intent site := by
  constructor
  · exact fun h intent hmem site hsite ↦
      (LostCreates.finds_iff hmem site).mp (h intent hmem site hsite)
  · exact fun h intent hmem site hsite ↦
      (LostCreates.finds_iff hmem site).mpr (h intent hmem site hsite)

namespace LostOrder

def server : Uuid :=
  ⟨"11111111-1111-4111-8111-111111111111", .refl true⟩

/-- A monthly order on a single account. -/
def order : CreateIntent where
  operationKey := "order-create:11111111-1111-4111-8111-111111111111"
  receipt := false
  serverId := server
  order := some ⟨419, "EUR", "1_MONTH", "1_MONTH"⟩
  name := "srv-11111111"
  planId := "cx22"
  imageId := "67794396"
  locationId := "fsn1"

/-- The digest of the operation key, and other texts for other keys. -/
def digest (text : String) : String :=
  if text = order.operationKey then
    "2c48481c325bb603e2419a951a19d8f51ec24e84ba0a0ab7e3c20f60e9cdf85a"
  else "x" ++ text

theorem digest_injective : Function.Injective digest := by
  have hother : ∀ text, "2c48481c325bb603e2419a951a19d8f51ec24e84ba0a0ab7e3c20f60e9cdf85a" ≠
      "x" ++ text := by
    intro text h
    have hchars := congrArg (fun value ↦ value.toList.head?) h
    simp at hchars
  intro first second h
  unfold digest at h
  by_cases hfirst : first = order.operationKey
  · by_cases hsecond : second = order.operationKey
    · rw [hfirst, hsecond]
    · rw [if_pos hfirst, if_neg hsecond] at h
      exact absurd h (hother second)
  · by_cases hsecond : second = order.operationKey
    · rw [if_neg hfirst, if_pos hsecond] at h
      exact absurd h.symm (hother first)
    · rw [if_neg hfirst, if_neg hsecond] at h
      have hchars := congrArg String.toList h
      rw [String.toList_append, String.toList_append] at hchars
      exact String.toList_inj.mp (List.append_cancel_left hchars)

/-- The project holds the server of the order alone. -/
def creates : LostCreates digest where
  intents := [order]
  accepted := [(order, ⟨"42", by decide +kernel⟩)]
  others := []
  inventory := [createServer digest order.request order.operationKey ⟨"42", by decide +kernel⟩]
  keys := by decide
  lost := by decide
  mem := by decide
  once := by decide
  listed := .refl _
  ids := by decide

/-- The worker of the order does not find the server that it has made. -/
theorem not_finds_order : Function.Injective digest ∧
    ¬∀ intent ∈ creates.intents, ∀ site ∈ intent.sites, creates.Finds intent site :=
  ⟨digest_injective, by decide +kernel⟩

end LostOrder

end CloudPlatform.Hetzner
