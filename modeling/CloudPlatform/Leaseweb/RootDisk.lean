import CloudPlatform.Core.Casing
import CloudPlatform.Leaseweb.HourlySelection
import CloudPlatform.Operations.StatePlan
import CloudPlatform.Servers.Reads

/-!
# The launch root disk

A checkout derives the root disk of an hourly instance from the facts of its type and its image and pins
it; before the create, the pinned disk is validated against the same facts and goes into the launch body.
The derivation takes the minimum that the image declares, the validation guesses it from the name of the
operating system: a pinned disk stays valid exactly if the guess asks for no more than the pinned size
(`staysValid_iff`).
-/

namespace CloudPlatform.Leaseweb

open Decimals (Decimal parseDecimal)
open Operations (lower occursIn)
open Servers (upperText)

/-! ### Facts -/

/-- `ROOT_DISK_MIN_GB`. -/
def rootDiskMinGb : ℤ := 5

/-- `ROOT_DISK_MIN_GB_WINDOWS`. -/
def rootDiskMinGbWindows : ℤ := 50

/-- `ROOT_DISK_MAX_GB`. -/
def rootDiskMaxGb : ℤ := 1000

/-- `ROOT_DISK_STORAGE_PREFERENCE`, which are also the documented types. -/
def rootDiskStoragePreference : List String :=
  ["CENTRAL", "LOCAL"]

/-- `CONTRACT_TYPE_HOURLY`. -/
def contractTypeHourly : String := "HOURLY"

/-- An instance type with its storage facts. -/
structure LaunchType extends CloudInstanceType where
  storageType : Option String := none
  storageTypes : List String := []
  deriving DecidableEq

/-- One installable image. -/
structure CloudImage where
  id : String
  label : String
  osFamily : String
  architecture : Option String := none
  minDiskSizeGb : Option ℤ := none
  storageTypes : List String := []

/-- The launch root disk of an accepted contract. -/
structure CloudRootDisk where
  sizeGb : ℤ
  storageType : String
  deriving DecidableEq

/-- The facts that prove an offer and an image launchable. -/
structure HourlyCheckoutFacts where
  instanceType : LaunchType
  rootDisk : CloudRootDisk
  deriving DecidableEq

/-! ### The minimum of an image -/

/-- `minimum_root_disk_gb`. -/
def minimumRootDiskGb (imageLabel osFamily : String) : ℤ :=
  let text := lower (strip (osFamily ++ " " ++ imageLabel))
  if occursIn "windows" text then rootDiskMinGbWindows else rootDiskMinGb

/-- `image_root_disk_floor`. -/
def imageRootDiskFloor (image : CloudImage) : ℤ :=
  match image.minDiskSizeGb with
  | some declared =>
    if 0 < declared then max declared rootDiskMinGb
    else minimumRootDiskGb image.label image.osFamily
  | none => minimumRootDiskGb image.label image.osFamily

/-- `_normalized_storage_types`. -/
def normalizedStorageTypes (values : List String) : List String :=
  values.foldl (fun seen raw ↦
    let code := upperText (strip raw)
    if code ≠ "" ∧ code ∉ seen then seen ++ [code] else seen) []

/-- A sorted list of texts in a message. -/
def listText (values : List String) : String :=
  "[" ++ ", ".intercalate ((values.mergeSort (· ≤ ·)).map fun value ↦ s!"'{value}'") ++ "]"

/-- `sorted(values) or "any"`. -/
def listOrAny (values : List String) : String :=
  if values = [] then "any" else listText values

/-- The type and the image accept a storage type; an empty list accepts all. -/
def acceptedBy (byImage byType : List String) (candidate : String) : Bool :=
  (byImage = [] || candidate ∈ byImage) && (byType = [] || candidate ∈ byType)

/-! ### Derivation and validation -/

/-- `resolve_root_disk`. -/
def resolveRootDisk (diskGb : ℤ) (storageType : Option String) (image : CloudImage)
    (typeStorageTypes : List String) : Result CloudRootDisk := do
  rejectIf (diskGb ≤ 0) .providerError
    "the pinned instance type states no usable minimum root disk size"
  let sizeGb := max diskGb (imageRootDiskFloor image)
  rejectIf (rootDiskMaxGb < sizeGb) .providerError
    s!"rootDiskSize {sizeGb} GB exceeds the provider maximum {rootDiskMaxGb} GB"
  let byImage := normalizedStorageTypes image.storageTypes
  let byType := normalizedStorageTypes typeStorageTypes
  let preferred := upperText (strip (storageType.getD ""))
  rejectIf (preferred ≠ "" && preferred ∉ rootDiskStoragePreference) .providerError
    ("root-disk storage type '" ++ storageType.getD "" ++ "' is not one of " ++
      listText rootDiskStoragePreference)
  let candidates := (if preferred = "" then [] else [preferred]) ++
    rootDiskStoragePreference.filter (· ≠ preferred)
  match candidates.find? (acceptedBy byImage byType) with
  | some candidate => return ⟨sizeGb, candidate⟩
  | none => raise .providerError ("no common root-disk storage type between the instance type " ++
      s!"{listOrAny byType} and the image {listOrAny byImage}")

/-- `validate_root_disk`. -/
def validateRootDisk (sizeGb : Option ℤ) (storageType : Option String)
    (imageLabel osFamily : String) : Result CloudRootDisk := do
  match sizeGb with
  | none => raise .providerError "rootDiskSize must be an integer number of GB, got NoneType"
  | some size =>
    let floor := minimumRootDiskGb imageLabel osFamily
    rejectIf (size < floor || rootDiskMaxGb < size) .providerError
      (s!"rootDiskSize {size} GB is outside the provider range " ++
        s!"{floor}-{rootDiskMaxGb} GB for this image")
    let stated := storageType.getD ""
    rejectIf (strip stated = "") .providerError
      "rootDiskStorageType is required by the provider (LOCAL or CENTRAL)"
    let normalized := upperText (strip stated)
    rejectIf (normalized ∉ rootDiskStoragePreference) .providerError
      (s!"rootDiskStorageType '{stated}' is not one of " ++ listText rootDiskStoragePreference)
    return ⟨size, normalized⟩

/-- The POST body of an hourly instance. -/
structure CreateBody where
  type : String
  imageId : String
  region : String
  reference : String
  contractType : String
  rootDiskSize : ℤ
  rootDiskStorageType : String
  sshKey : Option String

/-- The arguments of `build_create_body`, the disk apart. -/
structure LaunchRequest where
  instanceType : String
  imageId : String
  region : String
  reference : String
  sshKeyId : Option String := none

/-- `build_create_body`. -/
def buildCreateBody (request : LaunchRequest) (disk : CloudRootDisk) (imageLabel osFamily : String) :
    Result CreateBody := do
  let checked ← validateRootDisk (some disk.sizeGb) (some disk.storageType) imageLabel osFamily
  return {
    type := request.instanceType
    imageId := request.imageId
    region := request.region
    reference := String.ofList (request.reference.toList.take 64)
    contractType := contractTypeHourly
    rootDiskSize := checked.sizeGb
    rootDiskStorageType := checked.storageType
    sshKey := request.sshKeyId.filter (· ≠ "") }

/-! ### The checkout -/

/-- The arguments of a validation, the pinned disk apart. -/
structure HourlyOffer where
  locationId : String
  productId : String
  imageId : String
  expectedCostMinor : ℤ
  currency : String
  expectedCostExact : String

/-- What the provider answers: its instance types at the region, and the images of a credential that it
serves there. -/
structure ProviderFacts where
  instanceTypes : String → Result (List LaunchType)
  installableImages : String → Result (List CloudImage)

/-- The exact rate of the live type is the expected one. -/
def checkExactRate (kind : LaunchType) (offer : HourlyOffer) : Result Unit :=
  let wantedExact := strip offer.expectedCostExact
  if wantedExact = "" then .ok ()
  else
    match parseDecimal wantedExact, parseDecimal kind.hourlyRateExact with
    | some wanted, some live =>
      match wanted, live with
      | .number wanted, .number live =>
        rejectIf (!wanted.positive || live.toRat ≠ wanted.toRat) .providerError changed
      | _, _ => raise .providerError changed
    | _, _ =>
      raise .providerError s!"provider rate for '{offer.productId}' is not valid Decimal text"
where
  changed : String :=
    s!"exact provider rate changed for '{offer.productId}' in '{offer.locationId}'"

/-- The pinned disk against the facts of today. -/
def reverify (offer : HourlyOffer) (kind : LaunchType) (image : CloudImage) (live : CloudRootDisk)
    (sizeGb : Option ℤ) (storageType : Option String) : Result CloudRootDisk := do
  let pinned ← validateRootDisk sizeGb storageType image.label image.osFamily
  rejectIf (pinned.sizeGb < live.sizeGb) .providerError
    (s!"pinned root disk {pinned.sizeGb} GB is below the provider minimum " ++
      s!"{live.sizeGb} GB for image '{offer.imageId}' in '{offer.locationId}'")
  rejectIf (!acceptedBy (normalizedStorageTypes image.storageTypes)
      (normalizedStorageTypes kind.storageTypes) pinned.storageType) .providerError
    (s!"pinned root disk storage type '{pinned.storageType}' is not accepted by " ++
      s!"image '{offer.imageId}' or type '{offer.productId}'")
  return pinned

/-- What a scan of the provider's answer found. -/
def requireFound {α : Type} (found : Option α) (message : String) : Result α :=
  match found with
  | none => raise .providerNotFound message
  | some value => .ok value

/-- The checks up to the disk: the live type and image. -/
def offeredFacts (casing : CaseMapping) (provider : ProviderFacts) (offer : HourlyOffer) :
    Result (LaunchType × CloudImage) := do
  let types ← provider.instanceTypes offer.locationId
  let kind ← requireFound (types.find? (·.id = offer.productId))
    s!"instance type '{offer.productId}' is not offered in '{offer.locationId}'"
  rejectIf (casing.upper kind.currency ≠ casing.upper (strip offer.currency)) .providerError
    s!"provider cost currency changed for '{offer.productId}' in '{offer.locationId}'"
  rejectIf (kind.hourlyCostMinor ≠ offer.expectedCostMinor) .providerError
    s!"provider cost changed for '{offer.productId}' in '{offer.locationId}'"
  checkExactRate kind offer
  let images ← provider.installableImages offer.locationId
  let image ← requireFound (images.find? (·.id = offer.imageId))
    s!"image '{offer.imageId}' is not offered in '{offer.locationId}'"
  return (kind, image)

/-- `validate_hourly_offer_for_checkout`. -/
def validateHourlyOfferForCheckout (casing : CaseMapping) (provider : ProviderFacts)
    (offer : HourlyOffer) (sizeGb : Option ℤ) (storageType : Option String) :
    Result HourlyCheckoutFacts := do
  let (kind, image) ← offeredFacts casing provider offer
  let live ← resolveRootDisk kind.diskGb kind.storageType image kind.storageTypes
  if sizeGb.isSome || storageType.isSome then
    let pinned ← reverify offer kind image live sizeGb storageType
    return ⟨kind, pinned⟩
  else return ⟨kind, live⟩

/-! ### What stays valid -/

/-- The live type of an offer. -/
def liveType (provider : ProviderFacts) (offer : HourlyOffer) : Option LaunchType :=
  (provider.instanceTypes offer.locationId).toOption.bind
    fun types ↦ types.find? (·.id = offer.productId)

/-- The live image of an offer. -/
def liveImage (provider : ProviderFacts) (offer : HourlyOffer) : Option CloudImage :=
  (provider.installableImages offer.locationId).toOption.bind
    fun images ↦ images.find? (·.id = offer.imageId)

/-- The disk goes into the launch body of an image as it is, and is large enough for the image. -/
structure LaunchesAs (disk : CloudRootDisk) (image : CloudImage) : Prop where
  body : ∀ request : LaunchRequest, ∃ body,
    buildCreateBody request disk image.label image.osFamily = .ok body ∧
      body.rootDiskSize = disk.sizeGb ∧ body.rootDiskStorageType = disk.storageType
  floor : imageRootDiskFloor image ≤ disk.sizeGb
  declared : ∀ declared ∈ image.minDiskSizeGb, declared ≤ disk.sizeGb

/-- The disk that a checkout derived is validated again as it is, launches the image, and is large enough
for the type and no larger than documented. -/
structure StaysValid (casing : CaseMapping) (provider : ProviderFacts) (offer : HourlyOffer)
    (facts : HourlyCheckoutFacts) : Prop where
  again : validateHourlyOfferForCheckout casing provider offer (some facts.rootDisk.sizeGb)
    (some facts.rootDisk.storageType) = .ok facts
  launches : ∀ image ∈ liveImage provider offer, LaunchesAs facts.rootDisk image
  typeMinimum : ∀ kind ∈ liveType provider offer, kind.diskGb ≤ facts.rootDisk.sizeGb
  maximum : facts.rootDisk.sizeGb ≤ rootDiskMaxGb

/-- The minimum guessed from the names of the image is met by the type or by the image itself. -/
def GuessMet (provider : ProviderFacts) (offer : HourlyOffer) : Prop :=
  ∀ kind ∈ liveType provider offer, ∀ image ∈ liveImage provider offer,
    minimumRootDiskGb image.label image.osFamily ≤ max kind.diskGb (imageRootDiskFloor image)

section Disks

variable {diskGb : ℤ} {storageType : Option String} {image : CloudImage}
  {typeStorageTypes : List String} {disk : CloudRootDisk} {imageLabel osFamily : String}

theorem five_le_minimumRootDiskGb (imageLabel osFamily : String) :
    rootDiskMinGb ≤ minimumRootDiskGb imageLabel osFamily := by
  unfold minimumRootDiskGb
  dsimp only
  split
  · decide
  · exact le_refl _

/-- A declared minimum is below the floor of its image. -/
theorem declared_le_floor {declared : ℤ} (h : declared ∈ image.minDiskSizeGb) :
    declared ≤ imageRootDiskFloor image := by
  rw [imageRootDiskFloor, Option.mem_def.mp h]
  dsimp only
  split
  · exact le_max_left _ _
  · rename_i hnot
    have hfive := five_le_minimumRootDiskGb image.label image.osFamily
    unfold rootDiskMinGb at hfive
    omega

theorem upperText_strip_of_mem {storage : String} (h : storage ∈ rootDiskStoragePreference) :
    upperText (strip storage) = storage ∧ strip storage ≠ "" := by
  rcases List.mem_cons.mp h with rfl | hrest
  · decide
  · obtain rfl := List.mem_singleton.mp hrest
    decide

/-- A derived disk: the larger minimum, and a documented storage type that both sides accept. -/
theorem resolveRootDisk_eq_ok
    (h : resolveRootDisk diskGb storageType image typeStorageTypes = .ok disk) :
    0 < diskGb ∧ disk.sizeGb = max diskGb (imageRootDiskFloor image) ∧ disk.sizeGb ≤ rootDiskMaxGb ∧
      disk.storageType ∈ rootDiskStoragePreference ∧
      acceptedBy (normalizedStorageTypes image.storageTypes)
        (normalizedStorageTypes typeStorageTypes) disk.storageType = true := by
  obtain ⟨hpositive, hrest⟩ := rejectIf_bind_eq_ok.mp h
  obtain ⟨hmaximum, hrest⟩ := rejectIf_bind_eq_ok.mp hrest
  obtain ⟨hpreferred, hrest⟩ := rejectIf_bind_eq_ok.mp hrest
  have hlow : 0 < diskGb := by simpa using hpositive
  have hhigh : max diskGb (imageRootDiskFloor image) ≤ rootDiskMaxGb :=
    not_lt.mp (of_decide_eq_false hmaximum)
  dsimp only at hrest
  split at hrest
  · rename_i candidate hfound
    obtain rfl := pure_eq_ok.mp hrest
    refine ⟨hlow, rfl, hhigh, ?_, ?_⟩
    · rcases List.mem_append.mp (List.mem_of_find?_eq_some hfound) with hstated | hdefault
      · rw [List.mem_ite_nil_left, List.mem_singleton] at hstated
        obtain ⟨hne, rfl⟩ := hstated
        simpa [hne] using hpreferred
      · exact (List.mem_filter.mp hdefault).1
    · exact List.find?_some hfound
  · exact absurd hrest raise_ne_ok

/-- Validation accepts a derived disk exactly if the guessed minimum does, and returns it. -/
theorem validateRootDisk_iff (hmaximum : disk.sizeGb ≤ rootDiskMaxGb)
    (hstorage : disk.storageType ∈ rootDiskStoragePreference) {checked : CloudRootDisk} :
    validateRootDisk (some disk.sizeGb) (some disk.storageType) imageLabel osFamily = .ok checked ↔
      minimumRootDiskGb imageLabel osFamily ≤ disk.sizeGb ∧ checked = disk := by
  obtain ⟨hnormal, hstated⟩ := upperText_strip_of_mem hstorage
  unfold validateRootDisk
  dsimp only
  rw [rejectIf_bind_eq_ok, Option.getD_some, rejectIf_bind (decide_eq_false hstated), hnormal,
    rejectIf_bind (by simpa using hstorage), pure_eq_ok]
  have hrange : (decide (disk.sizeGb < minimumRootDiskGb imageLabel osFamily) ||
      decide (rootDiskMaxGb < disk.sizeGb)) = false ↔
        minimumRootDiskGb imageLabel osFamily ≤ disk.sizeGb := by
    simp [hmaximum]
  rw [hrange]
  exact and_congr_right fun _ ↦ eq_comm

end Disks

/-! ### The checkout of a pinned disk -/

section Checkout

variable {casing : CaseMapping} {provider : ProviderFacts} {offer : HourlyOffer}
  {facts : HourlyCheckoutFacts} {kind : LaunchType} {image : CloudImage}

theorem requireFound_eq_ok {α : Type} {found : Option α} {message : String} {value : α} :
    requireFound found message = .ok value ↔ found = some value := by
  cases found with
  | none => exact iff_of_false raise_ne_ok (by simp)
  | some other => exact ⟨fun h ↦ congrArg some (Except.ok.inj h), fun h ↦ by rw [Option.some.inj h]; rfl⟩

theorem live_of_offeredFacts (h : offeredFacts casing provider offer = .ok (kind, image)) :
    liveType provider offer = some kind ∧ liveImage provider offer = some image := by
  obtain ⟨types, htypes, hrest⟩ := bind_eq_ok.mp h
  obtain ⟨foundKind, hkind, hrest⟩ := bind_eq_ok.mp hrest
  obtain ⟨-, hrest⟩ := rejectIf_bind_eq_ok.mp hrest
  obtain ⟨-, hrest⟩ := rejectIf_bind_eq_ok.mp hrest
  obtain ⟨-, -, hrest⟩ := bind_eq_ok.mp hrest
  obtain ⟨images, himages, hrest⟩ := bind_eq_ok.mp hrest
  obtain ⟨foundImage, himage, hdone⟩ := bind_eq_ok.mp hrest
  obtain ⟨rfl, rfl⟩ := Prod.mk.inj (pure_eq_ok.mp hdone)
  constructor
  · rw [liveType, htypes]
    exact requireFound_eq_ok.mp hkind
  · rw [liveImage, himages]
    exact requireFound_eq_ok.mp himage

/-- Without a pinned disk the checkout returns the derived one. -/
theorem checkout_eq_ok
    (h : validateHourlyOfferForCheckout casing provider offer none none = .ok facts) :
    ∃ image, offeredFacts casing provider offer = .ok (facts.instanceType, image) ∧
      resolveRootDisk facts.instanceType.diskGb facts.instanceType.storageType image
        facts.instanceType.storageTypes = .ok facts.rootDisk := by
  obtain ⟨⟨kind, image⟩, hoffered, hrest⟩ := bind_eq_ok.mp h
  obtain ⟨live, hlive, hdone⟩ := bind_eq_ok.mp hrest
  obtain rfl := pure_eq_ok.mp hdone
  exact ⟨image, hoffered, hlive⟩

/-- With the derived disk pinned, the checkout returns what its validation returns. -/
theorem checkout_pinned_iff
    (hoffered : offeredFacts casing provider offer = .ok (facts.instanceType, image))
    (hlive : resolveRootDisk facts.instanceType.diskGb facts.instanceType.storageType image
      facts.instanceType.storageTypes = .ok facts.rootDisk) :
    validateHourlyOfferForCheckout casing provider offer (some facts.rootDisk.sizeGb)
        (some facts.rootDisk.storageType) = .ok facts ↔
      minimumRootDiskGb image.label image.osFamily ≤ facts.rootDisk.sizeGb := by
  obtain ⟨-, -, hmaximum, hstorage, haccepted⟩ := resolveRootDisk_eq_ok hlive
  have hvalid : ∀ checked, validateRootDisk (some facts.rootDisk.sizeGb)
      (some facts.rootDisk.storageType) image.label image.osFamily = .ok checked ↔
        minimumRootDiskGb image.label image.osFamily ≤ facts.rootDisk.sizeGb ∧
          checked = facts.rootDisk := fun checked ↦ validateRootDisk_iff hmaximum hstorage
  have hcheckout : validateHourlyOfferForCheckout casing provider offer
      (some facts.rootDisk.sizeGb) (some facts.rootDisk.storageType) =
        (reverify offer facts.instanceType image facts.rootDisk (some facts.rootDisk.sizeGb)
          (some facts.rootDisk.storageType) >>= fun pinned ↦
            pure ⟨facts.instanceType, pinned⟩) := by
    unfold validateHourlyOfferForCheckout
    rw [hoffered, ok_bind]
    dsimp only
    rw [hlive, ok_bind]
    rfl
  rw [hcheckout]
  constructor
  · intro h
    obtain ⟨pinned, hpinned, -⟩ := bind_eq_ok.mp h
    obtain ⟨checked, hchecked, -⟩ := bind_eq_ok.mp hpinned
    exact ((hvalid checked).mp hchecked).1
  · intro hguess
    have hchecked := (hvalid facts.rootDisk).mpr ⟨hguess, rfl⟩
    unfold reverify
    rw [hchecked, ok_bind, rejectIf_bind (by simp), haccepted]
    rfl

/-- The launch body takes the disk as it is exactly if the guessed minimum does. -/
theorem launchesAs_iff (hlive : resolveRootDisk kind.diskGb kind.storageType image
    kind.storageTypes = .ok facts.rootDisk) : LaunchesAs facts.rootDisk image ↔
      minimumRootDiskGb image.label image.osFamily ≤ facts.rootDisk.sizeGb := by
  obtain ⟨-, hsize, hmaximum, hstorage, -⟩ := resolveRootDisk_eq_ok hlive
  have hfloor : imageRootDiskFloor image ≤ facts.rootDisk.sizeGb := by
    rw [hsize]
    exact le_max_right _ _
  constructor
  · intro h
    obtain ⟨body, hbody, -⟩ := h.body ⟨"", "", "", "", none⟩
    obtain ⟨checked, hchecked, -⟩ := bind_eq_ok.mp hbody
    exact ((validateRootDisk_iff hmaximum hstorage).mp hchecked).1
  · intro hguess
    refine ⟨fun request ↦ ?_, hfloor, fun declared hdeclared ↦ (declared_le_floor hdeclared).trans
      hfloor⟩
    have hchecked := (validateRootDisk_iff hmaximum hstorage).mpr ⟨hguess, rfl⟩
    unfold buildCreateBody
    rw [hchecked, ok_bind]
    exact ⟨_, rfl, rfl, rfl⟩

/-- The root disk that a checkout derives stays valid exactly if the minimum guessed from the names of
the image is met by the minimum of the type or of the image. -/
theorem staysValid_iff
    (h : validateHourlyOfferForCheckout casing provider offer none none = .ok facts) :
    StaysValid casing provider offer facts ↔ GuessMet provider offer := by
  obtain ⟨image, hoffered, hlive⟩ := checkout_eq_ok h
  obtain ⟨hkind, himage⟩ := live_of_offeredFacts hoffered
  obtain ⟨-, hsize, hmaximum, -, -⟩ := resolveRootDisk_eq_ok hlive
  have hguess : GuessMet provider offer ↔
      minimumRootDiskGb image.label image.osFamily ≤ facts.rootDisk.sizeGb := by
    rw [GuessMet, hkind, himage, hsize]
    simp
  rw [hguess]
  constructor
  · exact fun hvalid ↦ (checkout_pinned_iff hoffered hlive).mp hvalid.again
  · intro hmet
    refine ⟨(checkout_pinned_iff hoffered hlive).mpr hmet, ?_, ?_, hmaximum⟩
    · intro other hother
      obtain rfl := Option.some.inj (himage.symm.trans hother)
      exact (launchesAs_iff hlive).mpr hmet
    · intro other hother
      obtain rfl := Option.some.inj (hkind.symm.trans hother)
      rw [hsize]
      exact le_max_left _ _

end Checkout

/-! ### A small Windows image -/

namespace SmallWindows

/-- A type with a minimum disk of 25 GB. -/
def kind : LaunchType where
  id := "lsw.c3.large"
  name := "C3 Large"
  vcpu := 2
  ramGb := 4
  diskGb := 25
  hourlyCostMinor := 4
  currency := "EUR"
  hourlyRateExact := "0.0395"

/-- An image with its declared minimum. -/
def imageOf (label osFamily : String) (declared : ℤ) : CloudImage where
  id := "IMAGE"
  label := label
  osFamily := osFamily
  minDiskSizeGb := some declared
  storageTypes := ["CENTRAL"]

/-- The provider offers the type with one image. -/
def provider (image : CloudImage) : ProviderFacts where
  instanceTypes _ := .ok [kind]
  installableImages _ := .ok [image]

def offer : HourlyOffer where
  locationId := "eu-west-3"
  productId := "lsw.c3.large"
  imageId := "IMAGE"
  expectedCostMinor := 4
  currency := "eur"
  expectedCostExact := "0.0395"

/-- What a checkout derives: the minimum of the type. -/
def facts : HourlyCheckoutFacts :=
  ⟨kind, ⟨25, "CENTRAL"⟩⟩

theorem staysValid_ubuntu :
    validateHourlyOfferForCheckout asciiCasing (provider (imageOf "Ubuntu 24.04" "linux" 10)) offer
        none none = .ok facts ∧
      StaysValid asciiCasing (provider (imageOf "Ubuntu 24.04" "linux" 10)) offer facts := by
  have hcheckout : validateHourlyOfferForCheckout asciiCasing
      (provider (imageOf "Ubuntu 24.04" "linux" 10)) offer none none = .ok facts := by
    decide +kernel
  refine ⟨hcheckout, (staysValid_iff hcheckout).mpr fun other hother image himage ↦ ?_⟩
  obtain rfl := Option.some.inj hother
  obtain rfl := Option.some.inj himage
  decide +kernel

/-- An image whose label says Windows and that declares a minimum of 20 GB is pinned with 25 GB, and the
pinned disk is refused. -/
theorem not_staysValid_windows :
    validateHourlyOfferForCheckout asciiCasing
        (provider (imageOf "Windows Server Core" "windows" 20)) offer none none = .ok facts ∧
      ¬ StaysValid asciiCasing (provider (imageOf "Windows Server Core" "windows" 20)) offer
        facts := by
  refine ⟨by decide +kernel, fun h ↦ ?_⟩
  have hrefused : validateHourlyOfferForCheckout asciiCasing
      (provider (imageOf "Windows Server Core" "windows" 20)) offer (some 25) (some "CENTRAL") ≠
        .ok facts := by
    decide +kernel
  exact hrefused h.again

end SmallWindows

end CloudPlatform.Leaseweb
