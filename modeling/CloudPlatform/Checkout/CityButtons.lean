import CloudPlatform.Checkout.CityScreens

/-!
# Do city buttons lead back to their halls?

The button of a city with several locations carries its country and a slug of its label, and the
screen behind it looks the pair up among the current groups. Two labels of one country may share a
slug: the screen then fails closed, as it does when one of its own callbacks does not fit on a
button. In every other case the pages of the screen list exactly the locations of the city
(`leadsBack_of_onlyGroup`), unless its country reads like the placeholder of an empty one.
-/

namespace CloudPlatform.Checkout

open Offers (SellableOffer)

section Buttons

variable (mapping : CaseMapping) (hmac : String → String → String) (signingKey : String)
variable (shop : Storefront)

/-- The pages behind a country and a slug are never empty and list exactly these locations. -/
def LeadsTo (familyKey country slug : String) (pageSize : ℤ) (locationIds : List String) : Prop :=
  ∃ pages : List DatacenterPageView, pages ≠ [] ∧
    (List.range' 1 pages.length).mapM (fun page : ℕ ↦ cityLocationsScreen mapping hmac signingKey
      shop familyKey country slug page pageSize) = .ok pages ∧
    (∀ page ∈ pages, page.items ≠ [] ∧ page.totalPages = pages.length) ∧
    (pages.flatMap fun page ↦ page.items.map (·.locationId)).Perm locationIds

/-- No other current group of the family has the country and the slug of the group. -/
def OnlyGroup (family : ProviderProductFamily) (group : CityLocationGroup) : Prop :=
  ∀ other ∈ groupOffersByCity mapping shop (shop.familySellableOffers family),
    other.1.1 = textOf group.countryCode → citySlug other.1.2 = citySlug group.city →
      other.1.2 = group.city

/-- The callbacks of the screen of a group fit on their buttons: the way back, each location, and
each page. -/
structure ButtonsFit (family : ProviderProductFamily) (group : CityLocationGroup)
    (pageSize : ℤ) : Prop where
  back : ∃ callback, familyCitiesCallback hmac signingKey shop family 1 = .ok callback
  locations : ∀ locationId ∈ group.locationIds,
    ∃ callback, familyLocationCallback hmac signingKey shop family locationId = .ok callback
  pages : ∀ page, 1 ≤ page →
    page ≤ pageCount (max 1 pageSize).toNat group.locationIds.length →
    ∃ callback, familyHallsCallback mapping hmac signingKey shop family group.countryCode group.city
      page = .ok callback

/-- A multi-location group on the cities screen is one of the current groups, with a halls
button. -/
structure Emitted (familyKey : String) (group : CityLocationGroup)
    (family : ProviderProductFamily) (country : String) (bucket : List SellableOffer) :
    Prop where
  resolved : shop.resolveFamily familyKey = .ok family
  current : ((country, group.city), bucket) ∈
    groupOffersByCity mapping shop (shop.familySellableOffers family)
  country_eq : group.countryCode = orNone country
  locations : group.locationIds = (bucket.map (·.locationId)).eraseDups
  button : familyHallsCallback mapping hmac signingKey shop family group.countryCode group.city 1 =
    .ok group.selectCallback
  cancel : ∃ callback, storeNavCallback hmac signingKey "market" [] = .ok callback

section Groups

variable {mapping hmac signingKey shop}

theorem nodup_keys_groupOffersByCity (offers : List SellableOffer) :
    ((groupOffersByCity mapping shop offers).map Prod.fst).Nodup := by
  have hperm := List.perm_insertionSort (fun first second ↦ pairLe first.1 second.1)
    (groupBy (cityKey mapping shop) offers)
  exact (hperm.map Prod.fst).nodup_iff.mpr (nodup_keys_groupBy _ _)

variable {offers bucket : List SellableOffer} {family : ProviderProductFamily}

theorem mem_groupOffersByCity {key : String × String} :
    (key, bucket) ∈ groupOffersByCity mapping shop offers ↔
      bucket = offers.filter (cityKey mapping shop · = key) ∧ bucket ≠ [] := by
  rw [groupOffersByCity, List.mem_insertionSort, mem_groupBy]

/-- The country of a group is normalised. -/
theorem exists_country_of_mem {key : String × String}
    (h : (key, bucket) ∈ groupOffersByCity mapping shop offers) :
    ∃ countryCode, key.1 = normalCountry mapping countryCode := by
  obtain ⟨hbucket, hne⟩ := mem_groupOffersByCity.mp h
  obtain ⟨offer, hoffer⟩ := List.exists_mem_of_ne_nil _ hne
  rw [hbucket] at hoffer
  have hkey : cityKey mapping shop offer = key := by simpa using (List.mem_filter.mp hoffer).2
  exact ⟨(shop.facts offer.locationId).2.1, by rw [← hkey]; rfl⟩

/-- The country argument leads back to the country, unless it reads like an empty one. -/
theorem countryFromArg_countryArg {country : String} {countryCode : Option String}
    (hcountry : country = normalCountry mapping countryCode) (hplain : country ≠ "-") :
    countryFromArg mapping (countryArg mapping (orNone country)) = country := by
  have hnormal : normalCountry mapping (orNone country) = country := by
    unfold orNone
    by_cases hempty : country = ""
    · rw [if_pos hempty, hempty]
      rfl
    · rw [if_neg hempty, hcountry]
      exact mapping.upper_strip_upper_strip (textOf countryCode)
  unfold countryFromArg countryArg
  dsimp only
  rw [hnormal]
  by_cases hempty : country = ""
  · rw [if_pos hempty, if_pos rfl, hempty]
  · rw [if_neg hempty, if_neg hplain, hcountry]
    exact mapping.upper_strip_upper_strip (textOf countryCode)

/-- The one group that matches. -/
theorem matchingGroups_eq {country label slug : String}
    (hmem : ((country, label), bucket) ∈ groupOffersByCity mapping shop offers)
    (hslug : citySlug label = slug)
    (honly : ∀ other ∈ groupOffersByCity mapping shop offers, other.1.1 = country →
      citySlug other.1.2 = slug → other.1.2 = label) :
    matchingGroups mapping shop offers country slug = [((country, label), bucket)] := by
  have hkeys := @nodup_keys_groupOffersByCity mapping shop offers
  refine List.perm_singleton.mp ((List.perm_ext_iff_of_nodup (hkeys.of_map.filter _)
    (List.nodup_singleton _)).mpr fun other ↦ ?_)
  rw [List.mem_filter, List.mem_singleton, Bool.and_eq_true, decide_eq_true_iff,
    decide_eq_true_iff]
  constructor
  · rintro ⟨hother, hcountry, hsame⟩
    have hlabel := honly other hother hcountry hsame
    exact List.inj_on_of_nodup_map hkeys hother hmem (Prod.ext hcountry hlabel)
  · rintro rfl
    exact ⟨hmem, rfl, hslug⟩

/-- The locations of a bucket, sorted, are those of its group. -/
theorem perm_sortedHalls (bucket : List SellableOffer) :
    ((sortedHalls bucket).map Prod.fst).Perm (bucket.map (·.locationId)).eraseDups := by
  refine ((List.perm_insertionSort _ _).map Prod.fst).trans ?_
  refine (List.perm_ext_iff_of_nodup (nodup_keys_groupBy _ _) (nodup_eraseDups _)).mpr
    fun locationId ↦ ?_
  rw [List.mem_eraseDups]
  constructor
  · intro h
    obtain ⟨⟨_, rows⟩, hrows, rfl⟩ := List.mem_map.mp h
    obtain ⟨rfl, hne⟩ := mem_groupBy.mp hrows
    obtain ⟨offer, hoffer⟩ := List.exists_mem_of_ne_nil _ hne
    obtain ⟨hoffer, hkey⟩ := List.mem_filter.mp hoffer
    exact List.mem_map.mpr ⟨offer, hoffer, of_decide_eq_true hkey⟩
  · intro h
    obtain ⟨offer, hoffer, hkey⟩ := List.mem_map.mp h
    refine List.mem_map.mpr ⟨(locationId, _), mem_groupBy.mpr ⟨rfl, ?_⟩, rfl⟩
    exact List.ne_nil_of_mem (List.mem_filter.mpr ⟨hoffer, decide_eq_true hkey⟩)

/-! ### The buttons of the cities screen -/

theorem emitted_of_citiesScreen {familyKey : String} {page pageSize : ℤ} {view : CityPageView}
    (hview : citiesScreen mapping hmac signingKey shop familyKey page pageSize = .ok view)
    {group : CityLocationGroup} (hgroup : group ∈ view.items)
    (hmulti : 1 < group.locationIds.length) : ∃ family country bucket,
      Emitted mapping hmac signingKey shop familyKey group family country bucket := by
  obtain ⟨family, hfamily, hrest⟩ := bind_eq_ok.mp hview
  obtain ⟨-, hrest⟩ := rejectIf_bind_eq_ok.mp hrest
  obtain ⟨items, hitems, hrest⟩ := bind_eq_ok.mp hrest
  obtain ⟨providersBack, -, hrest⟩ := bind_eq_ok.mp hrest
  obtain ⟨back, -, hrest⟩ := bind_eq_ok.mp hrest
  obtain ⟨cancel, hcancel, hrest⟩ := bind_eq_ok.mp hrest
  obtain ⟨prev, -, hrest⟩ := bind_eq_ok.mp hrest
  obtain ⟨next, -, hrest⟩ := bind_eq_ok.mp hrest
  obtain rfl := pure_eq_ok.mp hrest
  obtain ⟨⟨⟨country, label⟩, bucket⟩, hcurrent, hgroupView⟩ :=
    (mem_of_mapM_eq_ok hitems).mp hgroup
  have hcurrent := List.mem_of_mem_drop (List.mem_of_mem_take hcurrent)
  unfold cityGroupView at hgroupView
  dsimp only at hgroupView
  obtain ⟨select, hselect, hdone⟩ := bind_eq_ok.mp hgroupView
  obtain rfl := pure_eq_ok.mp hdone
  refine ⟨family, country, bucket, hfamily, hcurrent, rfl, rfl, ?_, cancel, hcancel⟩
  dsimp only at hmulti ⊢
  unfold citySelectCallback at hselect
  split at hselect
  · rename_i locationId hone
    rw [hone] at hmulti
    exact absurd hmulti (by simp)
  · exact hselect

/-! ### The halls screen -/

theorem pagerCallback_ok {condition : Bool} {callback : Result String}
    (h : condition = true → ∃ text, callback = .ok text) :
    ∃ button, pagerCallback condition callback = .ok button := by
  cases condition with
  | false => exact ⟨none, rfl⟩
  | true =>
    obtain ⟨text, htext⟩ := h rfl
    exact ⟨some text, by rw [htext]; rfl⟩

theorem datacenterView_locationId {locationId : String} {item : DatacenterLocationView}
    (h : datacenterView mapping hmac signingKey shop family locationId bucket = .ok item) :
    item.locationId = locationId := by
  obtain ⟨select, -, hdone⟩ := bind_eq_ok.mp h
  rw [← pure_eq_ok.mp hdone]

theorem datacenterView_ok {locationId : String} (bucket : List SellableOffer)
    (h : ∃ callback, familyLocationCallback hmac signingKey shop family locationId = .ok callback) :
    ∃ item, datacenterView mapping hmac signingKey shop family locationId bucket = .ok item := by
  obtain ⟨callback, hcallback⟩ := h
  exact ⟨_, bind_eq_ok.mpr ⟨callback, hcallback, rfl⟩⟩

theorem shownPage_eq {page totalPages : ℕ} (hfirst : 1 ≤ page) (hlast : page ≤ totalPages) :
    shownPage page totalPages = page := by
  unfold shownPage
  omega

section Halls

variable {country label : String} {pageSize : ℤ} (hbucket : bucket ≠ [])
  (hlocations : ∀ hall ∈ sortedHalls bucket,
    ∃ callback, familyLocationCallback hmac signingKey shop family hall.1 = .ok callback)
  (hback : ∃ callback, familyCitiesCallback hmac signingKey shop family 1 = .ok callback)
  (hcancel : ∃ callback, storeNavCallback hmac signingKey "market" [] = .ok callback)
  (hpages : ∀ other, 1 ≤ other →
    other ≤ pageCount (max 1 pageSize).toNat (sortedHalls bucket).length →
    ∃ callback, familyHallsCallback mapping hmac signingKey shop family (orNone country) label
      other = .ok callback)

include hlocations hback hcancel hpages

/-- One page of the halls of a city, when its callbacks fit. -/
theorem hallsPage_ok {page : ℕ} (hfirst : 1 ≤ page)
    (hlast : page ≤ pageCount (max 1 pageSize).toNat (sortedHalls bucket).length) :
    ∃ view, hallsPage mapping hmac signingKey shop family country label bucket page pageSize =
        .ok view ∧ view.items.map (·.locationId) =
        (pageOf (max 1 pageSize).toNat page (sortedHalls bucket)).map Prod.fst ∧
      view.totalPages = pageCount (max 1 pageSize).toNat (sortedHalls bucket).length := by
  obtain ⟨back, hback⟩ := hback
  obtain ⟨cancel, hcancel⟩ := hcancel
  have hviews : ∀ hall ∈ pageOf (max 1 pageSize).toNat page (sortedHalls bucket),
      ∃ item, datacenterView mapping hmac signingKey shop family hall.1 hall.2 = .ok item :=
    fun hall hhall ↦ datacenterView_ok hall.2
      (hlocations hall (List.mem_of_mem_drop (List.mem_of_mem_take hhall)))
  obtain ⟨items, hitems⟩ := mapM_eq_ok_of_forall hviews
  have hprev : ∃ button, pagerCallback (1 < page) (familyHallsCallback mapping hmac signingKey shop
      family (orNone country) label (page - 1)) = .ok button := by
    refine pagerCallback_ok fun hturn ↦ hpages (page - 1) ?_ (by omega)
    have := of_decide_eq_true hturn
    omega
  have hnext : ∃ button, pagerCallback
      (page < pageCount (max 1 pageSize).toNat (sortedHalls bucket).length)
      (familyHallsCallback mapping hmac signingKey shop family (orNone country) label (page + 1)) =
        .ok button :=
    pagerCallback_ok fun hturn ↦ hpages (page + 1) (by omega) (of_decide_eq_true hturn)
  obtain ⟨prev, hprev⟩ := hprev
  obtain ⟨next, hnext⟩ := hnext
  have hids : items.map (·.locationId) =
      (pageOf (max 1 pageSize).toNat page (sortedHalls bucket)).map Prod.fst :=
    map_of_mapM_eq_ok (fun hall _ item hitem ↦ datacenterView_locationId hitem) hitems
  unfold hallsPage
  dsimp only
  rw [shownPage_eq hfirst hlast, hitems, ok_bind, hback, ok_bind, hcancel, ok_bind, hprev, ok_bind,
    hnext, ok_bind]
  exact ⟨_, rfl, hids, rfl⟩

include hbucket in
/-- The pages of the halls of a city, one after the other. -/
theorem hallsPages_ok : ∃ pages : List DatacenterPageView, pages ≠ [] ∧
      (List.range' 1 pages.length).mapM (fun page : ℕ ↦ hallsPage mapping hmac signingKey shop
        family country label bucket page pageSize) = .ok pages ∧
      (∀ page ∈ pages, page.items ≠ [] ∧ page.totalPages = pages.length) ∧
      (pages.flatMap fun page ↦ page.items.map (·.locationId)) =
        (sortedHalls bucket).map Prod.fst := by
  set size := (max 1 pageSize).toNat with hsize
  set total := pageCount size (sortedHalls bucket).length with htotal
  have hpositive : 0 < size := by omega
  have hpage : ∀ page ∈ List.range' 1 total, ∃ view,
      hallsPage mapping hmac signingKey shop family country label bucket page pageSize =
          .ok view ∧
        view.items.map (·.locationId) = (pageOf size page (sortedHalls bucket)).map Prod.fst ∧
        view.totalPages = total := by
    intro page hpage
    obtain ⟨hfirst, hlast⟩ := List.mem_range'_1.mp hpage
    have hle : page ≤ total := by omega
    exact hallsPage_ok hlocations hback hcancel hpages hfirst hle
  obtain ⟨pages, hpagesOk⟩ := mapM_eq_ok_of_forall fun page hmem ↦
    (hpage page hmem).imp fun _ h ↦ h.1
  have hview : ∀ page ∈ List.range' 1 total, ∀ view,
      hallsPage mapping hmac signingKey shop family country label bucket page pageSize =
          .ok view →
        view.items.map (·.locationId) = (pageOf size page (sortedHalls bucket)).map Prod.fst ∧
        view.totalPages = total := by
    intro page hmem view hok
    obtain ⟨other, hother, hfacts⟩ := hpage page hmem
    rw [← Except.ok.inj (hother.symm.trans hok)]
    exact hfacts
  have hids := map_of_mapM_eq_ok (fun page hmem view hok ↦ (hview page hmem view hok).1) hpagesOk
  have hlength : pages.length = total := by
    have := congrArg List.length hids
    rwa [List.length_map, List.length_map, List.length_range'] at this
  have hhalls : sortedHalls bucket ≠ [] := by
    intro hempty
    obtain ⟨offer, hoffer⟩ := List.exists_mem_of_ne_nil bucket hbucket
    have hmem : offer.locationId ∈ (sortedHalls bucket).map Prod.fst :=
      (perm_sortedHalls bucket).mem_iff.mpr
        (List.mem_eraseDups.mpr (List.mem_map_of_mem hoffer))
    rw [hempty] at hmem
    cases hmem
  refine ⟨pages, ?_, ?_, ?_, ?_⟩
  · intro hempty
    rw [hempty, List.length_nil] at hlength
    have : 1 ≤ total := le_max_left _ _
    omega
  · rw [hlength]
    exact hpagesOk
  · intro view hmem
    obtain ⟨page, hrange, hok⟩ := (mem_of_mapM_eq_ok hpagesOk).mp hmem
    obtain ⟨hitems, htotalPages⟩ := hview page hrange view hok
    refine ⟨fun hempty ↦ ?_, htotalPages.trans hlength.symm⟩
    obtain ⟨hfirst, hlast⟩ := List.mem_range'_1.mp hrange
    rw [hempty, List.map_nil] at hitems
    exact pageOf_ne_nil hpositive hhalls hfirst (by omega) (List.map_eq_nil_iff.mp hitems.symm)
  · rw [← flatMap_pageOf hpositive (sortedHalls bucket), List.map_flatMap, List.flatMap_def, hids,
      ← List.flatMap_def]

end Halls

end Groups

/-- The button of a city with several locations leads to a screen that lists exactly them, unless
its country reads like the placeholder of an empty one, another group of the country shares its
slug, or a callback of the screen does not fit on its button. -/
theorem leadsBack_of_onlyGroup {familyKey : String} {page pageSize : ℤ} {view : CityPageView}
    (hview : citiesScreen mapping hmac signingKey shop familyKey page pageSize = .ok view)
    {family : ProviderProductFamily} (hfamily : shop.resolveFamily familyKey = .ok family)
    {group : CityLocationGroup} (hgroup : group ∈ view.items)
    (hmulti : 1 < group.locationIds.length) (hcountry : group.countryCode ≠ some "-")
    (honly : OnlyGroup mapping shop family group) (hallsSize : ℤ)
    (hfit : ButtonsFit mapping hmac signingKey shop family group hallsSize) :
    familyHallsCallback mapping hmac signingKey shop family group.countryCode group.city 1 =
        .ok group.selectCallback ∧
      LeadsTo mapping hmac signingKey shop familyKey (countryArg mapping group.countryCode)
        (citySlug group.city) hallsSize group.locationIds := by
  obtain ⟨other, country, bucket, hemitted⟩ := emitted_of_citiesScreen hview hgroup hmulti
  obtain rfl : other = family := Except.ok.inj (hemitted.resolved.symm.trans hfamily)
  refine ⟨hemitted.button, ?_⟩
  obtain ⟨hbucket, hne⟩ := mem_groupOffersByCity.mp hemitted.current
  obtain ⟨countryCode, hnormal⟩ := exists_country_of_mem hemitted.current
  have hplain : country ≠ "-" := by
    rintro rfl
    exact hcountry hemitted.country_eq
  have htext : textOf group.countryCode = country := by
    rw [hemitted.country_eq, orNone]
    by_cases hempty : country = ""
    · rw [if_pos hempty, hempty]
      rfl
    · rw [if_neg hempty]
      rfl
  have hwanted : countryFromArg mapping (countryArg mapping group.countryCode) = country := by
    rw [hemitted.country_eq]
    exact countryFromArg_countryArg hnormal hplain
  have hmatching := matchingGroups_eq hemitted.current rfl fun candidate hcandidate hsame hslug ↦
    honly candidate hcandidate (hsame.trans htext.symm) hslug
  have hperm := perm_sortedHalls bucket
  rw [← hemitted.locations] at hperm
  have hlength : (sortedHalls bucket).length = group.locationIds.length := by
    rw [← hperm.length_eq, List.length_map]
  have hoffers : shop.familySellableOffers other ≠ [] := by
    intro hempty
    rw [hempty, List.filter_nil] at hbucket
    exact hne hbucket
  have hpages : ∀ number, 1 ≤ number →
      number ≤ pageCount (max 1 hallsSize).toNat (sortedHalls bucket).length →
      ∃ callback, familyHallsCallback mapping hmac signingKey shop other (orNone country) group.city
        number = .ok callback := by
    rw [hlength, ← hemitted.country_eq]
    exact hfit.pages
  obtain ⟨pages, hnonempty, hok, hfull, hids⟩ := hallsPages_ok hne
    (fun hall hhall ↦ hfit.locations hall.1 (hperm.subset (List.mem_map_of_mem hhall)))
    hfit.back hemitted.cancel hpages
  have hscreen : ∀ number : ℕ, cityLocationsScreen mapping hmac signingKey shop familyKey
      (countryArg mapping group.countryCode) (citySlug group.city) number hallsSize =
        hallsPage mapping hmac signingKey shop other country group.city bucket number
          hallsSize := by
    intro number
    unfold cityLocationsScreen
    rw [hfamily, ok_bind]
    dsimp only
    rw [hwanted, hmatching, decide_eq_false hoffers, hbucket]
    rfl
  refine ⟨pages, hnonempty, ?_, hfull, ?_⟩
  · rw [← hok]
    exact congrArg (fun screen ↦ (List.range' 1 pages.length).mapM screen) (funext hscreen)
  · rw [hids]
    exact hperm

end Buttons

/-! ### Two cities of one slug, and a hall that does not fit -/

namespace SampleShop

/-- The digests of the keys of the buttons below under the key "secret". -/
def digests : List (String × String) :=
  [("store:loc_halls:leaseweb:monthly:DE:FRANKFURT:1",
      "58f17c18dd8977f3c17f009812267a974554c06e85b15df17bdc0ae238cba04c"),
    ("store:loc_halls:leaseweb:monthly:DE:ST-INGBERT:1",
      "48ac84899e011be8c1c6acbe45a69f1a741b44e3867470433a6fdecb7d3abb7c"),
    ("store:loc_cities:leaseweb:monthly:1",
      "723b327734b9df095dbc543b11bd7bbdb2d34309820c1474ecd508940a4eff8f"),
    ("store:vps_plans:leaseweb:monthly:FRA-01:1",
      "b123c9795374607fa9bf39813f54755e5ef309b1a38e14e707d564ab7f0f4e8a"),
    ("store:vps_plans:leaseweb:monthly:FRA-10:1",
      "92a22ede4d0d79f9c004de8e1f6a527769c45782092f4f893b886c2cf0508dad"),
    ("store:vps_plans:leaseweb:monthly:FRANKFURT-1:1",
      "1d87f95dbff101f1d2ed374d89bd8dfd48881fdccc0fd9a7ea804efd998ff498"),
    ("store:market", "b6a131634c9eda1354037ea8914444e86aed0c94c0377f535298f6d176af2206"),
    ("store:providers:foreign",
      "f3fe433c488ba3a194a4469bfd223765876804cea118173639aae6183a27e55e")]

def digest (_ message : String) : String :=
  (digests.lookup message).getD ""

def offerAt (locationId : String) : SellableOffer where
  id := ⟨"3c1d4a5e-0000-4000-8000-000000000001", .refl true⟩
  providerKey := "leaseweb"
  productId := "VPS02_1"
  locationId := locationId
  name := "Leaseweb VPS 1"
  providerCostMinor := 499
  providerCostCurrency := "EUR"
  sellingPriceMinor := 624
  sellingCurrency := "EUR"

/-- One offer at each of these locations of Germany, with their cities. -/
def shopOf (cities : List (String × String)) : Storefront where
  providerKey := "leaseweb"
  displayName := "Leaseweb"
  market := some "foreign"
  offers := cities.map fun city ↦ offerAt city.1
  locations := cities.map fun city ↦ ⟨city.1, city.2, some "DE", some city.2⟩

def oneCity : Storefront :=
  shopOf [("FRA-01", "Frankfurt"), ("FRA-10", "Frankfurt")]

def monthly : ProviderProductFamily :=
  ⟨"leaseweb", "monthly", "prepaid_monthly_fixed", "Leaseweb"⟩

def frankfurt : CityLocationGroup where
  countryCode := some "DE"
  city := "Frankfurt"
  locationIds := ["FRA-01", "FRA-10"]
  planCount := 2
  minPriceMinor := some 624
  currency := some "EUR"
  selectCallback := "v1|store:lh:leaseweb:monthly:DE:FRANKFURT:1|58f17c18dd8977f3"

def frankfurtView : CityPageView where
  providerKey := "leaseweb"
  familyKey := "monthly"
  billingModel := "prepaid_monthly_fixed"
  items := [frankfurt]
  page := 1
  totalPages := 1
  totalCount := 1
  backCallback := "v1|store:providers:foreign|f3fe433c488ba3a1"
  cancelCallback := "v1|store:market|b6a131634c9eda13"
  prevCallback := none
  nextCallback := none

theorem exists_of_toBool {α : Type} {outcome : Result α} (h : outcome.toBool = true) :
    ∃ value, outcome = .ok value := by
  cases outcome with
  | ok value => exact ⟨value, rfl⟩
  | error raised => cases h

theorem leadsBack_frankfurt :
    familyHallsCallback asciiCasing digest "secret" oneCity monthly (some "DE") "Frankfurt" 1 =
        .ok frankfurt.selectCallback ∧
      LeadsTo asciiCasing digest "secret" oneCity "monthly" "DE" "FRANKFURT" 6
        ["FRA-01", "FRA-10"] := by
  have hview : citiesScreen asciiCasing digest "secret" oneCity "monthly" 1 6 =
      .ok frankfurtView := by decide +kernel
  have honly : OnlyGroup asciiCasing oneCity monthly frankfurt := by
    unfold OnlyGroup
    decide +kernel
  have hfit : ButtonsFit asciiCasing digest "secret" oneCity monthly frankfurt 6 := by
    refine ⟨exists_of_toBool (by decide +kernel), ?_, fun page hfirst hlast ↦ ?_⟩
    · intro locationId hlocation
      have hall : ∀ locationId ∈ frankfurt.locationIds, (familyLocationCallback digest "secret"
          oneCity monthly locationId).toBool = true := by decide +kernel
      exact exists_of_toBool (hall locationId hlocation)
    · have hone : page = 1 := le_antisymm hlast hfirst
      rw [hone]
      exact exists_of_toBool (by decide +kernel)
  exact leadsBack_of_onlyGroup asciiCasing digest "secret" oneCity hview (by decide +kernel)
    (List.mem_singleton_self frankfurt) (by decide) (by decide) honly 6 hfit

/-- A halls screen that raises leads nowhere. -/
theorem not_leadsTo {shop : Storefront} {country slug : String} {locationIds : List String}
    (h : (cityLocationsScreen asciiCasing digest "secret" shop "monthly" country slug 1 6).toBool =
      false) : ¬ LeadsTo asciiCasing digest "secret" shop "monthly" country slug 6 locationIds := by
  rintro ⟨pages, hne, hok, -⟩
  have hfirst : 1 ∈ List.range' 1 pages.length :=
    List.mem_range'_1.mpr ⟨le_rfl, Nat.lt_add_of_pos_right (List.length_pos_iff.mpr hne)⟩
  obtain ⟨page, hpage⟩ := exists_of_mapM_eq_ok hok hfirst
  change cityLocationsScreen asciiCasing digest "secret" shop "monthly" country slug 1 6 =
    .ok page at hpage
  rw [hpage] at h
  cases h

/-- Two cities of one country share a slug. -/
def twoCities : Storefront :=
  shopOf [("IGB-01", "St Ingbert"), ("IGB-02", "St Ingbert"), ("IGB-11", "St. Ingbert"),
    ("IGB-12", "St. Ingbert")]

/-- The ids of the halls are too long for a button. -/
def longHalls : Storefront :=
  shopOf [("FRANKFURT-1", "Frankfurt"), ("FRANKFURT-2", "Frankfurt")]

/-- The buttons of a cities screen: country, label, locations. -/
def shownGroups (shop : Storefront) : Result (List (Option String × String × List String)) :=
  (citiesScreen asciiCasing digest "secret" shop "monthly" 1 6).map fun view ↦
    view.items.map fun group ↦ (group.countryCode, group.city, group.locationIds)

/-- The buttons of two cities with one slug, and of a city with long hall ids, lead nowhere. -/
theorem not_leadsTo_twoCities :
    shownGroups twoCities = .ok [(some "DE", "St Ingbert", ["IGB-01", "IGB-02"]),
        (some "DE", "St. Ingbert", ["IGB-11", "IGB-12"])] ∧
      shownGroups longHalls = .ok [(some "DE", "Frankfurt", ["FRANKFURT-1", "FRANKFURT-2"])] ∧
      (∀ locationIds, ¬ LeadsTo asciiCasing digest "secret" twoCities "monthly" "DE"
        "ST-INGBERT" 6 locationIds) ∧
      (∀ locationIds, ¬ LeadsTo asciiCasing digest "secret" longHalls "monthly" "DE"
        "FRANKFURT" 6 locationIds) ∧
      ¬ ∀ mapping hmac signingKey shop familyKey page pageSize view,
        citiesScreen mapping hmac signingKey shop familyKey page pageSize = .ok view →
          ∀ group ∈ view.items, 1 < group.locationIds.length → ∀ hallsSize,
            LeadsTo mapping hmac signingKey shop familyKey (countryArg mapping group.countryCode)
              (citySlug group.city) hallsSize group.locationIds := by
  have htwo : ∀ locationIds, ¬ LeadsTo asciiCasing digest "secret" twoCities "monthly" "DE"
      "ST-INGBERT" 6 locationIds := fun _ ↦ not_leadsTo (by decide +kernel)
  have hlong : ∀ locationIds, ¬ LeadsTo asciiCasing digest "secret" longHalls "monthly" "DE"
      "FRANKFURT" 6 locationIds := fun _ ↦ not_leadsTo (by decide +kernel)
  have hshown : shownGroups twoCities = .ok [(some "DE", "St Ingbert", ["IGB-01", "IGB-02"]),
      (some "DE", "St. Ingbert", ["IGB-11", "IGB-12"])] := by decide +kernel
  refine ⟨hshown, by decide +kernel, htwo, hlong, fun h ↦ ?_⟩
  unfold shownGroups at hshown
  cases hview : citiesScreen asciiCasing digest "secret" twoCities "monthly" 1 6 with
  | error raised =>
    rw [hview] at hshown
    cases hshown
  | ok view =>
    rw [hview] at hshown
    have hgroups : view.items.map (fun group ↦ (group.countryCode, group.city, group.locationIds)) =
        _ := Except.ok.inj hshown
    cases hitems : view.items with
    | nil =>
      rw [hitems] at hgroups
      cases hgroups
    | cons group rest =>
      rw [hitems] at hgroups
      obtain ⟨hgroup, -⟩ := List.cons.inj hgroups
      obtain ⟨hcountry, hrest⟩ := Prod.mk.inj hgroup
      obtain ⟨hcity, hlocations⟩ := Prod.mk.inj hrest
      have hleads := h _ _ _ _ _ _ _ _ hview group (hitems ▸ List.mem_cons_self)
        (by rw [hlocations]; decide) 6
      rw [hcountry, hcity] at hleads
      exact htwo _ hleads

end SampleShop

end CloudPlatform.Checkout
