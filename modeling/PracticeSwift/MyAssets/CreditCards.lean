import PracticeSwift.Library.Decoding

/-!
# The amounts of the credit cards

The summary shows a card with one page for the previous, the current and the next month, and takes
the amounts of a page by its position in the decoded list.  The decoder promises nothing about that
list: it may be missing, too short, or hold the months in another order.
-/

namespace PracticeSwift.MyAssets

inductive AssetMenu
  | creditScore
  | bankAccount
  | investment
  | loan
  | insurance
  | creditCard
  | cash
  | realEstate
  deriving DecidableEq

namespace AssetMenu

def rawValue : AssetMenu → String
  | creditScore => "creditScore"
  | bankAccount => "bankAccount"
  | investment => "investment"
  | loan => "loan"
  | insurance => "insurance"
  | creditCard => "creditCard"
  | cash => "cash"
  | realEstate => "realEstate"

def allCases : List AssetMenu :=
  [creditScore, bankAccount, investment, loan, insurance, creditCard, cash, realEstate]

/-- `init(rawValue:)` -/
def ofRawValue (rawValue : String) : Option AssetMenu :=
  allCases.find? fun menu => menu.rawValue = rawValue

def decode (json : Json) : Decoding AssetMenu :=
  Decoding.ofOption (json.string?.bind ofRawValue)

end AssetMenu

inductive CreditCardAmounts
  | previousMonth (amount : String)
  | currentMonth (amount : String)
  | nextMonth (amount : String)
  deriving DecidableEq

namespace CreditCardAmounts

def id : CreditCardAmounts → ℕ
  | previousMonth _ => 0
  | currentMonth _ => 1
  | nextMonth _ => 2

def amount : CreditCardAmounts → String
  | previousMonth amount => amount
  | currentMonth amount => amount
  | nextMonth amount => amount

/-- `init(from:)`: the first of the three keys that holds a string, and `fatalError` if none
does. -/
def decode (json : Json) : Decoding CreditCardAmounts :=
  if json.isObject then
    match Decoding.string json "previousMonth" with
    | .ok value => .ok (previousMonth value)
    | .error _ =>
      match Decoding.string json "currentMonth" with
      | .ok value => .ok (currentMonth value)
      | .error _ =>
        match Decoding.string json "nextMonth" with
        | .ok value => .ok (nextMonth value)
        | .error _ => .error .trapped
  else .error .thrown

end CreditCardAmounts

structure AssetData where
  id : Int64
  title : String
  amount : String
  creditCardAmounts : Option (List CreditCardAmounts)

def AssetData.decode (json : Json) : Decoding AssetData := do
  let id ← Decoding.int json "id"
  let title ← Decoding.string json "title"
  let amount ← Decoding.string json "amount"
  let creditCardAmounts ←
    Decoding.ifPresent (Decoding.array CreditCardAmounts.decode) json "creditCardAmounts"
  return ⟨id, title, amount, creditCardAmounts⟩

structure Asset where
  id : Int64
  type : AssetMenu
  data : List AssetData

def Asset.decode (json : Json) : Decoding Asset := do
  let id ← Decoding.int json "id"
  let type ← Decoding.field AssetMenu.decode json "type"
  let data ← Decoding.field (Decoding.array AssetData.decode) json "data"
  return ⟨id, type, data⟩

/-- `load("assets.json")`, from the parsed file. -/
def load (json : Json) : Decoding (List Asset) := Decoding.array Asset.decode json

/-! ## The card -/

namespace AssetCardSectionView

/-- `data.creditCardAmounts![i]`; `none` is the trap of a missing list or of an index out of
range. -/
def creditCardAmounts (data : AssetData) (i : ℕ) : Option CreditCardAmounts :=
  data.creditCardAmounts.bind fun amounts => amounts[i]?

/-- The titles and amounts on the page of the tab `i`. -/
def page (asset : Asset) (i : ℕ) : Option (List (String × String)) :=
  asset.data.mapM fun data => do
    return (data.title, (← creditCardAmounts data i).amount)

/-- The pages of the tabs `0...2`. -/
def body (asset : Asset) : Option (List (List (String × String))) :=
  [0, 1, 2].mapM (page asset)

end AssetCardSectionView

/-! ## What the decoder accepts -/

/-- The key holds a string. -/
def HasText (json : Json) (key : String) : Prop := ∃ s, json.field key = some (.string s)

/-- The first key with a string is the one of the month `i`. -/
def HoldsMonth (json : Json) : ℕ → Prop
  | 0 => HasText json "previousMonth"
  | 1 => ¬ HasText json "previousMonth" ∧ HasText json "currentMonth"
  | 2 => ¬ HasText json "previousMonth" ∧ ¬ HasText json "currentMonth" ∧ HasText json "nextMonth"
  | _ => False

/-- An entry whose first three amounts are those of the three months in order. -/
def ListsMonths (entry : Json) : Prop :=
  ∃ amounts, entry.field "creditCardAmounts" = some (.array amounts) ∧
    ∀ i < 3, ∃ json, amounts[i]? = some json ∧ HoldsMonth json i

theorem not_hasText_of_field_eq_none {json : Json} {key : String} (h : json.field key = none) :
    ¬ HasText json key := by
  simp [HasText, h]

theorem hasText_of_string_ok {json : Json} {key s : String} (h : Decoding.string json key = .ok s) :
    HasText json key :=
  ⟨s, Decoding.string_eq_ok_iff.1 h⟩

theorem not_hasText_of_string_error {json : Json} {key : String} {failure : DecodingFailure}
    (h : Decoding.string json key = .error failure) : ¬ HasText json key := by
  rintro ⟨s, hs⟩
  rw [Decoding.string_eq_ok_iff.2 hs] at h
  cases h

theorem CreditCardAmounts.id_eq_iff {json : Json} {amounts : CreditCardAmounts}
    (h : decode json = .ok amounts) (i : ℕ) : amounts.id = i ↔ HoldsMonth json i := by
  unfold decode at h
  split_ifs at h
  split at h
  next hprevious =>
    have htext := hasText_of_string_ok hprevious
    obtain rfl := Except.ok.inj h
    rcases i with _ | _ | _ | i <;> simp [id, HoldsMonth, htext]
  next hprevious =>
    have hno := not_hasText_of_string_error hprevious
    split at h
    next hcurrent =>
      have htext := hasText_of_string_ok hcurrent
      obtain rfl := Except.ok.inj h
      rcases i with _ | _ | _ | i <;> simp [id, HoldsMonth, htext, hno]
    next hcurrent =>
      have hno' := not_hasText_of_string_error hcurrent
      split at h
      next hnext =>
        have htext := hasText_of_string_ok hnext
        obtain rfl := Except.ok.inj h
        rcases i with _ | _ | _ | i <;> simp [id, HoldsMonth, htext, hno, hno']
      next => cases h

theorem AssetData.creditCardAmounts_eq_some_iff {entry : Json} {data : AssetData}
    (h : decode entry = .ok data) (amounts : List CreditCardAmounts) :
    data.creditCardAmounts = some amounts ↔
      ∃ elements, entry.field "creditCardAmounts" = some (.array elements) ∧
        List.Forall₂ (fun json a => CreditCardAmounts.decode json = .ok a) elements amounts := by
  simp only [decode, Decoding.bind_eq_ok_iff, Decoding.pure_eq_ok_iff] at h
  obtain ⟨id, -, title, -, amount, -, creditCardAmounts, hamounts, rfl⟩ := h
  have hnull : Decoding.array CreditCardAmounts.decode .null ≠ .ok amounts := by
    simp [Decoding.array]
  show creditCardAmounts = some amounts ↔ _
  rw [← Except.ok.injEq, ← hamounts, Decoding.ifPresent_eq_ok_some_iff hnull]
  simp only [Decoding.array_eq_ok_iff]
  constructor
  · rintro ⟨_, hfield, elements, rfl, hall⟩
    exact ⟨elements, hfield, hall⟩
  · rintro ⟨elements, hfield, hall⟩
    exact ⟨_, hfield, elements, rfl, hall⟩

theorem AssetData.exists_creditCardAmounts {entry : Json} {data : AssetData}
    (h : decode entry = .ok data) {elements : List Json}
    (hfield : entry.field "creditCardAmounts" = some (.array elements)) :
    ∃ amounts, data.creditCardAmounts = some amounts := by
  simp only [decode, Decoding.bind_eq_ok_iff, Decoding.pure_eq_ok_iff, Decoding.ifPresent,
    hfield] at h
  obtain ⟨id, -, title, -, amount, -, _, ⟨amounts, -, rfl⟩, rfl⟩ := h
  exact ⟨amounts, rfl⟩

theorem AssetMenu.eq_string_of_decode {json : Json} {menu : AssetMenu}
    (h : decode json = .ok menu) : json = .string menu.rawValue := by
  rw [decode, Decoding.ofOption_eq_ok_iff] at h
  obtain ⟨s, hs, hmenu⟩ := Option.bind_eq_some_iff.1 h
  obtain rfl : menu.rawValue = s := by simpa using List.find?_some hmenu
  exact Json.string?_eq_some_iff.1 hs

theorem AssetMenu.rawValue_eq_creditCard_iff (menu : AssetMenu) :
    menu.rawValue = "creditCard" ↔ menu = .creditCard := by
  cases menu <;> decide

theorem Asset.type_eq_creditCard_iff {json : Json} {asset : Asset} (h : decode json = .ok asset) :
    asset.type = .creditCard ↔ json.field "type" = some (.string "creditCard") := by
  simp only [decode, Decoding.bind_eq_ok_iff, Decoding.pure_eq_ok_iff,
    Decoding.field_eq_ok_iff] at h
  obtain ⟨id, -, type, ⟨value, hfield, htype⟩, data, -, rfl⟩ := h
  rw [hfield, AssetMenu.eq_string_of_decode htype, Option.some.injEq, Json.string.injEq,
    AssetMenu.rawValue_eq_creditCard_iff]

theorem Asset.data_of_decode {json : Json} {asset : Asset} (h : decode json = .ok asset) :
    ∃ entries, json.field "data" = some (.array entries) ∧
      List.Forall₂ (fun entry data => AssetData.decode entry = .ok data) entries asset.data := by
  simp only [decode, Decoding.bind_eq_ok_iff, Decoding.pure_eq_ok_iff,
    Decoding.field_eq_ok_iff, Decoding.array_eq_ok_iff] at h
  obtain ⟨id, -, type, -, data, ⟨_, hfield, entries, rfl, hall⟩, rfl⟩ := h
  exact ⟨entries, hfield, hall⟩

/-! ## What the card shows -/

namespace AssetCardSectionView

/-- On the page of each tab every card has an amount, that of the month of the tab. -/
structure RendersOwnMonths (asset : Asset) : Prop where
  renders : (body asset).isSome
  ownMonth : ∀ data ∈ asset.data, ∀ i < 3, ∃ amounts,
    creditCardAmounts data i = some amounts ∧ amounts.id = i

theorem isSome_page {asset : Asset} {i : ℕ}
    (h : ∀ data ∈ asset.data, ∃ amounts, creditCardAmounts data i = some amounts) :
    (page asset i).isSome := by
  apply Json.isSome_mapM
  intro data hdata
  obtain ⟨amounts, hamounts⟩ := h data hdata
  simp [hamounts]

/-- The card renders when the amounts are there. -/
theorem rendersOwnMonths_iff (asset : Asset) :
    RendersOwnMonths asset ↔ ∀ data ∈ asset.data, ∀ i < 3, ∃ amounts,
      creditCardAmounts data i = some amounts ∧ amounts.id = i := by
  refine ⟨RendersOwnMonths.ownMonth, fun h => ⟨?_, h⟩⟩
  apply Json.isSome_mapM
  intro i hi
  have hlt : i < 3 := by
    simp only [List.mem_cons, List.not_mem_nil, or_false] at hi
    omega
  apply isSome_page
  intro data hdata
  obtain ⟨amounts, hamounts, -⟩ := h data hdata i hlt
  exact ⟨amounts, hamounts⟩

theorem ownMonth_iff_listsMonths {entry : Json} {data : AssetData}
    (h : AssetData.decode entry = .ok data) :
    (∀ i < 3, ∃ amounts, creditCardAmounts data i = some amounts ∧ amounts.id = i) ↔
      ListsMonths entry := by
  have hat : ∀ amounts elements, data.creditCardAmounts = some amounts →
      List.Forall₂ (fun json a => CreditCardAmounts.decode json = .ok a) elements amounts → ∀ i,
      ((∃ a, creditCardAmounts data i = some a ∧ a.id = i) ↔
        ∃ json, elements[i]? = some json ∧ HoldsMonth json i) := by
    intro amounts elements hamounts hall i
    simp only [creditCardAmounts, hamounts, Option.bind_some]
    exact (Decoding.getElem?_iff_of_forall₂ hall
      (fun json a ha => (CreditCardAmounts.id_eq_iff ha i).symm) i).symm
  constructor
  · intro hmonths
    obtain ⟨_, hfirst, -⟩ := hmonths 0 (by decide)
    obtain ⟨amounts, hamounts, -⟩ := Option.bind_eq_some_iff.1 hfirst
    obtain ⟨elements, hfield, hall⟩ :=
      (AssetData.creditCardAmounts_eq_some_iff h amounts).1 hamounts
    exact ⟨elements, hfield, fun i hi => (hat amounts elements hamounts hall i).1 (hmonths i hi)⟩
  · rintro ⟨elements, hfield, hmonths⟩ i hi
    obtain ⟨amounts, hamounts⟩ := AssetData.exists_creditCardAmounts h hfield
    obtain ⟨elements', hfield', hall⟩ :=
      (AssetData.creditCardAmounts_eq_some_iff h amounts).1 hamounts
    obtain rfl : elements = elements' := by
      simpa using hfield.symm.trans hfield'
    exact (hat amounts elements hamounts hall i).2 (hmonths i hi)

/-- The card of every credit card renders and shows each month on its own page exactly when every
entry of a credit card in the document lists the three months first, in order. -/
theorem creditCards_render_iff {json : Json} {assets : List Asset} (h : load json = .ok assets) :
    (∀ asset ∈ assets, asset.type = .creditCard → RendersOwnMonths asset) ↔
      ∀ elements, json = .array elements → ∀ element ∈ elements,
        element.field "type" = some (.string "creditCard") →
        ∀ entries, element.field "data" = some (.array entries) →
          ∀ entry ∈ entries, ListsMonths entry := by
  obtain ⟨elements, rfl, hall⟩ := Decoding.array_eq_ok_iff.1 h
  have hasset : ∀ element asset, Asset.decode element = .ok asset →
      ((element.field "type" = some (.string "creditCard") → ∀ entries,
        element.field "data" = some (.array entries) → ∀ entry ∈ entries, ListsMonths entry) ↔
      (asset.type = .creditCard → RendersOwnMonths asset)) := by
    intro element asset hdecode
    rw [Asset.type_eq_creditCard_iff hdecode, rendersOwnMonths_iff]
    obtain ⟨entries, hfield, hentries⟩ := Asset.data_of_decode hdecode
    simp only [hfield, Option.some.injEq, Json.array.injEq, forall_eq']
    rw [Decoding.forall_mem_iff_of_forall₂ hentries
      fun entry data hdata => (ownMonth_iff_listsMonths hdata).symm]
  simp only [Json.array.injEq, forall_eq']
  exact (Decoding.forall_mem_iff_of_forall₂ hall hasset).symm

/-- One credit card, with these further fields. -/
def document (fields : List (String × Json)) : Json :=
  .array [.object [("id", .number 5), ("type", .string "creditCard"), ("data", .array [.object
    ([("id", .number 0), ("title", .string "현대카드"), ("amount", .string "0원")] ++ fields)])]]

def creditCard (amounts : Option (List CreditCardAmounts)) : Asset where
  id := 5
  type := .creditCard
  data := [⟨0, "현대카드", "0원", amounts⟩]

/-- The amounts of the three months, as in the bundled file. -/
def months : List Json :=
  [.object [("previousMonth", .string "10,000원")], .object [("currentMonth", .string "45,000원")],
    .object [("nextMonth", .string "100,400원")]]

theorem holdsMonth_months (i : ℕ) (hi : i < 3) :
    ∃ json, months[i]? = some json ∧ HoldsMonth json i := by
  rcases i with _ | _ | _ | i
  · exact ⟨_, rfl, "10,000원", rfl⟩
  · exact ⟨_, rfl, not_hasText_of_field_eq_none rfl, "45,000원", rfl⟩
  · exact ⟨_, rfl, not_hasText_of_field_eq_none rfl, not_hasText_of_field_eq_none rfl,
      "100,400원", rfl⟩
  · omega

theorem creditCards_render_iff_bundled :
    RendersOwnMonths (creditCard (some [.previousMonth "10,000원", .currentMonth "45,000원",
      .nextMonth "100,400원"])) := by
  have hload : load (document [("creditCardAmounts", .array months)]) = .ok _ := rfl
  apply (creditCards_render_iff hload).2 _ _ List.mem_cons_self rfl
  rintro _ ⟨⟩ _ (_ | ⟨_, ⟨⟩⟩) - _ ⟨⟩ _ (_ | ⟨_, ⟨⟩⟩)
  exact ⟨months, rfl, holdsMonth_months⟩

/-- A credit card without amounts is accepted, and its card does not render. -/
theorem accepted_not_rendered :
    ¬ ∀ (json : Json) (assets : List Asset), load json = .ok assets →
      ∀ asset ∈ assets, asset.type = .creditCard → RendersOwnMonths asset := by
  intro h
  have hcard := h (document []) [creditCard none] rfl _ List.mem_cons_self rfl
  have hrenders := hcard.renders
  revert hrenders
  decide

end AssetCardSectionView

end PracticeSwift.MyAssets
