import GhostApi.Js.Date
import GhostApi.Js.Number
import GhostApi.Js.Value
import Mathlib.Data.List.Nodup

/-!
# Lists of Stripe resources

The page that stripeList cuts out of a list of resources, for a client that
follows starting_after or asks for what comes before an element.
-/

namespace GhostApi.Stripe

open Js

def readPositiveInteger : JsValue → Option Nat
  | .number (.integer z) => if 0 < z then some z.toNat else none
  | .string s =>
    let parsed := Date.number s.toList
    if !s.isEmpty && s.toList.all isDigit && decide (parsed ≤ MAX_SAFE_INTEGER) && decide (0 < parsed) then
      some parsed.toNat
    else none
  | _ => none

/-- The body of a response to a list request; its object member is "list". -/
structure ListBody where
  data : List Fields
  has_more : Bool
  url : String

structure ListResponse where
  status : Nat
  body : ListBody

def hasId (id : String) (value : Fields) : Bool := match value.get "id" with
  | .string other => other == id
  | _ => false

/-- The index after an element, or where the list would start otherwise. -/
def afterCursor (values : List Fields) (start : Nat) : JsValue → Nat
  | .string id => match values.findIdx? (hasId id) with
    | some index => index + 1
    | none => start
  | _ => start

def beforeCursor (values : List Fields) (limit start : Nat) : JsValue → Nat
  | .string id => match values.findIdx? (hasId id) with
    | some index => index - limit
    | none => start
  | _ => start

def stripeList (url : String) (values : List Fields) (query : Fields) : ListResponse :=
  let limit := min (max ((readPositiveInteger (query.get "limit")).getD 10) 1) 100
  let start := afterCursor values 0 (query.get "starting_after")
  let start := beforeCursor values limit start (query.get "ending_before")
  ⟨200, (values.drop start).take limit, decide (start + limit < values.length), url⟩

def lastId (data : List Fields) : JsValue := match data.getLast? with
  | some value => value.get "id"
  | none => .undefined

/-- The pages of a client that follows starting_after while has_more is true. -/
def follow (url : String) (values : List Fields) (limit : JsValue) : Nat → JsValue → Option (List (List Fields))
  | 0, _ => none
  | fuel + 1, cursor =>
    let body := (stripeList url values [("limit", limit), ("starting_after", cursor)]).body
    if body.has_more then (follow url values limit fuel (lastId body.data)).map (body.data :: ·) else some [body.data]

def Distinct (values : List Fields) : Prop :=
  ∃ ids : List String, values.map (·.get "id") = ids.map JsValue.string ∧ ids.Nodup

theorem pos_of_readPositiveInteger {value : JsValue} {n : Nat} (h : readPositiveInteger value = some n) : 0 < n := by
  cases value with
  | number number =>
    cases number with
    | integer z =>
      rw [readPositiveInteger] at h
      split at h
      · cases h
        omega
      · cases h
    | fraction text => cases h
    | nonFinite => cases h
  | string s =>
    simp only [readPositiveInteger, Option.ite_none_right_eq_some, Bool.and_eq_true, decide_eq_true_eq] at h
    obtain ⟨⟨_, hPos⟩, h⟩ := h
    cases h
    omega
  | _ => cases h

variable {url : String} {values : List Fields} {limitValue : JsValue} {limit : Nat}

theorem findIdx?_hasId (hDistinct : Distinct values) {index : Nat} (hIndex : index < values.length) :
    ∃ id, values[index].get "id" = .string id ∧ values.findIdx? (hasId id) = some index := by
  obtain ⟨ids, hIds, hNodup⟩ := hDistinct
  have hLength : values.length = ids.length := by simpa using congrArg List.length hIds
  have hAt : ∀ i (hi : i < values.length), values[i].get "id" = .string (ids.get ⟨i, hLength ▸ hi⟩) := by
    intro i hi
    have hSame := List.getElem_of_eq hIds (i := i) (by simpa using hi)
    simpa using hSame
  refine ⟨_, hAt index hIndex, ?_⟩
  rw [List.findIdx?_eq_some_iff_getElem]
  refine ⟨hIndex, by simp [hasId, hAt index hIndex], fun j hj hSame => ?_⟩
  rw [hasId, hAt j (by omega)] at hSame
  have hEqual := hNodup.getElem_inj_iff.mp (beq_iff_eq.mp hSame)
  omega

/-- The element before an index, whose id starts a page there. -/
def cursorAt (values : List Fields) (start : Nat) : JsValue := match start with
  | 0 => .undefined
  | before + 1 => (values.getD before []).get "id"

theorem afterCursor_cursorAt (hDistinct : Distinct values) {start : Nat} (hStart : start ≤ values.length) :
    afterCursor values 0 (cursorAt values start) = start := by
  cases start with
  | zero => rfl
  | succ before =>
    obtain ⟨id, hId, hFound⟩ := findIdx?_hasId hDistinct hStart
    rw [cursorAt, List.getD_eq_getElem?_getD, List.getElem?_eq_getElem hStart, Option.getD_some, hId]
    simp only [afterCursor, hFound]

theorem clampedLimit (hRead : readPositiveInteger limitValue = some limit) (hLimit : limit ≤ 100) :
    min (max ((readPositiveInteger limitValue).getD 10) 1) 100 = limit := by
  have hPos := pos_of_readPositiveInteger hRead
  rw [hRead, Option.getD_some]
  omega

theorem stripeList_after (hDistinct : Distinct values) (hRead : readPositiveInteger limitValue = some limit)
    (hLimit : limit ≤ 100) {start : Nat} (hStart : start ≤ values.length) :
    (stripeList url values [("limit", limitValue), ("starting_after", cursorAt values start)]).body =
      ⟨(values.drop start).take limit, decide (start + limit < values.length), url⟩ := by
  have hGet : Fields.get [("limit", limitValue), ("starting_after", cursorAt values start)] "starting_after" =
      cursorAt values start := rfl
  have hBefore : Fields.get [("limit", limitValue), ("starting_after", cursorAt values start)] "ending_before" =
      .undefined := rfl
  have hLimitGet : Fields.get [("limit", limitValue), ("starting_after", cursorAt values start)] "limit" =
      limitValue := rfl
  simp only [stripeList, hGet, hBefore, hLimitGet, clampedLimit hRead hLimit, afterCursor_cursorAt hDistinct hStart,
    beforeCursor]

theorem lastId_page {start : Nat} (hMore : start + limit < values.length) (hPos : 0 < limit) :
    lastId ((values.drop start).take limit) = cursorAt values (start + limit) := by
  obtain ⟨before, rfl⟩ : ∃ before, limit = before + 1 := ⟨limit - 1, by omega⟩
  have hIndexed : start + before < values.length := by omega
  have hLast : ((values.drop start).take (before + 1)).getLast? = some values[start + before] := by
    rw [List.getLast?_eq_getElem?, List.length_take, List.length_drop]
    have hIndex : min (before + 1) (values.length - start) - 1 = before := by omega
    rw [hIndex, List.getElem?_take_of_lt (by omega), List.getElem?_drop, List.getElem?_eq_getElem (by omega)]
  rw [lastId, hLast, ← Nat.add_assoc, cursorAt, List.getD_eq_getElem?_getD, List.getElem?_eq_getElem (by omega),
    Option.getD_some]

theorem follow_cursorAt (hDistinct : Distinct values) (hRead : readPositiveInteger limitValue = some limit)
    (hLimit : limit ≤ 100) {fuel start : Nat} (hStart : start ≤ values.length)
    (hFuel : values.length < fuel + start) :
    ∃ pages, follow url values limitValue fuel (cursorAt values start) = some pages ∧
      pages.flatten = values.drop start := by
  have hPos := pos_of_readPositiveInteger hRead
  induction fuel generalizing start with
  | zero => omega
  | succ fuel ih =>
    rw [follow, stripeList_after hDistinct hRead hLimit hStart]
    by_cases hMore : start + limit < values.length
    · obtain ⟨pages, hPages, hRest⟩ : ∃ pages,
          follow url values limitValue fuel (cursorAt values (start + limit)) = some pages ∧
            pages.flatten = values.drop (start + limit) := ih (by omega) (by omega)
      refine ⟨(values.drop start).take limit :: pages, ?_, ?_⟩
      · simp only [hMore, decide_true, if_true, lastId_page hMore hPos, hPages, Option.map_some]
      · rw [List.flatten_cons, hRest, ← List.drop_drop, List.take_append_drop]
    · refine ⟨[(values.drop start).take limit], by simp [hMore], ?_⟩
      have hAll : (values.drop start).length ≤ limit := by
        rw [List.length_drop]
        omega
      simp [List.take_of_length_le hAll]

theorem stripeList_before (hDistinct : Distinct values) {query : Fields}
    (hRead : readPositiveInteger (query.get "limit") = some limit) (hLimit : limit ≤ 100) {index : Nat}
    (hIndex : index < values.length) (hBefore : query.get "ending_before" = values[index].get "id") :
    (stripeList url values query).body.data = (values.drop (index - limit)).take limit := by
  obtain ⟨id, hId, hFound⟩ := findIdx?_hasId hDistinct hIndex
  simp only [stripeList, clampedLimit hRead hLimit, hBefore, hId, beforeCursor, hFound]

theorem page_before_iff {index : Nat} (hIndex : index < values.length) :
    (values.drop (index - limit)).take limit = (values.take index).drop (index - limit) ↔ limit ≤ index := by
  constructor
  · intro hSame
    have hLengths := congrArg List.length hSame
    simp only [List.length_take, List.length_drop] at hLengths
    omega
  · intro hLimit
    rw [List.drop_take]
    congr 1
    omega

/-- Following starting_after visits the whole list; ending_before gives exactly the elements
before the cursor when at least limit elements stand there, and otherwise the cursor's too. -/
theorem stripeList_pages (url : String) (values : List Fields) (limitValue : JsValue) (limit : Nat)
    (hDistinct : Distinct values) (hRead : readPositiveInteger limitValue = some limit) (hLimit : limit ≤ 100) :
    (∀ fuel, values.length < fuel →
      ∃ pages, follow url values limitValue fuel .undefined = some pages ∧ pages.flatten = values) ∧
    ∀ (query : Fields) (index : Nat) (hIndex : index < values.length), query.get "limit" = limitValue →
      query.get "ending_before" = values[index].get "id" →
      ((stripeList url values query).body.data = (values.take index).drop (index - limit) ↔ limit ≤ index) := by
  constructor
  · intro fuel hFuel
    exact follow_cursorAt hDistinct hRead hLimit (Nat.zero_le _) hFuel
  · intro query index hIndex hGet hBefore
    rw [stripeList_before hDistinct (hGet ▸ hRead) hLimit hIndex hBefore]
    exact page_before_iff hIndex

def customers : List Fields := [[("id", .string "cus_3")], [("id", .string "cus_2")], [("id", .string "cus_1")]]

theorem customers_distinct : Distinct customers := by
  refine ⟨["cus_3", "cus_2", "cus_1"], rfl, by decide⟩

theorem customers_pages :
    ∃ pages, follow "/v1/customers" customers (.string "2") 4 .undefined = some pages ∧ pages.flatten = customers := by
  have hPages := stripeList_pages "/v1/customers" customers (.string "2") 2 customers_distinct (by decide +kernel) (by decide)
  exact hPages.1 4 (by decide)

/-- Before the first element the page is not empty: it starts with that element. -/
theorem first_before_itself :
    Distinct customers ∧ customers[0].get "id" = .string "cus_3" ∧
      (stripeList "/v1/customers" customers [("limit", .string "2"), ("ending_before", .string "cus_3")]).body.data =
        [customers[0], customers[1]] := by
  exact ⟨customers_distinct, rfl, rfl⟩

end GhostApi.Stripe
