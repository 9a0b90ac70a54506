import TypeSketch.Proofs.Number.Rounding
import TypeSketch.Proofs.Record.Equality
import TypeSketch.Proofs.Record.Laying

/-!
# Records — JSON values in them, as they are shown

A JSON value is put into a record as the value nearest to it, and a record is shown as JSON.  On the
way a whole number of 64 bits becomes a floating one, since whole values are signed; inside an
object nothing changes, since an object stays JSON.  So what is shown of a value is `Json.shown`
(`Value.toJson_ofJson`), which is the value itself just when it has no such number
(`Json.shown_eq_self_iff`).

The numbers in a value have to be such as a reader of JSON makes (`Json.InRange`), since a number
out of range would not be shown at all. The last part is about values that go on: to add to a value
in a record is to add to it outside (`Value.extended_ofJson`).
-/

namespace TypeSketch

namespace Json

/-- The items of an array; any other value is its own only item. -/
def elements : Json → List Json
  | arr items => items
  | j => [j]

/-- An array goes on with more items; any other value stays. -/
def extended (more : List Json) : Json → Json
  | arr items => arr (items ++ more)
  | j => j

/-- The numbers in a value are such as JSON has: whole numbers fit 64 bits, and floating numbers are
finite. -/
inductive InRange : Json → Prop
  | null : InRange null
  | bool (b : Bool) : InRange (bool b)
  | int {n : Int} (hmin : minInt ≤ n) (hmax : n ≤ maxNat) : InRange (int n)
  | float {x : Binary64} (hfinite : x.isFinite = true) : InRange (float x)
  | str (s : String) : InRange (str s)
  | arr {items : List Json} (h : ∀ j ∈ items, InRange j) : InRange (arr items)
  | obj {members : List (String × Json)} (h : ∀ m ∈ members, InRange m.2) : InRange (obj members)

mutual

/-- The value as a record shows it: a whole number that is no signed one, and that no object holds,
is the floating number nearest to it. -/
def shown : Json → Json
  | .int n => if n ≤ maxInt then .int n else .float (Binary64.ofInt n)
  | .arr items => .arr (shownItems items)
  | j => j

/-- The items as a record shows them. -/
def shownItems : List Json → List Json
  | [] => []
  | j :: js => shown j :: shownItems js

end

mutual

/-- The whole numbers in a value that no object holds. -/
def bareWholes : Json → List Int
  | .int n => [n]
  | .arr items => bareWholesIn items
  | _ => []

/-- The whole numbers in items that no object holds. -/
def bareWholesIn : List Json → List Int
  | [] => []
  | j :: js => bareWholes j ++ bareWholesIn js

end

mutual

/-- A value is shown unchanged just when no whole number that no object holds is too large. -/
theorem shown_eq_self_iff : ∀ j : Json, j.shown = j ↔ ∀ n ∈ j.bareWholes, n ≤ maxInt
  | .null | .bool _ | .float _ | .str _ | .obj _ => by simp [shown, bareWholes]
  | .int n => by
    rw [shown, bareWholes, List.forall_mem_singleton]
    by_cases h : n ≤ maxInt
    · simp [h]
    · simp [h]
  | .arr items => by rw [shown, bareWholes, arr.injEq, shownItems_eq_self_iff items]

/-- Items are shown unchanged just when no whole number among them that no object holds is too
large. -/
theorem shownItems_eq_self_iff :
    ∀ js : List Json, shownItems js = js ↔ ∀ n ∈ bareWholesIn js, n ≤ maxInt
  | [] => by simp [shownItems, bareWholesIn]
  | j :: js => by
    rw [shownItems, bareWholesIn, List.cons.injEq, shown_eq_self_iff j, shownItems_eq_self_iff js,
      List.forall_mem_append]

end

theorem InRange.elements {j : Json} (h : j.InRange) : ∀ x ∈ j.elements, x.InRange := by
  cases j with
  | arr items => cases h with | arr h => exact h
  | _ => exact List.forall_mem_singleton.mpr h

theorem InRange.extended {j : Json} {more : List Json} (h : j.InRange)
    (hmore : ∀ x ∈ more, x.InRange) : (j.extended more).InRange := by
  cases j with
  | arr items => cases h with | arr h => exact .arr (List.forall_mem_append.mpr ⟨h, hmore⟩)
  | _ => exact h

/-- A whole number of 64 bits is near to a finite floating one. -/
theorem isFinite_ofInt {n : Int} (hmin : minInt ≤ n) (hmax : n ≤ maxNat) :
    (Binary64.ofInt n).isFinite = true := by
  refine Binary64.isFinite_ofInt ?_
  by_cases hn : n.natAbs = 0
  · rw [hn]
    decide
  have hlt : n.natAbs < 2 ^ 64 := by
    simp only [minInt, maxNat] at hmin hmax
    omega
  have hlog := (Nat.log2_lt hn).mpr hlt
  omega

end Json

namespace Value

mutual

/-- A JSON value in a record is shown as `Json.shown` says. -/
theorem toJson_ofJson : ∀ {j : Json}, j.InRange → (ofJson j).toJson = j.shown
  | .null, _ | .bool _, _ | .str _, _ | .obj _, _ => by simp [ofJson, toJson, Json.shown]
  | .int n, h => by
    cases h with
    | int hmin hmax =>
      rw [ofJson, Json.shown]
      split
      · rw [toJson]
      · rw [toJson, Json.isFinite_ofInt hmin hmax, if_pos rfl]
  | .float x, h => by
    cases h with | float hfinite =>
      rw [ofJson, toJson, hfinite, if_pos rfl]
      rfl
  | .arr items, h => by
    cases h with | arr h => rw [ofJson, toJson, Json.shown, itemsToJson_ofJsonItems h]

/-- JSON items in a record are shown as `Json.shownItems` says. -/
theorem itemsToJson_ofJsonItems :
    ∀ {js : List Json}, (∀ j ∈ js, j.InRange) → itemsToJson (ofJsonItems js) = Json.shownItems js
  | [], _ => rfl
  | j :: js, h => by
    obtain ⟨hj, hjs⟩ := List.forall_mem_cons.mp h
    rw [ofJsonItems, itemsToJson, Json.shownItems, toJson_ofJson hj, itemsToJson_ofJsonItems hjs]

end

/-- The view of a record shows what a key holds. -/
theorem get?_recordToJson (r : Record Value) (key : String) :
    (recordToJson r).get? key = (r.get? key).map toJson := by
  rw [recordToJson_eq, Json.get?, Assoc.lookup_mapValues, Record.get?_eq_lookup]

/-! ### Values that go on -/

theorem ofJsonItems_eq (js : List Json) : ofJsonItems js = js.map ofJson := by
  induction js with
  | nil => rfl
  | cons j js ih => rw [ofJsonItems, ih, List.map_cons]

/-- A JSON value has the items in a record that it has outside. -/
theorem elements_ofJson (j : Json) : (ofJson j).elements = j.elements.map ofJson := by
  cases j with
  | arr items => rw [ofJson, elements, Json.elements, ofJsonItems_eq]
  | int n =>
    have hself : (Json.int n).elements = [.int n] := rfl
    rw [hself, List.map_singleton, ofJson]
    split <;> rfl
  | _ => rfl

/-- A JSON value goes on in a record as it does outside. -/
theorem extended_ofJson (j : Json) (more : List Json) :
    (ofJson j).extended (more.map ofJson) = ofJson (j.extended more) := by
  cases j with
  | arr items =>
    rw [Json.extended, ofJson, ofJson, extended_list, ofJsonItems_eq, ofJsonItems_eq,
      List.map_append]
  | int n =>
    have hself : (Json.int n).extended more = .int n := rfl
    rw [hself, ofJson]
    split <;> rfl
  | _ => rfl

end Value

end TypeSketch
