import TypeSketch.Proofs.Json.Reading
import TypeSketch.Proofs.Table

/-!
# Reading JSON — the keys that a walk meets

The outline of a text has all its names, and a walk over the shape of its value passes over some of
them: those inside later items of an array (`Outline.keys`).  Where no object repeats a name, a walk
meets the others in the order of the text (`walkedKeys_of_settle?`).  An object that repeats a name
has one member for it, and so a walk never meets a name more often than the text has it
(`count_walkedKeys_le`).

The three parts of every statement are the three functions that the outline is read by: for a value,
for items and for members. They are proved by one induction, in which an item that is not the first
is walked by no walk.
-/

namespace TypeSketch.Json

/-- The keys in a value, of which all are walked or none. -/
abbrev keysOfValue (walked : Bool) (v : Json) : List (String × Bool) :=
  v.walkedKeys.map fun name => (name, walked)

namespace Outline

mutual

/-- The keys in an outline in the order of the text, and whether a walk meets them. -/
def keys (walked : Bool) : Outline → List (String × Bool)
  | .scalar v => keysOfValue walked v
  | .arr items _ => keysOfItems walked items
  | .obj members _ => keysOfMembers walked members
  | _ => []

/-- The keys in items. A walk goes into the first one only. -/
def keysOfItems (walked : Bool) : List Outline → List (String × Bool)
  | [] => []
  | o :: rest => o.keys walked ++ keysOfItems false rest

/-- The keys of members, and those in their values. -/
def keysOfMembers (walked : Bool) : List (Option String × Outline) → List (String × Bool)
  | [] => []
  | (name, o) :: rest =>
    (name.toList.map fun name => (name, walked)) ++ o.keys walked ++ keysOfMembers walked rest

end

mutual

/-- No object of the outline repeats a name. -/
def isDistinct : Outline → Bool
  | .arr items _ => areDistinct items
  | .obj members _ => decide (members.map Prod.fst).Nodup && membersAreDistinct members
  | _ => true

/-- No object in the items repeats a name. -/
def areDistinct : List Outline → Bool
  | [] => true
  | o :: rest => o.isDistinct && areDistinct rest

/-- No object in the values of the members repeats a name. -/
def membersAreDistinct : List (Option String × Outline) → Bool
  | [] => true
  | (_, o) :: rest => o.isDistinct && membersAreDistinct rest

end

/-! ### Keys and names -/

theorem map_fst_keysOfValue (walked : Bool) (v : Json) :
    (keysOfValue walked v).map Prod.fst = v.walkedKeys :=
  (List.map_map ..).trans (List.map_id _)

mutual

/-- Whether they are walked or not, the keys in an outline are its names. -/
theorem map_fst_keys (walked : Bool) : ∀ o : Outline, (o.keys walked).map Prod.fst = o.names
  | .scalar v => map_fst_keysOfValue walked v
  | .arr items _ => map_fst_keysOfItems walked items
  | .obj members _ => map_fst_keysOfMembers walked members
  | .lapse => rfl
  | .broken => rfl

/-- Whether they are walked or not, the keys in items are their names. -/
theorem map_fst_keysOfItems (walked : Bool) :
    ∀ items : List Outline, (keysOfItems walked items).map Prod.fst = namesOfItems items
  | [] => rfl
  | o :: rest => by
    rw [keysOfItems, namesOfItems, List.map_append, map_fst_keys walked o,
      map_fst_keysOfItems false rest]

/-- Whether they are walked or not, the keys of members are their names. -/
theorem map_fst_keysOfMembers (walked : Bool) : ∀ members : List (Option String × Outline),
    (keysOfMembers walked members).map Prod.fst = namesOfMembers members
  | [] => rfl
  | (name, o) :: rest => by
    rw [keysOfMembers, namesOfMembers, List.map_append, List.map_append, map_fst_keys walked o,
      map_fst_keysOfMembers walked rest]
    cases name <;> rfl

end

mutual

/-- In an outline that is passed over no key is walked. -/
theorem filter_keys_false : ∀ o : Outline, (o.keys false).filter Prod.snd = []
  | .scalar v => List.filter_eq_nil_iff.mpr (by simp [keys])
  | .arr items _ => filter_keysOfItems_false items
  | .obj members _ => filter_keysOfMembers_false members
  | .lapse => rfl
  | .broken => rfl

/-- In items that are passed over no key is walked. -/
theorem filter_keysOfItems_false :
    ∀ items : List Outline, (keysOfItems false items).filter Prod.snd = []
  | [] => rfl
  | o :: rest => by
    rw [keysOfItems, List.filter_append, filter_keys_false o, filter_keysOfItems_false rest]
    rfl

/-- In members that are passed over no key is walked. -/
theorem filter_keysOfMembers_false : ∀ members : List (Option String × Outline),
    (keysOfMembers false members).filter Prod.snd = []
  | [] => rfl
  | (name, o) :: rest => by
    rw [keysOfMembers, List.filter_append, List.filter_append, filter_keys_false o,
      filter_keysOfMembers_false rest]
    cases name <;> rfl

end

/-! ### The keys of the value -/

/-- The members of an object that settles. -/
theorem exists_of_settleMembers? {name : Option String} {o : Outline}
    {rest : List (Option String × Outline)} {ms : List (String × Json)}
    (h : settleMembers? ((name, o) :: rest) = some ms) :
    ∃ k v ms', name = some k ∧ o.settle? = some v ∧ settleMembers? rest = some ms' ∧
      ms = (k, v) :: ms' := by
  rw [settleMembers?] at h
  obtain ⟨k, hk, h⟩ := Option.bind_eq_some_iff.mp h
  obtain ⟨v, hv, h⟩ := Option.bind_eq_some_iff.mp h
  obtain ⟨ms', hms, h⟩ := Option.bind_eq_some_iff.mp h
  cases h
  exact ⟨k, v, ms', hk, hv, hms, rfl⟩

/-- The items of an array that settles. -/
theorem exists_of_settleItems? {o : Outline} {rest : List Outline} {vs : List Json}
    (h : settleItems? (o :: rest) = some vs) :
    ∃ v vs', o.settle? = some v ∧ settleItems? rest = some vs' ∧ vs = v :: vs' := by
  rw [settleItems?] at h
  obtain ⟨v, hv, h⟩ := Option.bind_eq_some_iff.mp h
  obtain ⟨vs', hvs, h⟩ := Option.bind_eq_some_iff.mp h
  cases h
  exact ⟨v, vs', hv, hvs, rfl⟩

/-- Members that settle have their names. -/
theorem map_fst_of_settleMembers? {members : List (Option String × Outline)}
    {ms : List (String × Json)} (h : settleMembers? members = some ms) :
    members.map Prod.fst = (ms.map Prod.fst).map some := by
  induction members generalizing ms with
  | nil =>
    cases h
    rfl
  | cons m rest ih =>
    obtain ⟨name, o⟩ := m
    obtain ⟨k, v, ms', rfl, -, hms, rfl⟩ := exists_of_settleMembers? h
    rw [List.map_cons, ih hms]
    rfl

/-- An object that repeats no name has all its members. -/
theorem ofList_of_settleMembers? {members : List (Option String × Outline)}
    {ms : List (String × Json)} (hnodup : (members.map Prod.fst).Nodup)
    (h : settleMembers? members = some ms) : Assoc.ofList ms = ms := by
  rw [map_fst_of_settleMembers? h] at hnodup
  exact Assoc.ofList_of_nodup hnodup.of_map

mutual

/-- A walk meets the keys of a text in their order, but for those that it passes over. -/
theorem walkedKeys_of_settle? : ∀ {o : Outline} {v : Json}, o.settle? = some v →
    o.isDistinct = true → v.walkedKeys = ((o.keys true).filter Prod.snd).map Prod.fst
  | .scalar v, _, h, _ => by
    cases h
    rw [keys, List.filter_eq_self.mpr (by simp), map_fst_keysOfValue]
  | .arr [] false, _, h, _ => by
    cases h
    rfl
  | .arr (o :: rest) false, _, h, hdistinct => by
    obtain ⟨vs, hvs, rfl⟩ := Option.map_eq_some_iff.mp h
    obtain ⟨v, vs', hv, -, rfl⟩ := exists_of_settleItems? hvs
    have hfirst := walkedKeys_of_settle? hv (Bool.and_eq_true_iff.mp hdistinct).1
    rw [keys, keysOfItems, List.filter_append, filter_keysOfItems_false, List.append_nil]
    exact hfirst
  | .obj members none, _, h, hdistinct => by
    obtain ⟨ms, hms, rfl⟩ := Option.map_eq_some_iff.mp h
    obtain ⟨hnodup, hmembers⟩ := Bool.and_eq_true_iff.mp hdistinct
    rw [ofList_of_settleMembers? (of_decide_eq_true hnodup) hms, keys]
    exact walkedKeys_of_settleMembers? hms hmembers
  | .arr _ true, _, h, _ => by cases h
  | .obj _ (some _), _, h, _ => by cases h
  | .lapse, _, h, _ => by cases h
  | .broken, _, h, _ => by cases h

/-- A walk meets the keys of members in their order, but for those that it passes over. -/
theorem walkedKeys_of_settleMembers? :
    ∀ {members : List (Option String × Outline)} {ms : List (String × Json)},
      settleMembers? members = some ms → membersAreDistinct members = true →
        walkedKeys.ofMembers ms = ((keysOfMembers true members).filter Prod.snd).map Prod.fst
  | [], _, h, _ => by
    cases h
    rfl
  | (name, o) :: rest, _, h, hdistinct => by
    obtain ⟨k, v, ms', rfl, hv, hms, rfl⟩ := exists_of_settleMembers? h
    obtain ⟨ho, hrest⟩ := Bool.and_eq_true_iff.mp hdistinct
    rw [walkedKeys.ofMembers, walkedKeys_of_settle? hv ho, walkedKeys_of_settleMembers? hms hrest,
      keysOfMembers, List.filter_append, List.filter_append, List.map_append, List.map_append]
    rfl

end

/-! ### Names that are repeated -/

/-- One more member brings a name at most as often as it and its value have it. -/
theorem count_ofMembers_put_le (name k : String) (v : Json) (ms : List (String × Json)) :
    (walkedKeys.ofMembers (Assoc.put k v ms)).count name ≤
      (walkedKeys.ofMembers ms).count name + (k :: v.walkedKeys).count name := by
  induction ms with
  | nil =>
    simp [Assoc.put, walkedKeys.ofMembers]
  | cons m rest ih =>
    obtain ⟨k', v'⟩ := m
    rw [Assoc.put]
    split
    · next hk =>
      simp only [walkedKeys.ofMembers, eq_of_beq hk, List.count_cons, List.count_append]
      omega
    · simp only [walkedKeys.ofMembers, List.count_cons, List.count_append] at ih ⊢
      omega

/-- More members bring a name at most as often as they and their values have it. -/
theorem count_ofMembers_putAll_le (name : String) (es ms : List (String × Json)) :
    (walkedKeys.ofMembers (Assoc.putAll es ms)).count name ≤
      (walkedKeys.ofMembers ms).count name + (walkedKeys.ofMembers es).count name := by
  induction es generalizing ms with
  | nil => exact Nat.le_refl _
  | cons e es ih =>
    obtain ⟨k, v⟩ := e
    have hput := count_ofMembers_put_le name k v ms
    have hrest := ih (Assoc.put k v ms)
    simp only [walkedKeys.ofMembers, List.count_cons, List.count_append] at hput ⊢
    exact hrest.trans (by omega)

mutual

/-- A walk meets a name at most as often as the text has it. -/
theorem count_walkedKeys_le (name : String) : ∀ {o : Outline} {v : Json}, o.settle? = some v →
    v.walkedKeys.count name ≤ o.names.count name
  | .scalar v, _, h => by
    cases h
    exact Nat.le_refl _
  | .arr [] false, _, h => by
    cases h
    exact Nat.le_refl _
  | .arr (o :: rest) false, _, h => by
    obtain ⟨vs, hvs, rfl⟩ := Option.map_eq_some_iff.mp h
    obtain ⟨v, vs', hv, -, rfl⟩ := exists_of_settleItems? hvs
    have hfirst := count_walkedKeys_le name hv
    rw [names, namesOfItems, List.count_append]
    exact Nat.le_add_right_of_le hfirst
  | .obj members none, _, h => by
    obtain ⟨ms, hms, rfl⟩ := Option.map_eq_some_iff.mp h
    have hput := count_ofMembers_putAll_le name ms []
    rw [walkedKeys.ofMembers, List.count_nil, Nat.zero_add] at hput
    exact hput.trans (count_ofMembers_le name hms)
  | .arr _ true, _, h => by cases h
  | .obj _ (some _), _, h => by cases h
  | .lapse, _, h => by cases h
  | .broken, _, h => by cases h

/-- A walk over members meets a name at most as often as the text of them has it. -/
theorem count_ofMembers_le (name : String) :
    ∀ {members : List (Option String × Outline)} {ms : List (String × Json)},
      settleMembers? members = some ms →
        (walkedKeys.ofMembers ms).count name ≤ (namesOfMembers members).count name
  | [], _, h => by
    cases h
    exact Nat.le_refl _
  | (k, o) :: rest, _, h => by
    obtain ⟨k, v, ms', rfl, hv, hms, rfl⟩ := exists_of_settleMembers? h
    have ho := count_walkedKeys_le name hv
    have hrest := count_ofMembers_le name hms
    simp only [walkedKeys.ofMembers, namesOfMembers, Option.toList_some, List.count_cons,
      List.count_append, List.count_nil]
    omega

end

end Outline

end TypeSketch.Json
