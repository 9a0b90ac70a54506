import TypeSketch.Json.Basic

/-!
# Records and their values

A record holds values under keys. Some keys are declared when it is made and stay; the others are
extra. Values can be records again, in two roles: the shape of some data, and a node of a program
with its number. Two records are the same when they hold the same values under the same keys: order,
numbers of nodes and whether a record is frozen do not count.
-/

namespace TypeSketch

/-- Values under keys; a frozen record does not change any more. -/
structure Record (α : Type) where
  declared : List (String × α) := []
  extra : List (String × α) := []
  frozen : Bool := false
deriving Inhabited

namespace Record

variable {α : Type}

/-- The value under a key. -/
def get? (r : Record α) (key : String) : Option α :=
  match r.declared.lookup key with
  | some v => some v
  | none => r.extra.lookup key

/-- All keys with their values, the declared ones first. -/
def entries (r : Record α) : List (String × α) := r.declared ++ r.extra

/-- All keys, the declared ones first. -/
def keys (r : Record α) : List String := r.entries.map (·.1)

/-- How many keys there are. -/
def size (r : Record α) : Nat := r.declared.length + r.extra.length

/-- The record with `v` under `key`: in its place if the key is there, else as the last extra
key. -/
def set (r : Record α) (key : String) (v : α) : Record α :=
  if Assoc.has key r.declared then { r with declared := Assoc.put key v r.declared }
  else { r with extra := Assoc.put key v r.extra }

/-- The record with its values changed by `f`. -/
def mapValues {m : Type → Type} [Monad m] (f : α → m α) (r : Record α) : m (Record α) := do
  let declared ← r.declared.mapM fun (k, v) => return (k, ← f v)
  let extra ← r.extra.mapM fun (k, v) => return (k, ← f v)
  return { r with declared, extra }

/-- The record with the value under a key changed by `f`. -/
def modifyAt {m : Type → Type} [Monad m] (key : String) (f : α → m α) (r : Record α) :
    m (Record α) := do
  match r.get? key with
  | some v => return r.set key (← f v)
  | none => return r

/-- A frozen record like `r`. -/
def freeze (r : Record α) : Record α := { r with frozen := true }

/-- A record like `r` that is not frozen. -/
def copy (r : Record α) : Record α := { r with frozen := false }

/-- A key that is written holds what is written. -/
theorem get?_set_self (r : Record α) (key : String) (v : α) : (r.set key v).get? key = some v := by
  unfold set
  split
  · simp [get?, Assoc.lookup_put_self]
  · next h =>
    have h' : r.declared.lookup key = none := Option.not_isSome_iff_eq_none.1 h
    simp [get?, h', Assoc.lookup_put_self]

theorem get?_set_of_ne {key key' : String} (h : key' ≠ key) (r : Record α) (v : α) :
    (r.set key v).get? key' = r.get? key' := by
  unfold set
  split <;> simp [get?, Assoc.lookup_put_of_ne h]

end Record

/-- A value of a record. -/
inductive Value
  | bool (b : Bool)
  | int (n : Int)
  | float (x : Binary64)
  | str (s : String)
  | shape (r : Record Value)
  | node (id : Nat) (r : Record Value)
  | json (j : Json)
  | list (items : List Value)
deriving Inhabited

/-- What values a field takes. -/
inductive Kind
  | bool
  | int
  | float
  | str
  | shape
  | node
  | json
  | list
  | any
deriving DecidableEq

namespace Kind

/-- The name of a kind in messages. -/
def name : Kind → String
  | bool => "bool"
  | int => "int"
  | float => "float"
  | str => "string"
  | shape => "type"
  | node => "node"
  | json => "json"
  | list => "list"
  | any => "any"

/-- Every kind. -/
def all : List Kind := [bool, int, float, str, shape, node, json, list, any]

end Kind

namespace Value

/-- The kind of a value. -/
def kind : Value → Kind
  | bool _ => .bool
  | int _ => .int
  | float _ => .float
  | str _ => .str
  | shape _ => .shape
  | node _ _ => .node
  | json _ => .json
  | list _ => .list

def asBool? : Value → Option Bool
  | bool b => some b
  | _ => none

def asInt? : Value → Option Int
  | int n => some n
  | _ => none

def asFloat? : Value → Option Binary64
  | float x => some x
  | int n => some (Binary64.ofInt n)
  | _ => none

def asStr? : Value → Option String
  | str s => some s
  | _ => none

def asJson? : Value → Option Json
  | json j => some j
  | _ => none

def asList? : Value → Option (List Value)
  | list xs => some xs
  | _ => none

/-- The items of a list; any other value is its own only item. -/
def elements : Value → List Value
  | list xs => xs
  | v => [v]

mutual

/-- The value nearest to a JSON value. Objects and `null` stay JSON. -/
def ofJson : Json → Value
  | .bool b => bool b
  | .int n => if n ≤ Json.maxInt then int n else float (Binary64.ofInt n)
  | .float x => float x
  | .str s => str s
  | .arr items => list (ofJsonItems items)
  | j => json j

/-- The values nearest to JSON items. -/
def ofJsonItems : List Json → List Value
  | [] => []
  | x :: xs => ofJson x :: ofJsonItems xs

end

/-! ### Equality -/

mutual

/-- Two values are the same. -/
def same : Value → Value → Bool
  | bool a, bool b => a == b
  | int a, int b => a == b
  | float a, float b => a.same b
  | str a, str b => a == b
  | shape r, shape s => sameRecord r s
  | node _ r, node _ s => sameRecord r s
  | json a, json b => a.same b
  | list xs, list ys => sameItems xs ys
  | _, _ => false

/-- Two records hold the same values under the same keys. -/
def sameRecord : Record Value → Record Value → Bool
  | ⟨declared, extra, _⟩, s =>
    declared.length + extra.length == s.size && (sameEntries declared s && sameEntries extra s)

/-- Every entry is one of the record's. -/
def sameEntries : List (String × Value) → Record Value → Bool
  | [], _ => true
  | (k, v) :: rest, s =>
    (match s.get? k with
      | some w => same v w
      | none => false) && sameEntries rest s

/-- Items compare one by one. -/
def sameItems : List Value → List Value → Bool
  | [], [] => true
  | x :: xs, y :: ys => same x y && sameItems xs ys
  | _, _ => false

end

/-! ### The JSON view

The view shows every value, and records inside records at length. -/

mutual

/-- A value as JSON. -/
def toJson : Value → Json
  | bool b => .bool b
  | int n => .int n
  | float x => if x.isFinite then .float x else .null
  | str s => .str s
  | shape r => recordToJson r
  | node _ r => recordToJson r
  | json j => j
  | list xs => .arr (itemsToJson xs)

/-- A record as an object. -/
def recordToJson : Record Value → Json
  | ⟨declared, extra, _⟩ => .obj (entriesToJson declared ++ entriesToJson extra)

/-- Entries as members. -/
def entriesToJson : List (String × Value) → List (String × Json)
  | [] => []
  | (k, v) :: rest => (k, toJson v) :: entriesToJson rest

/-- Items as JSON. -/
def itemsToJson : List Value → List Json
  | [] => []
  | x :: xs => toJson x :: itemsToJson xs

end

/-! ### Depth -/

mutual

/-- How deep records are nested in a value. -/
def depth : Value → Nat
  | shape r => recordDepth r + 1
  | node _ r => recordDepth r + 1
  | list xs => itemsDepth xs
  | _ => 0

/-- The greatest depth of the values of a record. -/
def recordDepth : Record Value → Nat
  | ⟨declared, extra, _⟩ => max (entriesDepth declared) (entriesDepth extra)

/-- The greatest depth of the values of entries. -/
def entriesDepth : List (String × Value) → Nat
  | [] => 0
  | (_, v) :: rest => max (depth v) (entriesDepth rest)

/-- The greatest depth of items. -/
def itemsDepth : List Value → Nat
  | [] => 0
  | x :: xs => max (depth x) (itemsDepth xs)

end

/-- A value under a key is no deeper than the deepest of the entries. -/
theorem depth_le_entriesDepth {k : String} {v : Value} :
    ∀ {entries : List (String × Value)}, entries.lookup k = some v → v.depth ≤ entriesDepth entries
  | [], h => by simp at h
  | (k', v') :: rest, h => by
    rw [entriesDepth]
    by_cases hk : k = k'
    · subst hk
      simp at h
      subst h
      exact Nat.le_max_left ..
    · have hk' : (k == k') = false := by simpa using hk
      rw [List.lookup_cons, hk'] at h
      exact Nat.le_trans (depth_le_entriesDepth h) (Nat.le_max_right ..)

/-- A value in a record is no deeper than the deepest in it. -/
theorem depth_le_recordDepth {r : Record Value} {k : String} {v : Value} (h : r.get? k = some v) :
    v.depth ≤ recordDepth r := by
  obtain ⟨declared, extra, frozen⟩ := r
  rw [recordDepth]
  unfold Record.get? at h
  split at h
  · next w hw =>
    cases h
    exact Nat.le_trans (depth_le_entriesDepth hw) (Nat.le_max_left ..)
  · exact Nat.le_trans (depth_le_entriesDepth h) (Nat.le_max_right ..)

/-- An item is no deeper than the deepest of them. -/
theorem depth_le_itemsDepth {v : Value} : ∀ {xs : List Value}, v ∈ xs → v.depth ≤ itemsDepth xs
  | [], h => by simp at h
  | x :: xs, h => by
    rw [itemsDepth]
    rcases List.mem_cons.1 h with rfl | h
    · exact Nat.le_max_left ..
    · exact Nat.le_trans (depth_le_itemsDepth h) (Nat.le_max_right ..)

end Value

end TypeSketch
