/-!
# Ordered tables

A table is a list of keyed entries in the order in which their keys first came. Writing a key that
is there changes its entry in place; a new key goes to the end. Reading is `List.lookup`.
-/

namespace TypeSketch.Assoc

variable {α : Type}

/-- The table with `v` at `k`. -/
def put (k : String) (v : α) : List (String × α) → List (String × α)
  | [] => [(k, v)]
  | (k', v') :: rest => if k' == k then (k, v) :: rest else (k', v') :: put k v rest

/-- The table without `k`; the other entries keep their order. -/
def erase (k : String) (table : List (String × α)) : List (String × α) :=
  table.filter fun (k', _) => k' != k

/-- `k` has an entry. -/
def has (k : String) (table : List (String × α)) : Bool := (table.lookup k).isSome

/-- Write every entry of `entries`, in order. -/
def putAll (entries table : List (String × α)) : List (String × α) :=
  entries.foldl (fun t (k, v) => put k v t) table

/-- The table of a list of entries: a repeated key keeps its first place and its last value. -/
def ofList (entries : List (String × α)) : List (String × α) := putAll entries []

/-- The value at `k` changed by `f`, if there is one. -/
def modify (k : String) (f : α → α) : List (String × α) → List (String × α)
  | [] => []
  | (k', v) :: rest => if k' == k then (k', f v) :: rest else (k', v) :: modify k f rest

/-- A key that is written holds what is written. -/
theorem lookup_put_self (k : String) (v : α) (t : List (String × α)) :
    (put k v t).lookup k = some v := by
  induction t with
  | nil => simp [put]
  | cons e rest ih =>
    obtain ⟨k', v'⟩ := e
    by_cases h : k' = k
    · simp [put, h]
    · have h' : (k == k') = false := by simpa using fun e => h e.symm
      simp [put, h, List.lookup_cons, h', ih]

/-- The other keys hold what they held. -/
theorem lookup_put_of_ne {k k' : String} (h : k' ≠ k) (v : α) (t : List (String × α)) :
    (put k v t).lookup k' = t.lookup k' := by
  induction t with
  | nil =>
    have h' : (k' == k) = false := by simpa using h
    simp [put, List.lookup_cons, h']
  | cons e rest ih =>
    obtain ⟨k'', v''⟩ := e
    by_cases h2 : k'' = k
    · have h' : (k' == k) = false := by simpa using h
      subst h2
      simp [put, List.lookup_cons, h']
    · by_cases h3 : k' = k''
      · subst h3
        simp [put, h2]
      · have h' : (k' == k'') = false := by simpa using h3
        simp [put, h2, List.lookup_cons, h', ih]

end TypeSketch.Assoc
