import TypeSketch.Proofs.Emit.RustData
import TypeSketch.Proofs.Input.Titles

/-!
# Data types in Rust — the structs of a shape

The structs that are declared for a shape are those in it (`structsIn`), in the order of a walk,
where one that is the same as an earlier one is left out (`collect_eq_foldl`).  No two of them are
the same, and every struct in the shape is the same as one of them.

In a shape of an object there is a struct for every object that the first elements of arrays lead
to, with a field for every member (`labels_of_titled`), and it is called by the names on the way to
it (`names_of_titled`).

* `structsIn_eq`, `foldl_collect`: what collecting does at one shape, and at several;
* `structsOf_eq_firsts`: of what is the same, the first is declared;
* `structsIn_of_struct`, `structsIn_of_vector`: the structs in a shape of a sample.
-/

namespace TypeSketch

namespace Rust

/-! ### Collecting structs -/

/-- The structs in a shape, itself included. The fields of a struct defined elsewhere are not looked
at. -/
def structsIn (s : Shape) : List Shape :=
  (if s.flag Trait.struct && !s.has Trait.typeRef then
      s :: s.fields.attach.flatMap fun ⟨f, _⟩ => structsIn f.content
    else []) ++ s.generics.attach.flatMap fun ⟨t, _⟩ => structsIn t
termination_by s.depth
decreasing_by
  · exact Nat.lt_of_le_of_lt (Shape.depth_content_le _) (Shape.depth_lt_of_mem_fields ‹_›)
  · exact Shape.depth_lt_of_mem_generics ‹_›

/-- Add a struct to those found, unless it is there. -/
def addOnce (found : List Shape) (s : Shape) : List Shape :=
  if found.any (·.same s) then found else found ++ [s]

variable {s t : Shape} {found seen shapes : List Shape}

/-- The structs in a shape are itself with those in its fields, if it is a local one, and those in
what it is made of. -/
theorem structsIn_eq (s : Shape) : structsIn s =
    (if s.flag Trait.struct && !s.has Trait.typeRef then
        s :: s.fields.flatMap fun f => structsIn f.content
      else []) ++ s.generics.flatMap structsIn := by
  rw [structsIn]
  simp only [List.flatMap_subtype, List.unattach_attach]

/-- Collecting from several shapes is adding the structs in all of them. -/
theorem foldl_collect {α : Type} {g : α → Shape} {xs : List α}
    (h : ∀ x ∈ xs, ∀ found, collect (g x) found = (structsIn (g x)).foldl addOnce found)
    (found : List Shape) : xs.foldl (fun found x => collect (g x) found) found =
      (xs.flatMap fun x => structsIn (g x)).foldl addOnce found := by
  induction xs generalizing found with
  | nil => rfl
  | cons x xs ih =>
    obtain ⟨hx, hxs⟩ := List.forall_mem_cons.mp h
    rw [List.foldl_cons, List.flatMap_cons, List.foldl_append, hx, ih hxs]

/-- Collecting is adding each struct once. -/
theorem collect_eq_foldl (s : Shape) (found : List Shape) :
    collect s found = (structsIn s).foldl addOnce found := by
  have hfields : ∀ found, s.fields.foldl (fun found f => collect f.content found) found =
      (s.fields.flatMap fun f => structsIn f.content).foldl addOnce found :=
    foldl_collect fun f hf found => collect_eq_foldl f.content found
  have hgenerics : ∀ found, s.generics.foldl (fun found t => collect t found) found =
      (s.generics.flatMap structsIn).foldl addOnce found :=
    foldl_collect (g := id) fun t ht found => collect_eq_foldl t found
  rw [collect_eq, structsIn_eq, List.foldl_append, ← hgenerics]
  split
  · rw [List.foldl_cons, ← hfields, addOnce]
  · rfl
termination_by s.depth
decreasing_by
  · exact Nat.lt_of_le_of_lt (Shape.depth_content_le _) (Shape.depth_lt_of_mem_fields hf)
  · exact Shape.depth_lt_of_mem_generics ht

theorem structsOf_eq_foldl (s : Shape) : structsOf s = (structsIn s).foldl addOnce [] :=
  collect_eq_foldl s []

/-- Adding structs keeps those found, and puts some of the new ones behind, in their order. -/
theorem sublist_foldl_addOnce (shapes found : List Shape) :
    ∃ added, shapes.foldl addOnce found = found ++ added ∧ added.Sublist shapes := by
  induction shapes generalizing found with
  | nil => exact ⟨[], (List.append_nil _).symm, .slnil⟩
  | cons s shapes ih =>
    obtain ⟨added, hadded, hsub⟩ := ih (addOnce found s)
    rw [List.foldl_cons, hadded, addOnce]
    split
    · exact ⟨added, rfl, hsub.cons s⟩
    · exact ⟨s :: added, List.append_assoc .., hsub.cons_cons s⟩

/-- What is declared for a shape are structs in it, in their order. -/
theorem structsOf_sublist (s : Shape) : (structsOf s).Sublist (structsIn s) := by
  obtain ⟨added, hadded, hsub⟩ := sublist_foldl_addOnce (structsIn s) []
  rwa [structsOf_eq_foldl, hadded]

/-- Of what is declared for a shape none is the same as an earlier one. -/
theorem structsOf_pairwise (s : Shape) :
    (structsOf s).Pairwise fun t t' => t.same t' = false := by
  have hadd : ∀ {found t}, found.Pairwise (fun a b : Shape => a.same b = false) →
      (addOnce found t).Pairwise fun a b => a.same b = false := by
    intro found t h
    rw [addOnce]
    split
    · exact h
    · next hnew =>
      simp only [List.any_eq_true, not_exists, not_and, Bool.not_eq_true] at hnew
      exact List.pairwise_append.mpr
        ⟨h, List.pairwise_singleton _ t, fun a ha b hb => List.mem_singleton.mp hb ▸ hnew a ha⟩
  rw [structsOf_eq_foldl]
  exact List.foldlRecOn (structsIn s) addOnce .nil fun _ h _ _ => hadd h

/-- Every struct in a shape is one of those that are declared, or the same as one. -/
theorem exists_mem_structsOf (ht : t ∈ structsIn s) :
    ∃ r ∈ structsOf s, r = t ∨ r.same t = true := by
  have hkeeps : ∀ {shapes found : List Shape} {r}, r ∈ found → r ∈ shapes.foldl addOnce found := by
    intro shapes found r hr
    obtain ⟨added, hadded, -⟩ := sublist_foldl_addOnce shapes found
    exact hadded ▸ List.mem_append_left _ hr
  have hadds : ∀ {shapes : List Shape} {found}, t ∈ shapes →
      ∃ r ∈ shapes.foldl addOnce found, r = t ∨ r.same t = true := by
    intro shapes
    induction shapes with
    | nil => nofun
    | cons u shapes ih =>
      intro found ht
      rcases List.mem_cons.mp ht with rfl | ht
      · rw [List.foldl_cons, addOnce]
        split
        · next hthere =>
          obtain ⟨r, hr, hsame⟩ := List.any_eq_true.mp hthere
          exact ⟨r, hkeeps hr, .inr hsame⟩
        · exact ⟨t, hkeeps (List.mem_append_right _ (List.mem_singleton_self t)), .inl rfl⟩
      · exact ih ht
  rw [structsOf_eq_foldl]
  exact hadds ht

/-- The structs in a proper shape are proper. -/
theorem proper_of_mem_structsIn {s t : Shape} (hs : s.Proper) (ht : t ∈ structsIn s) :
    t.Proper := by
  rw [structsIn_eq, List.mem_append] at ht
  rcases ht with ht | ht
  · split at ht
    · rcases List.mem_cons.mp ht with rfl | ht
      · exact hs
      · obtain ⟨f, hf, ht⟩ := List.mem_flatMap.mp ht
        exact proper_of_mem_structsIn (hs.fields hf).content ht
    · cases ht
  · obtain ⟨e, he, ht⟩ := List.mem_flatMap.mp ht
    exact proper_of_mem_structsIn (hs.generics he) ht
termination_by s.depth
decreasing_by
  · exact Nat.lt_of_le_of_lt (Shape.depth_content_le _) (Shape.depth_lt_of_mem_fields hf)
  · exact Shape.depth_lt_of_mem_generics he

/-! ### First occurrences -/

/-- The shapes that are not the same as an earlier one, one of those `seen` before included. -/
def firsts (seen : List Shape) : List Shape → List Shape
  | [] => []
  | s :: rest =>
    if seen.any (·.same s) then firsts (seen ++ [s]) rest else s :: firsts (seen ++ [s]) rest

/-- Comparing with those found so far is comparing with all that have been seen. -/
theorem foldl_addOnce_eq_firsts (hseen : ∀ s ∈ seen, s.Proper) (hshapes : ∀ s ∈ shapes, s.Proper)
    (hfound : found ⊆ seen) (hstands : ∀ s ∈ seen, ∃ r ∈ found, r.same s = true) :
    shapes.foldl addOnce found = found ++ firsts seen shapes := by
  induction shapes generalizing found seen with
  | nil => exact (List.append_nil _).symm
  | cons s shapes ih =>
    obtain ⟨hs, hshapes⟩ := List.forall_mem_cons.mp hshapes
    -- Each shape seen is the same as one found, so that comparing with either tells the same.
    have hany : found.any (·.same s) = seen.any (·.same s) := by
      rw [Bool.eq_iff_iff, List.any_eq_true, List.any_eq_true]
      constructor
      · rintro ⟨r, hr, hsame⟩
        exact ⟨r, hfound hr, hsame⟩
      · rintro ⟨t, ht, hsame⟩
        obtain ⟨r, hr, hrt⟩ := hstands t ht
        exact ⟨r, hr, Shape.same_trans (hseen r (hfound hr)) (hseen t ht) hs hrt hsame⟩
    have hseen' : ∀ t ∈ seen ++ [s], t.Proper :=
      List.forall_mem_append.mpr ⟨hseen, List.forall_mem_singleton.mpr hs⟩
    rw [List.foldl_cons, addOnce, firsts, ← hany]
    split
    · next hthere =>
      refine ih hseen' hshapes (fun r hr => List.mem_append_left _ (hfound hr)) ?_
      exact List.forall_mem_append.mpr
        ⟨hstands, List.forall_mem_singleton.mpr (List.any_eq_true.mp hthere)⟩
    · rw [ih hseen' hshapes, List.append_assoc]
      · rfl
      · exact List.append_subset.mpr ⟨fun r hr => List.mem_append_left _ (hfound hr),
          fun r hr => List.mem_append_right _ hr⟩
      · refine List.forall_mem_append.mpr ⟨fun t ht => ?_, List.forall_mem_singleton.mpr ?_⟩
        · obtain ⟨r, hr, hsame⟩ := hstands t ht
          exact ⟨r, List.mem_append_left _ hr, hsame⟩
        · exact ⟨s, List.mem_append_right _ (List.mem_singleton_self s), Shape.same_refl hs⟩

/-- What is declared are the structs in a shape, each where it comes first. -/
theorem structsOf_eq_firsts (hs : s.Proper) : structsOf s = firsts [] (structsIn s) := by
  rw [structsOf_eq_foldl]
  exact foldl_addOnce_eq_firsts nofun (fun t ht => proper_of_mem_structsIn hs ht)
    (List.Subset.refl []) nofun

/-! ### The structs of what a value implies -/

theorem structsIn_of_leaf (hstruct : s.flag Trait.struct = false) (hgenerics : s.generics = []) :
    structsIn s = [] := by
  rw [structsIn_eq, hstruct, hgenerics]
  rfl

theorem structsIn_of_atom {v : Json} (hv : Shape.Atom v t) (hs : Shape.Reads s t) :
    structsIn s = [] := by
  obtain ⟨hstruct, -, -, -, hgenerics⟩ := hv.leaf
  exact structsIn_of_leaf ((hs.flag (by decide)).trans hstruct) (hs.generics.trans hgenerics)

theorem structsIn_of_vector {e : Shape} (hs : Shape.Reads s (.vector e)) :
    structsIn s = structsIn e := by
  rw [structsIn_eq, hs.flag (by decide), hs.generics, Shape.generics_vector,
    List.flatMap_singleton]
  rfl

/-- The structs in a struct are itself and those in its fields. -/
theorem structsIn_of_struct {name : String} {fields : List Shape}
    (hs : Shape.Reads s (.struct name fields)) :
    structsIn s = s :: fields.flatMap fun f => structsIn f.content := by
  rw [structsIn_eq, hs.flag (by decide), hs.has (by decide), hs.fields, hs.generics,
    Shape.fields_struct]
  exact List.append_nil _

end Rust

/-! ### Objects and the ways to them -/

mutual

/-- The objects that a shape of the value has structs for. Of an array the first element counts
only. -/
def Json.objects : Json → List (List (String × Json))
  | .obj members => members :: objectsOfMembers members
  | .arr (x :: _) => x.objects
  | _ => []

/-- The objects in members. -/
def Json.objectsOfMembers : List (String × Json) → List (List (String × Json))
  | [] => []
  | (_, v) :: rest => v.objects ++ objectsOfMembers rest

end

mutual

/-- The names that the structs for the objects are called by, the names of members on the way to
them. `front` leads to the members of the object that the value leads to, `last` to itself. -/
def Json.routes (front last : List String) : Json → List (List String)
  | .obj members => last :: routesOfMembers front members
  | .arr (x :: _) => x.routes front last
  | _ => []

/-- The names that the structs for objects in members are called by. -/
def Json.routesOfMembers (front : List String) : List (String × Json) → List (List String)
  | [] => []
  | (name, v) :: rest =>
    v.routes (front ++ [name]) (front ++ [titleOf name (v.objectDepth?.getD 0)]) ++
      routesOfMembers front rest

end

/-- The path of names below the name of a model. -/
def pathOf (model : String) (route : List String) : String := route.foldl Text.joinName model

theorem pathOf_concat (model : String) (route : List String) (name : String) :
    pathOf model (route ++ [name]) = Text.joinName (pathOf model route) name := by
  rw [pathOf, List.foldl_concat, pathOf]

/-! ### Paths -/

namespace Text

/-- A name loses its final `s`. -/
theorem singular_toList (name : String) : (singular name).toList =
    if name.toList.getLast? = some 's' then name.toList.dropLast else name.toList := by
  have hsuffix : ['s'].isSuffixOf name.toList = true ↔ name.toList.getLast? = some 's' := by
    rw [List.isSuffixOf_iff_suffix, List.getLast?_eq_some_iff]
    exact ⟨fun ⟨cs, hcs⟩ => ⟨cs, hcs.symm⟩, fun ⟨cs, hcs⟩ => ⟨cs, hcs.symm⟩⟩
  rw [singular, dropSuffix?]
  by_cases hs : name.toList.getLast? = some 's'
  · rw [if_pos (hsuffix.mpr hs), if_pos hs]
    simp [List.dropLast_eq_take]
  · rw [if_neg (mt hsuffix.mp hs), if_neg hs]

/-- Only the end of a name matters. -/
theorem singular_bar (path name : String) :
    singular (path ++ "_" ++ name) = path ++ "_" ++ singular name := by
  apply String.ext
  rw [String.toList_append, singular_toList, singular_toList]
  simp only [String.toList_append]
  cases hname : name.toList.getLast? with
  | none =>
    rw [List.getLast?_eq_none_iff] at hname
    simp [hname]
  | some c =>
    have hne : name.toList ≠ [] := fun h => by rw [h] at hname; cases hname
    rw [List.getLast?_append, hname, Option.some_or, List.dropLast_append_of_ne_nil hne]
    split <;> rfl

end Text

theorem joinName_ne_empty {path : String} (h : path ≠ "") (name : String) :
    Text.joinName path name = path ++ "_" ++ name ∧ Text.joinName path name ≠ "" := by
  have hjoin : Text.joinName path name = path ++ "_" ++ name := by simp [Text.joinName, h]
  exact ⟨hjoin, by simp [hjoin, h]⟩

/-- The title below a path is that of the name, below the path. -/
theorem titleOf_joinName {path : String} (h : path ≠ "") (name : String) (depth : Nat) :
    titleOf (Text.joinName path name) depth = Text.joinName path (titleOf name depth) := by
  rw [titleOf, titleOf, (joinName_ne_empty h name).1]
  split
  · rw [(joinName_ne_empty h _).1]
  · rw [(joinName_ne_empty h _).1, Text.singular_bar]

theorem pathOf_ne_empty {model : String} (h : model ≠ "") (route : List String) :
    pathOf model route ≠ "" := by
  induction route generalizing model with
  | nil => exact h
  | cons name route ih => exact ih (joinName_ne_empty h name).2

namespace Rust

mutual

/-- The fields of a struct are called like the members of its object. -/
theorem labels_of_titled : ∀ {path own : String} {v : Json} {s : Shape},
    Shape.Titled path own v s →
      (structsIn s).map (fun t => t.fields.map Shape.label) = v.objects.map (·.map Prod.fst)
  | _, _, .null, _, h | _, _, .bool _, _, h | _, _, .str _, _, h | _, _, .int _, _, h
  | _, _, .float _, _, h => by
      cases h with
      | atom hv hs => rw [structsIn_of_atom hv hs]; rfl
  | _, _, .arr [], _, h => by
      cases h with
      | atom hv => cases hv
      | empty hs => rw [structsIn_of_vector hs, structsIn_of_leaf rfl rfl]; rfl
  | _, _, .arr (x :: xs), _, h => by
      cases h with
      | atom hv => cases hv
      | vector he hs => rw [structsIn_of_vector hs, labels_of_titled he]; rfl
  | _, _, .obj members, s, h => by
      cases h with
      | atom hv => cases hv
      | struct hf hs =>
        obtain ⟨hlabels, hbelow⟩ := labels_of_titledMembers hf
        rw [structsIn_of_struct hs, List.map_cons, hs.fields, Shape.fields_struct, hlabels, hbelow,
          Json.objects, List.map_cons]

/-- The field entries of members are called like them, and so are those of the structs in them. -/
theorem labels_of_titledMembers : ∀ {path : String} {members : List (String × Json)}
    {fields : List Shape}, Shape.TitledMembers path members fields →
      fields.map Shape.label = members.map Prod.fst ∧
      (fields.flatMap fun f => structsIn f.content).map (fun t => t.fields.map Shape.label) =
        (Json.objectsOfMembers members).map (·.map Prod.fst)
  | _, [], _, h => by
      cases h
      exact ⟨rfl, rfl⟩
  | _, (name, v) :: rest, _, h => by
      cases h with
      | cons hs hown hf hfields =>
        obtain ⟨hlabels, hbelow⟩ := labels_of_titledMembers hfields
        constructor
        · rw [List.map_cons, hf.label, hlabels]
          rfl
        · rw [List.flatMap_cons, List.map_append, Shape.content_of_reads hf, labels_of_titled hs,
            hbelow, Json.objectsOfMembers, List.map_append]

end

/-- No object in the members lies in arrays in an array. -/
def Shallow (members : List (String × Json)) : Prop :=
  ∀ m ∈ members, m.2.objectDepth?.getD 0 ≤ 1

mutual

/-- The structs are called by the names on the way to their objects. -/
theorem names_of_titled {model : String} (hmodel : model ≠ "") : ∀ {front last : List String}
    {own : String} {v : Json} {s : Shape}, Shape.Titled (pathOf model front) own v s →
      (v.objectDepth? ≠ none → own = pathOf model last) → (∀ members ∈ v.objects, Shallow members) →
        (structsIn s).map Shape.name = (v.routes front last).map (pathOf model)
  | _, _, _, .null, _, h, _, _ | _, _, _, .bool _, _, h, _, _ | _, _, _, .str _, _, h, _, _
  | _, _, _, .int _, _, h, _, _ | _, _, _, .float _, _, h, _, _ => by
      cases h with
      | atom hv hs => rw [structsIn_of_atom hv hs]; rfl
  | _, _, _, .arr [], _, h, _, _ => by
      cases h with
      | atom hv => cases hv
      | empty hs => rw [structsIn_of_vector hs, structsIn_of_leaf rfl rfl]; rfl
  | _, _, _, .arr (x :: xs), _, h, hown, hshallow => by
      cases h with
      | atom hv => cases hv
      | vector he hs =>
        have hown' : x.objectDepth? ≠ none → _ := fun hx => hown (by
          rwa [Json.objectDepth?, ne_eq, Option.map_eq_none_iff])
        rw [structsIn_of_vector hs, names_of_titled hmodel he hown' hshallow]
        rfl
  | front, last, _, .obj members, s, h, hown, hshallow => by
      cases h with
      | atom hv => cases hv
      | struct hf hs =>
        obtain ⟨hself, hbelow⟩ := List.forall_mem_cons.mp hshallow
        rw [structsIn_of_struct hs, List.map_cons, hs.name,
          names_of_titledMembers hmodel hf hself hbelow, Json.routes, List.map_cons,
          ← hown nofun]
        rfl

/-- The structs in members are called by the names on the way to their objects. -/
theorem names_of_titledMembers {model : String} (hmodel : model ≠ "") :
    ∀ {front : List String} {members : List (String × Json)} {fields : List Shape},
      Shape.TitledMembers (pathOf model front) members fields → Shallow members →
        (∀ members' ∈ Json.objectsOfMembers members, Shallow members') →
          (fields.flatMap fun f => structsIn f.content).map Shape.name =
            (Json.routesOfMembers front members).map (pathOf model)
  | _, [], _, h, _, _ => by
      cases h
      rfl
  | front, (name, v) :: rest, _, h, hself, hbelow => by
      cases h with
      | @cons _ own _ _ _ f s fields hs hown hf hfields =>
        obtain ⟨hv, hrest⟩ := List.forall_mem_cons.mp hself
        obtain ⟨hbelow, hbelow'⟩ := List.forall_mem_append.mp hbelow
        have hown' : v.objectDepth? ≠ none →
            own = pathOf model (front ++ [titleOf name (v.objectDepth?.getD 0)]) := by
          intro hne
          obtain ⟨depth, hdepth⟩ := Option.ne_none_iff_exists'.mp hne
          rw [hdepth] at hv ⊢
          rw [pathOf_concat, hown depth hv hdepth,
            titleOf_joinName (pathOf_ne_empty hmodel front)]
          rfl
        rw [← pathOf_concat] at hs
        rw [List.flatMap_cons, List.map_append, Shape.content_of_reads hf,
          names_of_titled hmodel hs hown' hbelow,
          names_of_titledMembers hmodel hfields hrest hbelow', Json.routesOfMembers,
          List.map_append]

end

end Rust

end TypeSketch
