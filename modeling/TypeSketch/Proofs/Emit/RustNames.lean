import TypeSketch.Proofs.Emit.Numbering
import TypeSketch.Proofs.Emit.RustMarks
import TypeSketch.Proofs.Emit.RustStructs
import TypeSketch.Proofs.Text.Case

/-!
# Data types in Rust — names that are told apart

The data types of a JSON object are structs with fields, whose names come from the names in the
object: `Text.pascalCase` of the names on the way to a struct, and `fieldName` of the name of a
member.  Neither looks at what other names there are.  So two fields of a struct have one name
exactly if the names of their members are mapped to one (`nodup_fieldNames_iff`), and two structs
exactly if others than the same are called alike (`nodup_structNames_iff`).

Small words with `_` between them are told apart in fields (`fieldName_injOn`), and small words on
the way to structs: behind the name of the model each is a capitalized word
(`pascalCase_pathOf_injective`), and no two objects are reached in one way (`nodup_routes`).
-/

namespace TypeSketch

/-! ### Keys that tell apart -/

namespace Rust

/-- What a member with an object in it gives to the name of the struct. -/
def memberTitle? (m : String × Json) : Option String := m.2.objectDepth?.map (titleOf m.1)

/-- The names of the members tell apart the fields and the structs that come of them: small letters,
digits and `_`, not both `type` and `ty`; those of members with objects are one word, not only `s`,
and differ in more than a final `s` of an array, and no object lies in arrays in an array. -/
structure TellsApart (members : List (String × Json)) : Prop where
  names : ∀ m ∈ members, Text.isPlainName m.1.toList = true
  types : ¬ ("type" ∈ members.map Prod.fst ∧ "ty" ∈ members.map Prod.fst)
  shallow : Shallow members
  words : ∀ m ∈ members, m.2.objectDepth?.isSome = true →
    Text.isPlainWord m.1.toList = true ∧ m.1 ≠ "s"
  titles : (members.filterMap memberTitle?).Nodup

instance (members : List (String × Json)) : Decidable (TellsApart members) :=
  decidable_of_iff
    ((∀ m ∈ members, Text.isPlainName m.1.toList = true) ∧
      ¬ ("type" ∈ members.map Prod.fst ∧ "ty" ∈ members.map Prod.fst) ∧
      (∀ m ∈ members, m.2.objectDepth?.getD 0 ≤ 1) ∧
      (∀ m ∈ members, m.2.objectDepth?.isSome = true →
        Text.isPlainWord m.1.toList = true ∧ m.1 ≠ "s") ∧
      (members.filterMap memberTitle?).Nodup)
    ⟨fun ⟨names, types, shallow, words, titles⟩ => ⟨names, types, shallow, words, titles⟩,
      fun h => ⟨h.names, h.types, h.shallow, h.words, h.titles⟩⟩

variable {members : List (String × Json)} {m : String × Json}

/-- Names that tell apart do so without the first of them. -/
theorem TellsApart.tail (h : TellsApart (m :: members)) : TellsApart members where
  names := (List.forall_mem_cons.mp h.names).2
  types := fun ⟨htype, hty⟩ => h.types ⟨List.mem_cons_of_mem _ htype, List.mem_cons_of_mem _ hty⟩
  shallow := (List.forall_mem_cons.mp h.shallow).2
  words := (List.forall_mem_cons.mp h.words).2
  titles := h.titles.sublist ((List.sublist_cons_self m members).filterMap _)

/-- The first member with an object gives another title than the others. -/
theorem TellsApart.title_ne {m' : String × Json} (h : TellsApart (m :: members))
    (hm' : m' ∈ members) (hdepth : m.2.objectDepth?.isSome = true)
    (hdepth' : m'.2.objectDepth?.isSome = true) :
    titleOf m.1 (m.2.objectDepth?.getD 0) ≠ titleOf m'.1 (m'.2.objectDepth?.getD 0) := by
  obtain ⟨depth, hdepth⟩ := Option.isSome_iff_exists.mp hdepth
  obtain ⟨depth', hdepth'⟩ := Option.isSome_iff_exists.mp hdepth'
  have htitle : memberTitle? m = some (titleOf m.1 depth) := by rw [memberTitle?, hdepth]; rfl
  have htitle' : memberTitle? m' = some (titleOf m'.1 depth') := by rw [memberTitle?, hdepth']; rfl
  have hnodup := h.titles
  rw [List.filterMap_cons_some htitle, List.nodup_cons] at hnodup
  rw [hdepth, hdepth']
  rw [Option.getD_some, Option.getD_some]
  exact fun heq => hnodup.1 (List.mem_filterMap.mpr ⟨m', hm', by rw [htitle', heq]⟩)

/-! ### Fields -/

/-- A plain name stays, but for a mark on a keyword, and for `type`. -/
theorem fieldName_of_plain {name : String} (h : Text.isPlainName name.toList = true) :
    name = "type" ∧ fieldName name = "ty" ∨ fieldName name = "r#" ++ name ∨
      fieldName name = name := by
  have hfirst : (name.toList.head?.map Text.isAsciiDigit).getD false = false := by
    have hlower := (Bool.and_eq_true_iff.mp h).1
    cases hname : name.toList.head? with
    | none => rfl
    | some c =>
      rw [hname] at hlower
      exact Text.not_digit_of_isAsciiLower hlower
  rw [fieldName, hfirst, Text.snakeCase_of_isPlainName h, if_neg Bool.false_ne_true]
  split
  · next htype => exact .inl ⟨beq_iff_eq.mp htype, rfl⟩
  · split
    · exact .inr (.inl rfl)
    · exact .inr (.inr rfl)

/-- Names that are told apart give fields of different names. -/
theorem fieldName_injOn (h : TellsApart members) : ∀ k ∈ members.map Prod.fst,
    ∀ k' ∈ members.map Prod.fst, fieldName k = fieldName k' → k = k' := by
  have hplain : ∀ k ∈ members.map Prod.fst, Text.isPlainName k.toList = true := by
    intro k hk
    obtain ⟨m, hm, rfl⟩ := List.mem_map.mp hk
    exact h.names m hm
  -- a mark is no character of a plain name
  have hraw : ∀ {k k' : String}, Text.isPlainName k'.toList = true → "r#" ++ k ≠ k' := by
    rintro k _ hk' rfl
    have hhash := List.all_eq_true.mp (Bool.and_eq_true_iff.mp hk').2 '#' (by simp)
    exact absurd hhash (by decide)
  have hty : ∀ {k : String}, "r#" ++ k ≠ "ty" := hraw (by decide)
  intro k hk k' hk' heq
  rcases fieldName_of_plain (hplain k hk) with ⟨htype, e⟩ | e | e <;>
    rcases fieldName_of_plain (hplain k' hk') with ⟨htype', e'⟩ | e' | e' <;> rw [e, e'] at heq
  · rw [htype, htype']
  · exact absurd heq.symm hty
  · exact absurd ⟨htype ▸ hk, heq ▸ hk'⟩ h.types
  · exact absurd heq hty
  · exact (String.append_right_inj "r#").mp heq
  · exact absurd heq (hraw (hplain k' hk'))
  · exact absurd ⟨htype' ▸ hk', heq ▸ hk⟩ h.types
  · exact absurd heq.symm (hraw (hplain k hk))
  · exact heq

/-! ### Structs -/

/-- A word stays one without its final `s`, unless it is only that. -/
theorem isPlainWord_titleOf {name : String} (h : Text.isPlainWord name.toList = true)
    (hs : name ≠ "s") (depth : Nat) : Text.isPlainWord (titleOf name depth).toList = true := by
  rw [titleOf]
  split
  · exact h
  · rw [Text.singular_toList]
    split
    · next hlast =>
      obtain ⟨cs, hcs⟩ := List.getLast?_eq_some_iff.mp hlast
      rw [hcs] at h ⊢
      rw [List.dropLast_concat]
      cases cs with
      | nil => exact absurd (String.toList_injective hcs) hs
      | cons c cs =>
        obtain ⟨hfirst, hall⟩ := Bool.and_eq_true_iff.mp h
        rw [List.cons_append, List.all_cons, List.all_append, ← Bool.and_assoc] at hall
        exact Bool.and_eq_true_iff.mpr ⟨hfirst, (Bool.and_eq_true_iff.mp hall).1⟩
    · exact h

/-- In Pascal case a path is the name of the model and the capitalized words. -/
theorem pascalChars_pathOf {model : String} (hmodel : model ≠ "") {route : List String}
    (h : ∀ w ∈ route, Text.isPlainWord w.toList = true) :
    Text.pascalChars (pathOf model route).toList =
      Text.pascalChars model.toList ++ (route.map String.toList).flatMap Text.capitalize := by
  induction route generalizing model with
  | nil => exact (List.append_nil _).symm
  | cons w route ih =>
    obtain ⟨hw, hroute⟩ := List.forall_mem_cons.mp h
    obtain ⟨hjoin, hne⟩ := joinName_ne_empty hmodel w
    have hlist : (model ++ "_" ++ w).toList = model.toList ++ '_' :: w.toList := by simp
    calc Text.pascalChars (pathOf model (w :: route)).toList
      _ = Text.pascalChars (Text.joinName model w).toList ++
          (route.map String.toList).flatMap Text.capitalize := ih hne hroute
      _ = Text.pascalChars model.toList ++ Text.capitalize w.toList ++
          (route.map String.toList).flatMap Text.capitalize := by
        rw [hjoin, hlist, Text.pascalChars_bar hw]
      _ = _ := by rw [List.map_cons, List.flatMap_cons, List.append_assoc]

/-- Paths of words are told apart by their Pascal case. -/
theorem pascalCase_pathOf_injective {model : String} (hmodel : model ≠ "")
    {route route' : List String} (h : ∀ w ∈ route, Text.isPlainWord w.toList = true)
    (h' : ∀ w ∈ route', Text.isPlainWord w.toList = true)
    (heq : Text.pascalCase (pathOf model route) = Text.pascalCase (pathOf model route')) :
    route = route' := by
  have hchars := String.ofList_injective heq
  rw [pascalChars_pathOf hmodel h, pascalChars_pathOf hmodel h'] at hchars
  have hwords := Text.flatMap_capitalize_injective (List.forall_mem_map.mpr h)
    (List.forall_mem_map.mpr h') (List.append_cancel_left hchars)
  exact (List.map_injective_iff.mpr fun _ _ => String.toList_injective) hwords

/-! ### The ways to objects -/

/-- A value without objects has no ways to any. -/
theorem routes_of_none : ∀ {v : Json} (front last : List String), v.objectDepth? = none →
    v.routes front last = []
  | .null, _, _, _ | .bool _, _, _, _ | .str _, _, _, _ | .int _, _, _, _ | .float _, _, _, _
  | .arr [], _, _, _ => rfl
  | .arr (x :: _), front, last, h => routes_of_none (v := x) front last (by
      rwa [Json.objectDepth?, Option.map_eq_none_iff] at h)

mutual

/-- The way to an object in a value leads to the object that the value leads to, or below it. -/
theorem mem_routes : ∀ {v : Json} {front last route : List String}, route ∈ v.routes front last →
    v.objectDepth?.isSome = true ∧ (route = last ∨ ∃ w words, route = front ++ w :: words)
  | .obj members, front, last, route, h => by
      rcases List.mem_cons.mp h with rfl | h
      · exact ⟨rfl, .inl rfl⟩
      · obtain ⟨m, -, -, hm⟩ := mem_routesOfMembers h
        rcases hm with rfl | ⟨w, words, rfl⟩
        · exact ⟨rfl, .inr ⟨_, [], rfl⟩⟩
        · exact ⟨rfl, .inr ⟨_, w :: words, rfl⟩⟩
  | .arr (x :: _), front, last, route, h => by
      obtain ⟨hdepth, hroute⟩ := mem_routes (v := x) h
      exact ⟨(Option.isSome_map ..).trans hdepth, hroute⟩

/-- The way to an object in members leads to the object of a member, or below it. -/
theorem mem_routesOfMembers : ∀ {members : List (String × Json)} {front route : List String},
    route ∈ Json.routesOfMembers front members → ∃ m ∈ members, m.2.objectDepth?.isSome = true ∧
      (route = front ++ [titleOf m.1 (m.2.objectDepth?.getD 0)] ∨
        ∃ w words, route = front ++ m.1 :: w :: words)
  | (name, v) :: rest, front, route, h => by
      rcases List.mem_append.mp h with h | h
      · obtain ⟨hdepth, hroute⟩ := mem_routes h
        refine ⟨(name, v), List.mem_cons_self, hdepth, hroute.imp id ?_⟩
        rintro ⟨w, words, rfl⟩
        exact ⟨w, words, by rw [List.append_assoc, List.singleton_append]⟩
      · obtain ⟨m, hm, hroute⟩ := mem_routesOfMembers h
        exact ⟨m, List.mem_cons_of_mem _ hm, hroute⟩

end

mutual

/-- The ways to objects are words if the names of all members tell apart. -/
theorem words_of_routes : ∀ {v : Json} {front last : List String},
    (∀ members ∈ v.objects, TellsApart members) →
      (∀ w ∈ front, Text.isPlainWord w.toList = true) →
        (∀ w ∈ last, Text.isPlainWord w.toList = true) →
          ∀ route ∈ v.routes front last, ∀ w ∈ route, Text.isPlainWord w.toList = true
  | .null, _, _, _, _, _ | .bool _, _, _, _, _, _ | .str _, _, _, _, _, _
  | .int _, _, _, _, _, _ | .float _, _, _, _, _, _ | .arr [], _, _, _, _, _ => nofun
  | .obj members, front, last, h, hfront, hlast => by
      obtain ⟨hself, hbelow⟩ := List.forall_mem_cons.mp h
      exact List.forall_mem_cons.mpr ⟨hlast, words_of_routesOfMembers hself hbelow hfront⟩
  | .arr (x :: _), _, _, h, hfront, hlast => words_of_routes (v := x) h hfront hlast

/-- The ways to objects in members are words if the names of all members tell apart. -/
theorem words_of_routesOfMembers : ∀ {members : List (String × Json)} {front : List String},
    TellsApart members → (∀ members' ∈ Json.objectsOfMembers members, TellsApart members') →
      (∀ w ∈ front, Text.isPlainWord w.toList = true) →
        ∀ route ∈ Json.routesOfMembers front members, ∀ w ∈ route,
          Text.isPlainWord w.toList = true
  | [], _, _, _, _ => nofun
  | (name, v) :: rest, front, hself, hbelow, hfront => by
      obtain ⟨hv, hrest⟩ := List.forall_mem_append.mp hbelow
      refine List.forall_mem_append.mpr ⟨?_, words_of_routesOfMembers hself.tail hrest hfront⟩
      cases hdepth : v.objectDepth? with
      | none =>
        rw [routes_of_none _ _ hdepth]
        nofun
      | some depth =>
        obtain ⟨hword, hs⟩ := hself.words _ List.mem_cons_self (by rw [hdepth]; rfl)
        have hbehind : ∀ w, Text.isPlainWord w.toList = true →
            ∀ w' ∈ front ++ [w], Text.isPlainWord w'.toList = true := fun w hw =>
          List.forall_mem_append.mpr ⟨hfront, List.forall_mem_singleton.mpr hw⟩
        exact words_of_routes hv (hbehind _ hword)
          (hbehind _ (isPlainWord_titleOf hword hs _))

end

mutual

/-- No two objects are reached in one way if the names of all members tell apart. -/
theorem nodup_routes : ∀ {v : Json} {front last : List String}, last.length ≤ front.length →
    (∀ members ∈ v.objects, (members.map Prod.fst).Nodup ∧ TellsApart members) →
      (v.routes front last).Nodup
  | .null, _, _, _, _ | .bool _, _, _, _, _ | .str _, _, _, _, _ | .int _, _, _, _, _
  | .float _, _, _, _, _ | .arr [], _, _, _, _ => .nil
  | .arr (x :: _), _, _, hle, h => nodup_routes (v := x) hle h
  | .obj members, front, last, hle, h => by
      obtain ⟨hself, hbelow⟩ := List.forall_mem_cons.mp h
      refine List.nodup_cons.mpr ⟨fun hmem => ?_, nodup_routesOfMembers hself.1 hself.2 hbelow⟩
      -- what lies below an object takes more names
      obtain ⟨m, -, -, rfl | ⟨w, words, rfl⟩⟩ := mem_routesOfMembers hmem
      all_goals
        rw [List.length_append, List.length_cons] at hle
        omega

/-- No two objects in members are reached in one way if the names of all members tell apart. -/
theorem nodup_routesOfMembers : ∀ {members : List (String × Json)} {front : List String},
    (members.map Prod.fst).Nodup → TellsApart members →
      (∀ members' ∈ Json.objectsOfMembers members,
        (members'.map Prod.fst).Nodup ∧ TellsApart members') →
          (Json.routesOfMembers front members).Nodup
  | [], _, _, _, _ => .nil
  | (name, v) :: rest, front, hkeys, hself, hbelow => by
      obtain ⟨hv, hrest⟩ := List.forall_mem_append.mp hbelow
      obtain ⟨hkey, hkeys⟩ := List.nodup_cons.mp hkeys
      refine List.nodup_append'.mpr ⟨nodup_routes (by simp) hv,
        nodup_routesOfMembers hkeys hself.tail hrest, fun route hroute hroute' => ?_⟩
      obtain ⟨hdepth, hroute⟩ := mem_routes hroute
      obtain ⟨m, hm, hdepth', hroute'⟩ := mem_routesOfMembers hroute'
      have hname : name ≠ m.1 := fun heq => hkey (List.mem_map.mpr ⟨m, hm, heq.symm⟩)
      have htitle := hself.title_ne hm hdepth hdepth'
      rcases hroute with rfl | ⟨w, words, rfl⟩ <;> rcases hroute' with heq | ⟨w', words', heq⟩ <;>
        simp at heq
      · exact htitle heq
      · exact hname heq.1

end

/-! ### Names of structs and fields -/

/-- What a struct is called in the code. -/
def structName (s : Shape) : String := Text.pascalCase s.name

/-- What the fields of a struct are called in the code. -/
def fieldNames (s : Shape) : List String := s.fields.map fun f => fieldName f.label

variable {s t : Shape}

/-- Proper shapes that are the same have one name. -/
theorem name_eq_of_same (hs : s.Proper) (ht : t.Proper) (h : s.same t = true) :
    s.name = t.name := by
  have hname : Option.Rel (· = ·) (s.str? Trait.name) (t.str? Trait.name) := by
    refine Assoc.rel_bind (Shape.field?_rel_of_same hs ht h nofun) fun v w hvw => ?_
    cases v <;> cases w <;> simp_all [Value.same, Value.asStr?]
  rw [Shape.name, Shape.name, Assoc.rel_eq_iff.mp hname]

/-- The declared structs have names of their own exactly if structs of one name are the same. -/
theorem nodup_structNames_iff (hs : s.Proper) : ((structsOf s).map structName).Nodup ↔
    ∀ t ∈ structsIn s, ∀ t' ∈ structsIn s, structName t = structName t' → t.same t' = true := by
  have hsub := (structsOf_sublist s).subset
  have hproper : ∀ {t}, t ∈ structsIn s → t.Proper := fun ht => proper_of_mem_structsIn hs ht
  constructor
  · intro hnodup t ht t' ht' heq
    have hstands : ∀ {t}, t ∈ structsIn s →
        ∃ r ∈ structsOf s, r.same t = true ∧ structName r = structName t := by
      intro t ht
      obtain ⟨r, hr, hsame⟩ := exists_mem_structsOf ht
      have hsame : r.same t = true := by
        rcases hsame with rfl | hsame
        · exact Shape.same_refl (hproper ht)
        · exact hsame
      exact ⟨r, hr, hsame,
        congrArg Text.pascalCase (name_eq_of_same (hproper (hsub hr)) (hproper ht) hsame)⟩
    obtain ⟨r, hr, hsame, hname⟩ := hstands ht
    obtain ⟨r', hr', hsame', hname'⟩ := hstands ht'
    obtain rfl : r = r' := List.inj_on_of_nodup_map hnodup hr hr' (by rw [hname, hname', heq])
    have hr := hproper (hsub hr)
    exact Shape.same_trans (hproper ht) hr (hproper ht')
      (Shape.same_symm hr (hproper ht) hsame) hsame'
  · intro hsame
    refine List.pairwise_map.mpr ((structsOf_pairwise s).imp_of_mem fun ht ht' hother heq => ?_)
    rw [hsame _ (hsub ht) _ (hsub ht') heq] at hother
    cases hother

/-- Fields for different members have names of their own exactly if no two of these are mapped to
one. -/
theorem nodup_fieldNames_iff (h : (s.fields.map Shape.label).Nodup) : (fieldNames s).Nodup ↔
    ∀ k ∈ s.fields.map Shape.label, ∀ k' ∈ s.fields.map Shape.label,
      fieldName k = fieldName k' → k = k' := by
  have hmap : fieldNames s = (s.fields.map Shape.label).map fieldName := by
    rw [List.map_map]
    rfl
  rw [hmap]
  exact List.nodup_map_iff_inj_on h

mutual

/-- No object in a proper value repeats a name. -/
theorem nodup_keys_of_objects : ∀ {v : Json}, v.Proper →
    ∀ members ∈ v.objects, (members.map Prod.fst).Nodup
  | .null, _ | .bool _, _ | .str _, _ | .int _, _ | .float _, _ | .arr [], _ => nofun
  | .arr (x :: _), h => by
      cases h with
      | arr hxs => exact nodup_keys_of_objects (v := x) (hxs x List.mem_cons_self)
  | .obj members, h => by
      cases h with
      | obj hkeys hmembers =>
        exact List.forall_mem_cons.mpr ⟨hkeys, nodup_keys_of_objectsOfMembers hmembers⟩

/-- No object in proper members repeats a name. -/
theorem nodup_keys_of_objectsOfMembers : ∀ {members : List (String × Json)},
    (∀ m ∈ members, m.2.Proper) →
      ∀ members' ∈ Json.objectsOfMembers members, (members'.map Prod.fst).Nodup
  | [], _ => nofun
  | (_, v) :: rest, h => by
      obtain ⟨hv, hrest⟩ := List.forall_mem_cons.mp h
      exact List.forall_mem_append.mpr
        ⟨nodup_keys_of_objects hv, nodup_keys_of_objectsOfMembers hrest⟩

end

/-- The structs of an object whose names tell apart have names of their own. -/
theorem nodup_structNames_of_tellsApart {model : String} (hmodel : model ≠ "")
    (hs : Shape.Titled model model (.obj members) s)
    (h : ∀ members' ∈ (Json.obj members).objects,
      (members'.map Prod.fst).Nodup ∧ TellsApart members') :
    ((structsOf s).map structName).Nodup := by
  have hnames : (structsIn s).map Shape.name =
      ((Json.obj members).routes [] []).map (pathOf model) :=
    names_of_titled hmodel hs (fun _ => rfl) fun members' hm => (h members' hm).2.shallow
  have hwords : ∀ route ∈ (Json.obj members).routes [] [], ∀ w ∈ route,
      Text.isPlainWord w.toList = true :=
    words_of_routes (fun members' hm => (h members' hm).2) nofun nofun
  have hroutes : ((Json.obj members).routes [] []).Nodup := nodup_routes (Nat.le_refl _) h
  have hpaths : (((Json.obj members).routes [] []).map
      fun route => Text.pascalCase (pathOf model route)).Nodup :=
    hroutes.map_on fun route hroute route' hroute' heq =>
      pascalCase_pathOf_injective hmodel (hwords route hroute) (hwords route' hroute') heq
  have hall : (structsIn s).map structName = ((Json.obj members).routes [] []).map
      fun route => Text.pascalCase (pathOf model route) :=
    calc (structsIn s).map structName
      _ = ((structsIn s).map Shape.name).map Text.pascalCase := by rw [List.map_map]; rfl
      _ = _ := by rw [hnames, List.map_map]; rfl
  exact (hall ▸ hpaths).sublist ((structsOf_sublist s).map structName)

/-- The code for a model of an object declares its structs, and nothing else. -/
theorem structLines_of_writeModel {v : Json} {notes : List (List String)} {d : Definition}
    {out : String} (hs : Shape.Sampled v notes s) (hstruct : s.flag Trait.struct = true)
    (h : (writeModel d s).text = .ok out) :
    ∃ declarations, List.Forall₂ StructLines (structsOf s) declarations ∧
      out = Text.unlines (modelHead d ++
        ((declarations.intersperse [""]).flatten ++ functionLines s d.raw)) := by
  have hdeclarable : ∀ t ∈ structsOf s, Declarable t := declarable_collect hs nofun
  have hkind : ∀ t ∈ structsOf s, declaresStruct t = true := fun t ht => by
    rw [declaresStruct, (hdeclarable t ht).kind_eq]
    decide
  obtain ⟨ls, ⟨_, ⟨declarations, hdeclared, rfl⟩, rfl⟩, rfl⟩ := (adds_writeModel d s).text_eq h
  rw [declared, if_pos hstruct] at hdeclared
  refine ⟨declarations, ?_, by rw [if_pos hstruct]⟩
  refine ((List.forall₂_and_left ..).mpr ⟨hkind, hdeclared⟩).imp ?_
  rintro t ls ⟨hkind, hls⟩
  cases hls with
  | struct _ hls => exact hls
  | enum hother => rw [hkind] at hother; cases hother

end Rust

namespace Emitter

open Rust

/-- **Names of data types.**  The code for a model of an object declares structs in its shape.
There is one in the shape for every object that the first elements of arrays lead to, with a field
for every member, and of those that are the same the first is declared.  If no object lies in arrays
in an array, they are called by the paths to their objects, in Pascal case.

The names of the declared structs are distinct exactly if structs of one name are the same, and the
fields of a struct have distinct names exactly if no two names in its object are mapped to one.
Both is so if the names in every object tell apart. -/
theorem names_distinct_iff (sample : ObjectSample) {target out : String} {supply : Supply}
    (h : ((rustData.emit InputReader.standard .standard target sample.definition).outcome
      supply).1 = .ok out) :
    ∃ s supply' declarations,
      (sample.definition.parse InputReader.standard .standard).outcome supply =
        (.ok (.shape s), supply') ∧
      List.Forall₂ StructLines (structsOf s) declarations ∧
      out = Text.unlines (modelHead sample.definition ++
        ((declarations.intersperse [""]).flatten ++ functionLines s sample.definition.raw)) ∧
      structsOf s = firsts [] (structsIn s) ∧
      (structsIn s).map (fun t => t.fields.map Shape.label) =
        (Json.obj sample.members).objects.map (·.map Prod.fst) ∧
      ((∀ members ∈ (Json.obj sample.members).objects, Shallow members) →
        (structsIn s).map Shape.name =
          ((Json.obj sample.members).routes [] []).map (pathOf sample.name)) ∧
      (((structsOf s).map structName).Nodup ↔ ∀ t ∈ structsIn s, ∀ t' ∈ structsIn s,
        structName t = structName t' → t.same t' = true) ∧
      (∀ t ∈ structsOf s, (fieldNames t).Nodup ↔ ∀ k ∈ t.fields.map Shape.label,
        ∀ k' ∈ t.fields.map Shape.label, fieldName k = fieldName k' → k = k') ∧
      ((∀ members ∈ (Json.obj sample.members).objects, TellsApart members) →
        ((structsOf s).map structName).Nodup ∧ ∀ t ∈ structsOf s, (fieldNames t).Nodup) := by
  obtain ⟨s, supply', hparse, hwritten⟩ := writeModel_of_emit h
  let given : Sample := ⟨sample.format, sample.text⟩
  have hread : (CommentedJson.read sample.name given).Makes (.shape s) :=
    Definition.makes_read_of_parse sample.isJson hparse
  have hholds : Json.parse (CommentedJson.strip given.text) = .ok (.obj sample.members) :=
    sample.holds
  obtain ⟨hproper, htitled⟩ := CommentedJson.titled_of_read sample.named hholds hread
  have hsampled : Shape.Sampled (.obj sample.members) _ s :=
    CommentedJson.sampled_of_makes_read hholds hread
  have hstruct : s.flag Trait.struct = true := CommentedJson.flag_struct_of_sampled hsampled
  obtain ⟨declarations, hlines, hout⟩ := structLines_of_writeModel hsampled hstruct hwritten
  have hlabels := labels_of_titled htitled
  have hkeys := nodup_keys_of_objects (Json.proper_of_parse sample.holds)
  -- the members that a struct comes of
  have hobject : ∀ t ∈ structsOf s, ∃ members ∈ (Json.obj sample.members).objects,
      t.fields.map Shape.label = members.map Prod.fst := by
    intro t ht
    have hmem := List.mem_map_of_mem (f := fun t => t.fields.map Shape.label)
      ((structsOf_sublist s).subset ht)
    rw [hlabels] at hmem
    obtain ⟨members, hmembers, heq⟩ := List.mem_map.mp hmem
    exact ⟨members, hmembers, heq.symm⟩
  have hfields : ∀ t ∈ structsOf s, (fieldNames t).Nodup ↔ ∀ k ∈ t.fields.map Shape.label,
      ∀ k' ∈ t.fields.map Shape.label, fieldName k = fieldName k' → k = k' := by
    intro t ht
    obtain ⟨members, hmembers, heq⟩ := hobject t ht
    exact nodup_fieldNames_iff (heq ▸ hkeys members hmembers)
  refine ⟨s, supply', declarations, hparse, hlines, hout, structsOf_eq_firsts hproper, hlabels,
    fun hshallow => names_of_titled sample.named htitled (fun _ => rfl) hshallow,
    nodup_structNames_iff hproper, hfields, fun hapart => ⟨?_, fun t ht => ?_⟩⟩
  · exact nodup_structNames_of_tellsApart sample.named htitled fun members hmembers =>
      ⟨hkeys members hmembers, hapart members hmembers⟩
  · obtain ⟨members, hmembers, heq⟩ := hobject t ht
    rw [hfields t ht, heq]
    exact fieldName_injOn (hapart members hmembers)

/-- An order with legs and an owner. -/
def legsText : String :=
  "\x7b\"type\": 1, \"legs\": [\x7b\"px\": 2, \"for\": 1\x7d], \"owner\": \x7b\"id\": 7\x7d\x7d"

/-- Names that tell apart, a keyword and `type` among them. -/
theorem names_distinct_legs : ∃ sample : ObjectSample, ∃ s out,
    sample.definition = .ofSample "order" "json" legsText ∧
    ((rustData.emit InputReader.standard .standard "rust" sample.definition).outcome {}).1 =
      .ok out ∧
    ((sample.definition.parse InputReader.standard .standard).outcome {}).1 = .ok (.shape s) ∧
    ((structsOf s).map structName).Nodup ∧ ∀ t ∈ structsOf s, (fieldNames t).Nodup := by
  obtain ⟨sample, hsample, hapart⟩ := ObjectSample.exists_of_text "order" legsText
    (fun members => decide (∀ members' ∈ (Json.obj members).objects, TellsApart members'))
    (a := true) (by decide) (by decide +kernel)
  obtain ⟨out, hout⟩ : ∃ out, ((rustData.emit InputReader.standard .standard "rust"
      sample.definition).outcome {}).1 = .ok out := by
    rw [hsample]
    exact Except.exists_of_isOk (by decide +kernel)
  obtain ⟨s, supply', -, hparse, -, -, -, -, -, -, -, hdistinct⟩ := names_distinct_iff sample hout
  exact ⟨sample, s, out, hsample, hout, by rw [hparse], hdistinct (of_decide_eq_true hapart)⟩

/-- An object with two names for one field, and an object in it whose struct is called by the name
of the model. -/
def sharingText : String := "\x7b\"a-b\": 1, \"a_b\": 2, \"s\": [\x7b\"x\": 1\x7d]\x7d"

/-- A model of such an object. -/
def sharingModel : Definition := .ofSample "m" "json" sharingText

/-- Its declarations. -/
def sharingCode : String :=
  "#[derive(Clone, Debug, Serialize, Deserialize, PartialEq)]\n" ++
  "pub struct M \x7b\n" ++
  "    #[serde(rename = \"a-b\")]\n" ++
  "    pub a_b: i64,\n" ++
  "    pub a_b: i64,\n" ++
  "    pub s: Vec<M>,\n" ++
  "\x7d\n" ++
  "\n" ++
  "#[derive(Clone, Debug, Serialize, Deserialize, PartialEq)]\n" ++
  "pub struct M \x7b\n" ++
  "    pub x: i64,\n" ++
  "\x7d\n"

/-- Two structs have one name, and two fields of one of them. -/
theorem names_shared :
    (∃ sample : ObjectSample, sample.definition = sharingModel) ∧
    ((rustData.emit InputReader.standard .standard "rust" sharingModel).outcome
      {}).1.toBool = true ∧
    ((sharingModel.parse InputReader.standard .standard).outcome {}).1.toOption.bind (fun
      | .shape s => some ((structsOf s).map fun t => (structName t, fieldNames t),
          (writeDeclarations s).text.toOption)
      | .node _ => none) =
        some ([("M", ["a_b", "a_b", "s"]), ("M", ["x"])], some sharingCode) := by
  refine ⟨?_, by decide +kernel, by decide +kernel⟩
  obtain ⟨sample, hsample, -⟩ := ObjectSample.exists_of_text "m" sharingText (fun _ => ()) (a := ())
    (by decide) (by decide +kernel)
  exact ⟨sample, hsample⟩

end Emitter

end TypeSketch
