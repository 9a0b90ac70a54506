import TypeSketch.Proofs.Input.Numbering
import TypeSketch.Proofs.Json.Properness
import TypeSketch.Proofs.Record.Equality
import TypeSketch.Proofs.Shape.Building

/-!
# JSON samples — what structs are called

The struct of a member is called by the path of names to it, the struct in an array right below a
member by the path less a final `s` (`titleOf`), and the struct at the root by the model; a struct
deeper in arrays keeps its number.  `Shape.Titled path own v s` says so of a shape `s` of the value
`v` at a path, where `own` is what the struct is called that the value leads to.

It is so of what a value implies (`Shape.exists_titled_of_makes`), and a walk that puts comments
onto field entries leaves it (`CommentedJson.titled_walk`), as it leaves a shape proper.
-/

namespace TypeSketch

/-- A name less a final `s`. -/
def Text.singular (name : String) : String :=
  match Text.dropSuffix? ['s'] name.toList with
  | some cs => String.ofList cs
  | none => name

/-- What the struct is called that lies as many arrays below a path. -/
def titleOf (path : String) (depth : Nat) : String :=
  if depth = 0 then path else Text.singular path

namespace Shape

mutual

/-- A shape of a value at a path, with the structs below it called by their paths, and the struct
that the value leads to by a name of its own. -/
inductive Titled : (path own : String) → Json → Shape → Prop
  | atom {path own : String} {v : Json} {s t : Shape} (hv : Atom v t) (hs : Reads s t) :
      Titled path own v s
  | empty {path own : String} {s : Shape} (hs : Reads s (vector allValue)) :
      Titled path own (.arr []) s
  | vector {path own : String} {x : Json} {xs : List Json} {s e : Shape}
      (he : Titled path own x e) (hs : Reads s (Shape.vector e)) :
      Titled path own (.arr (x :: xs)) s
  | struct {path own : String} {members : List (String × Json)} {s : Shape} {fields : List Shape}
      (hf : TitledMembers path members fields) (hs : Reads s (Shape.struct own fields)) :
      Titled path own (.obj members) s

/-- The field entries of members below a path. A struct too deep in arrays has any name. -/
inductive TitledMembers : (path : String) → List (String × Json) → List Shape → Prop
  | nil {path : String} : TitledMembers path [] []
  | cons {path own name : String} {v : Json} {members : List (String × Json)} {f s : Shape}
      {fields : List Shape} (hs : Titled (Text.joinName path name) own v s)
      (hown : ∀ depth ≤ 1, v.objectDepth? = some depth →
        own = titleOf (Text.joinName path name) depth)
      (hf : Reads f (field name s)) (hfields : TitledMembers path members fields) :
      TitledMembers path ((name, v) :: members) (f :: fields)

end

variable {path own name : String} {v : Json} {s f : Shape}

theorem Atom.objectDepth? {t : Shape} (h : Atom v t) : v.objectDepth? = none := by
  cases h <;> rfl

theorem nameElements_eq (path : String) (s : Shape) : nameElements path s =
    s.adding (Trait.generics.entry (listOf (s.generics.map fun g =>
      if g.flag Trait.struct then g.copy.adding (Trait.name.entry (.str (Text.singular path)))
      else g))) := rfl

theorem nameAfter_of_leaf (hstruct : s.flag Trait.struct = false)
    (hvector : s.flag Trait.vector = false) : nameAfter path s = s := by
  simp [nameAfter, hstruct, hvector]

theorem nameAfter_of_vector {e : Shape} (hs : Reads s (vector e)) :
    nameAfter path s = nameElements path s := by
  have hstruct : s.flag Trait.struct = false := hs.flag (by decide)
  have hvector : s.flag Trait.vector = true := hs.flag (by decide)
  simp [nameAfter, hstruct, hvector]

theorem nameAfter_of_struct {fields : List Shape} (hs : Reads s (struct own fields)) :
    nameAfter path s = s.adding (Trait.name.entry (.str path)) := by
  have hstruct : s.flag Trait.struct = true := hs.flag (by decide)
  have hvector : (s.adding (Trait.name.entry (.str path))).flag Trait.vector = false :=
    ((hs.adding _).trans (reads_struct_named own path fields)).flag (by decide)
  simp [nameAfter, hstruct, hvector]

/-- The shape of a member has its structs named, in it or in an array. -/
theorem Titled.nameAfter (h : Titled path own v s) :
    ∃ own', Titled path own' v (nameAfter path s) ∧
      ∀ depth ≤ 1, v.objectDepth? = some depth → own' = titleOf path depth := by
  cases h with
  | atom hv hs =>
    obtain ⟨hstruct, hvector, -⟩ := hv.leaf
    rw [nameAfter_of_leaf ((hs.flag (by decide)).trans hstruct)
      ((hs.flag (by decide)).trans hvector)]
    refine ⟨own, .atom hv hs, fun depth _ hdepth => ?_⟩
    rw [hv.objectDepth?] at hdepth
    cases hdepth
  | empty hs =>
    rw [nameAfter_of_vector hs, nameElements_eq, hs.generics, generics_vector]
    exact ⟨own, .empty (reads_vector_of hs allValue), fun _ _ hdepth => by cases hdepth⟩
  | @vector _ _ x xs _ e he hs =>
    rw [nameAfter_of_vector hs, nameElements_eq, hs.generics, generics_vector]
    simp only [List.map_cons, List.map_nil]
    cases he with
    | struct hf he =>
      have hstruct : e.flag Trait.struct = true := he.flag (by decide)
      refine ⟨Text.singular path, .vector (.struct hf ?_) (reads_vector_of hs _), ?_⟩
      · rw [if_pos hstruct]
        exact (((reads_copy e).trans he).adding _).trans (reads_struct_named _ _ _)
      · rintro depth - hdepth
        cases hdepth
        rfl
    | atom hv he =>
      have hstruct : e.flag Trait.struct = false := (he.flag (by decide)).trans hv.leaf.1
      rw [hstruct, if_neg Bool.false_ne_true]
      refine ⟨own, .vector (.atom hv he) (reads_vector_of hs _), fun depth _ hdepth => ?_⟩
      rw [Json.objectDepth?, hv.objectDepth?] at hdepth
      cases hdepth
    | empty he =>
      have hstruct : e.flag Trait.struct = false := he.flag (by decide)
      rw [hstruct, if_neg Bool.false_ne_true]
      exact ⟨own, .vector (.empty he) (reads_vector_of hs _), fun _ _ hdepth => by cases hdepth⟩
    | vector hy he =>
      have hstruct : e.flag Trait.struct = false := he.flag (by decide)
      rw [hstruct, if_neg Bool.false_ne_true]
      -- a struct in arrays in an array is not named here
      refine ⟨own, .vector (.vector hy he) (reads_vector_of hs _), fun depth hle hdepth => ?_⟩
      simp only [Json.objectDepth?, Option.map_map, Option.map_eq_some_iff] at hdepth
      obtain ⟨d, -, rfl⟩ := hdepth
      simp only [Function.comp_apply] at hle
      omega
  | struct hf hs =>
    rw [nameAfter_of_struct hs]
    refine ⟨path, .struct hf ((hs.adding _).trans (reads_struct_named _ _ _)), ?_⟩
    rintro depth - hdepth
    cases hdepth
    rfl

mutual

/-- A value implies a shape whose structs are called by their paths. -/
theorem exists_titled_of_makes : ∀ {path : String} {v : Json} {s : Shape},
    (ofJson path v).Makes s → ∃ own, Titled path own v s
  | path, .null, s, h => by
      rw [ofJson] at h
      exact ⟨"", Draft.makes_pure h ▸ .atom .null (.refl _)⟩
  | path, .bool b, s, h => by
      rw [ofJson] at h
      exact ⟨"", Draft.makes_pure h ▸ .atom (.bool b) (.refl _)⟩
  | path, .str text, s, h => by
      rw [ofJson] at h
      exact ⟨"", Draft.makes_pure h ▸ .atom (atom_ofText text) (.refl _)⟩
  | path, .int n, s, h => by
      rw [ofJson] at h
      cases sampled_of_ofInt (Draft.makes_ofExcept h) with
      | atom hv hs => exact ⟨"", .atom hv hs⟩
  | path, .float x, s, h => by
      rw [ofJson] at h
      exact ⟨"", Draft.makes_pure h ▸ .atom (.float x) (.refl _)⟩
  | path, .arr [], s, h => by
      rw [ofJson] at h
      exact ⟨"", Draft.makes_pure h ▸ .empty (.refl _)⟩
  | path, .arr (x :: xs), s, h => by
      rw [ofJson] at h
      obtain ⟨e, he, h⟩ := Draft.makes_bind h
      obtain ⟨own, he⟩ := exists_titled_of_makes he
      exact ⟨own, Draft.makes_pure h ▸ .vector he (.refl _)⟩
  | path, .obj members, s, h => by
      rw [ofJson] at h
      obtain ⟨fields, hf, h⟩ := Draft.makes_bind h
      obtain ⟨n, -, h⟩ := Draft.makes_bind h
      rw [Draft.makes_pure h]
      exact ⟨_, .struct (titledMembers_of_makes hf) (.refl _)⟩

/-- The field entries of members have structs that are called by their paths. -/
theorem titledMembers_of_makes : ∀ {path : String} {members : List (String × Json)}
    {fields : List Shape}, (ofMembers path members).Makes fields →
      TitledMembers path members fields
  | path, [], fields, h => by
      rw [ofMembers] at h
      exact Draft.makes_pure h ▸ .nil
  | path, (name, v) :: rest, fields, h => by
      rw [ofMembers] at h
      obtain ⟨s, hs, h⟩ := Draft.makes_bind h
      obtain ⟨others, ho, h⟩ := Draft.makes_bind h
      obtain ⟨own, hs⟩ := exists_titled_of_makes hs
      obtain ⟨own', hs', hown⟩ := hs.nameAfter
      rw [Draft.makes_pure h]
      exact .cons hs' hown (.refl _) (titledMembers_of_makes ho)

end

end Shape

namespace CommentedJson

variable {comments : Comments} {path own name : String} {v : Json} {s f : Shape}

/-! ### What a walk leaves -/

theorem reads_visit (comments : Comments) (level : Nat) (s : Shape) (tally : Tally) :
    Shape.Reads ((Tour.visit (visit comments level) s).run tally).1 s :=
  fun _ hk => get?_visit comments level s tally fun heq => hk (heq ▸ by decide)

/-- A walk visits what is neither a struct nor a vector, and goes on below it. -/
theorem walk_of_visited (hopen : s.frozen = false) (hstruct : s.flag Trait.struct = false)
    (hvector : s.flag Trait.vector = false) (fuel level : Nat) :
    walk comments (fuel + 1) level s =
      Tour.visit (visit comments level) s >>= walkBelow comments fuel level := by
  rw [walk, Shape.editWithin, hopen, hstruct, hvector]
  rfl

/-- A walk leaves a leaf reading as it did. -/
theorem reads_walk_atom {t : Shape} (hv : Shape.Atom v t) (hs : Shape.Reads s t)
    (fuel level : Nat) (tally : Tally) :
    Shape.Reads ((walk comments fuel level s).run tally).1 t := by
  obtain ⟨hstruct, hvector, -, htype, -⟩ := hv.leaf
  cases fuel with
  | zero => exact hs
  | succ fuel =>
    cases hfrozen : s.frozen with
    | true =>
      rw [walk_of_frozen hfrozen]
      exact hs
    | false =>
      rw [walk_of_visited hfrozen ((hs.flag (by decide)).trans hstruct)
        ((hs.flag (by decide)).trans hvector), StateT.run_bind]
      have hvisit := (reads_visit comments level s tally).trans hs
      generalize (Tour.visit (visit comments level) s).run tally = visited at hvisit ⊢
      obtain ⟨s', tally'⟩ := visited
      change Shape.Reads ((walkBelow comments fuel level s').run tally').1 t
      rw [walkBelow, hvisit.fieldType?.trans htype]
      exact hvisit

/-- A walk over a field entry goes on in the shape that it is for, or leaves it. -/
theorem walk_field (hf : Shape.Reads f (.field name s)) (fuel level : Nat) (tally : Tally) :
    ∃ s', Shape.Reads ((walk comments fuel level f).run tally).1 (.field name s') ∧
      (s' = s ∨ ∃ fuel' tally', s' = ((walk comments fuel' level s).run tally').1) := by
  cases fuel with
  | zero => exact ⟨s, hf, .inl rfl⟩
  | succ fuel =>
    cases hfrozen : f.frozen with
    | true =>
      rw [walk_of_frozen hfrozen]
      exact ⟨s, hf, .inl rfl⟩
    | false =>
      rw [walk_of_visited hfrozen (hf.flag (by decide)) (hf.flag (by decide)), StateT.run_bind]
      have hvisit := (reads_visit comments level f tally).trans hf
      generalize (Tour.visit (visit comments level) f).run tally = visited at hvisit ⊢
      obtain ⟨f', tally'⟩ := visited
      change ∃ s', Shape.Reads ((walkBelow comments fuel level f').run tally').1 _ ∧ _
      have htype : f'.fieldType? = some s := hvisit.fieldType?.trans (Shape.fieldType?_field name s)
      simp only [walkBelow, htype]
      by_cases hstop : (s.frozen || f'.frozen) = true
      · simp only [hstop, if_true]
        exact ⟨s, hvisit, .inl rfl⟩
      · simp only [hstop]
        exact ⟨_, Shape.reads_field_of hvisit _, .inr ⟨fuel, tally', rfl⟩⟩

mutual

/-- A walk leaves what the structs are called. -/
theorem titled_walk : ∀ {path own : String} {v : Json} {s : Shape} (fuel level : Nat)
    (tally : Tally), Shape.Titled path own v s →
      Shape.Titled path own v ((walk comments fuel level s).run tally).1
  | _, _, _, s, 0, _, _, h => h
  | _, _, .null, _, fuel + 1, level, tally, h | _, _, .bool _, _, fuel + 1, level, tally, h
  | _, _, .str _, _, fuel + 1, level, tally, h | _, _, .int _, _, fuel + 1, level, tally, h
  | _, _, .float _, _, fuel + 1, level, tally, h => by
      cases h with
      | atom hv hs => exact .atom hv (reads_walk_atom hv hs (fuel + 1) level tally)
  | _, _, .arr [], s, fuel + 1, level, tally, h => by
      cases h with
      | atom hv => cases hv
      | empty hs =>
        cases hfrozen : s.frozen with
        | true => rw [walk_of_frozen hfrozen]; exact .empty hs
        | false =>
          rw [walk_vector hs hfrozen, walk_of_frozen rfl]
          exact .empty (Shape.reads_vector_of hs _)
  | _, _, .arr (x :: xs), s, fuel + 1, level, tally, h => by
      cases h with
      | atom hv => cases hv
      | vector he hs =>
        cases hfrozen : s.frozen with
        | true => rw [walk_of_frozen hfrozen]; exact .vector he hs
        | false =>
          rw [walk_vector hs hfrozen]
          exact .vector (titled_walk fuel (level + 1) tally he) (Shape.reads_vector_of hs _)
  | _, _, .obj members, s, fuel + 1, level, tally, h => by
      cases h with
      | atom hv => cases hv
      | struct hf hs =>
        cases hfrozen : s.frozen with
        | true => rw [walk_of_frozen hfrozen]; exact .struct hf hs
        | false =>
          rw [walk_struct hs hfrozen]
          exact .struct (titledMembers_of_walked hf (forall₂_run_mapM _ _ tally))
            (Shape.reads_struct_of hs _)

/-- A walk leaves what the structs in the entries of members are called. -/
theorem titledMembers_of_walked : ∀ {path : String} {members : List (String × Json)}
    {fields fields' : List Shape} {fuel level : Nat}, Shape.TitledMembers path members fields →
      List.Forall₂ (fun f f' => ∃ tally, f' = ((walk comments fuel level f).run tally).1)
        fields fields' → Shape.TitledMembers path members fields'
  | _, [], _, _, _, _, h, hwalked => by
      cases h
      cases hwalked
      exact .nil
  | _, (name, v) :: rest, _, _, fuel, level, h, hwalked => by
      cases h with
      | cons hs hown hf hfields =>
        cases hwalked with
        | cons hwalk hrest =>
          obtain ⟨tally, rfl⟩ := hwalk
          obtain ⟨s', hf', hs'⟩ := walk_field hf fuel level tally
          refine .cons ?_ hown hf' (titledMembers_of_walked hfields hrest)
          rcases hs' with rfl | ⟨fuel', tally', rfl⟩
          · exact hs
          · exact titled_walk fuel' level tally' hs

end

/-! ### What is proper stays so -/

/-- A visit leaves a shape proper. -/
theorem proper_visit (hs : s.Proper) (comments : Comments) (level : Nat) (tally : Tally) :
    ((Tour.visit (visit comments level) s).run tally).1.Proper := by
  obtain ⟨state, stopped⟩ := tally
  cases stopped with
  | some e => exact hs
  | none =>
    change (visit comments level s state).1.Proper
    rw [visit]
    cases s.fieldName? with
    | none => exact hs
    | some name =>
      simp only [lay]
      cases comments.lookup ((state.1.lookup name).getD 0 + 1, name) with
      | none => exact hs
      | some lines =>
        cases happend : s.append (Trait.beforeLineComment.entry (.list (lines.map .str))) with
        | error e => simp only [happend]; exact hs
        | ok s' =>
          simp only [happend]
          obtain ⟨r, hr, hs'⟩ := Except.bind_eq_ok.mp happend
          cases hs'
          refine Record.Proper.makes hs (fun e he => ?_) (Change.makes_of_apply (c := .append _) hr)
          obtain rfl := Option.some.inj he
          refine .list fun v hv => ?_
          obtain ⟨line, -, rfl⟩ := List.mem_map.mp hv
          exact .str line

/-- Changing the shapes in a list leaves a shape proper, if it leaves them so. -/
theorem proper_editListAt {g : Shape → StateM Tally Shape}
    (hg : ∀ t tally, t.Proper → ((g t).run tally).1.Proper) (hs : s.Proper) (key : String)
    (tally : Tally) : ((s.editListAt key g).run tally).1.Proper := by
  have hitems : ∀ (edit : Value → StateM Tally Value),
      (∀ v tally, v.Proper → ((edit v).run tally).1.Proper) → ∀ {items : List Value},
        (∀ v ∈ items, v.Proper) → (Value.list ((items.mapM edit).run tally).1).Proper := by
    intro edit hedit items hproper
    have hwalked := forall₂_run_mapM edit items tally
    generalize ((items.mapM edit).run tally).1 = items' at hwalked
    refine .list fun w hw => ?_
    obtain ⟨v, hv, tally', rfl⟩ := exists_of_forall₂ hwalked w hw
    exact hedit v tally' (hproper v hv)
  unfold Shape.editListAt Record.modifyAt
  cases hget : s.get? key with
  | none => exact hs
  | some v =>
    have hv : v.Proper := Record.Proper.get? hs hget
    have hsame := hv
    cases hv with
    | list hproper =>
      refine Record.Proper.set hs (hitems _ (fun v tally hv => ?_) hproper)
      have hsame := hv
      cases hv with
      | shape hk hvalues => exact (hg _ tally ⟨hk, hvalues⟩).toValue
      | _ => exact hsame
    | _ => exact Record.Proper.set hs hsame

/-- What a walk does behind a visit leaves a field entry proper. -/
theorem proper_walkBelow {fuel : Nat} (hwalk : ∀ (t : Shape) (level : Nat) (tally : Tally),
      t.Proper → ((walk comments fuel level t).run tally).1.Proper)
    (hf : f.Proper) (level : Nat) (tally : Tally) :
    ((walkBelow comments fuel level f).run tally).1.Proper := by
  rw [walkBelow]
  cases htype : f.fieldType? with
  | none => exact hf
  | some t =>
    by_cases hstop : (t.frozen || f.frozen) = true
    · simp only [hstop, if_true]
      exact hf
    · simp only [hstop]
      exact Record.Proper.set hf (hwalk t level tally (hf.fieldType? htype)).toValue

/-- A walk leaves a shape proper. -/
theorem proper_walk (fuel level : Nat) (tally : Tally) (hs : s.Proper) :
    ((walk comments fuel level s).run tally).1.Proper := by
  induction fuel generalizing level tally s with
  | zero => exact hs
  | succ fuel ih =>
    rw [walk, Shape.editWithin]
    split
    · exact hs
    · split
      · exact proper_editListAt (fun t tally ht => ih (level + 1) tally ht) hs _ tally
      · split
        · exact proper_editListAt (fun t tally ht => ih (level + 1) tally ht) hs _ tally
        · exact proper_walkBelow (fun t level tally ht => ih level tally ht)
            (proper_visit hs comments level tally) level _

/-! ### Reading an object -/

/-- An object that is read as a model of some name is the shape that its members imply, with the
comments of the text. -/
theorem exists_annotate_of_read {model : String} {sample : Sample}
    {members : List (String × Json)} (hmodel : model ≠ "")
    (hparse : Json.parse (strip sample.text) = .ok (.obj members))
    (h : (read model sample).Makes (.shape s)) :
    ∃ fields, (Shape.ofMembers model members).Makes fields ∧
      annotate (CommentedJson.comments sample.text) (modelShape model (.obj members) fields) =
        .ok s := by
  rw [read, hparse] at h
  obtain ⟨s₀, hs₀, h⟩ := Draft.makes_bind h
  obtain ⟨t, ht, hs₀⟩ := Draft.makes_bind hs₀
  rw [Shape.ofJson] at ht
  obtain ⟨fields, hfields, ht⟩ := Draft.makes_bind ht
  obtain ⟨n, -, ht⟩ := Draft.makes_bind ht
  obtain rfl := Draft.makes_pure ht
  obtain rfl := Draft.makes_pure hs₀
  have hroot := rooted_struct ("struct_" ++ toString n) (.obj members) fields
  have hnamed : (!model.isEmpty) = true := by simpa using hmodel
  rw [hroot.struct, hnamed, hroot.named] at h
  obtain ⟨s₁, hs₁, h⟩ := Draft.makes_bind h
  obtain rfl := Except.ok.inj (Draft.makes_ofExcept hs₁)
  obtain ⟨s₂, hs₂, h⟩ := Draft.makes_bind h
  obtain rfl := Parsed.shape.inj (Draft.makes_pure h)
  exact ⟨fields, hfields, Draft.makes_ofExcept hs₂⟩

/-- What an object is read as is proper, and its structs are called by their paths. -/
theorem titled_of_read {model : String} {sample : Sample} {members : List (String × Json)}
    (hmodel : model ≠ "") (hparse : Json.parse (strip sample.text) = .ok (.obj members))
    (h : (read model sample).Makes (.shape s)) :
    s.Proper ∧ Shape.Titled model model (.obj members) s := by
  obtain ⟨fields, hfields, hs⟩ := exists_annotate_of_read hmodel hparse h
  rw [eq_of_annotate hs]
  have hproper : (modelShape model (.obj members) fields).Proper :=
    ((Shape.proper_copy.mpr (Shape.proper_struct model (Shape.proper_of_makes_ofMembers
      hfields))).adding (.bool true)).adding (.json (Json.proper_of_parse hparse))
  have htitled : Shape.Titled model model (.obj members) (modelShape model (.obj members) fields) :=
    .struct (Shape.titledMembers_of_makes hfields) (reads_modelShape model _ fields)
  exact ⟨proper_walk _ _ _ hproper, titled_walk _ _ _ htitled⟩

end CommentedJson

end TypeSketch
