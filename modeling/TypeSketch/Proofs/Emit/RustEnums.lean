import TypeSketch.Proofs.Emit.RustLines
import TypeSketch.Proofs.Text.Capitals

/-!
# Data types in Rust — enums and what refers to them

A reference to an enum is spelled as its variants are, with a name in capitals as it is, and the
enum is declared in Pascal case.  So the two names are the same unless a name in capitals changes in
Pascal case (`reference_declared_iff`): `SIDE` refers to an enum that is declared as `Side`.

Two functions spell a name: one for variants, which leaves names in capitals, and `Text.pascalCase`
for what is declared. They are compared by the case of the name (`variantName_eq_pascalCase_iff`),
and for names of ASCII the condition is told letter by letter, by `Text.staysInPascal_iff_of_ascii`:
`L3X` stays, and `SIDE` does not.
-/

namespace TypeSketch.Rust

open Text (isAlphabetic isAsciiDigit isBreak isLowercase isUppercase StaysInPascal)

variable {r : Shape} {name : String}

/-! ### References -/

/-- A shape that stands for the enum of some name, in itself or by reference, and for nothing that
may be absent. -/
structure RefersTo (r : Shape) (name : String) : Prop where
  isEnum : r.flag Trait.enum = true
  name_eq : r.name = name
  reference : ∀ ref ∈ r.str? Trait.typeRef, ref = name
  present : r.flag Trait.nullable = false
  notNull : r.flag Trait.null = false
  notTime : r.has Trait.tsUnit = false
  notStruct : r.flag Trait.struct = false

/-- An enum stands for itself. -/
theorem refersTo_enum (name : String) (variants : List Shape) :
    RefersTo (Shape.enum name variants) name where
  isEnum := rfl
  name_eq := rfl
  reference := nofun
  present := rfl
  notNull := rfl
  notTime := rfl
  notStruct := rfl

/-- An enum that is defined elsewhere stands for the one of its name there. -/
theorem refersTo_reference (name : String) (variants : List Shape) :
    RefersTo ((Shape.enum name variants).adding (Trait.typeRef.entry (.str name))) name where
  isEnum := rfl
  name_eq := rfl
  reference := fun _ href => (Option.mem_some.mp href).symm
  present := rfl
  notNull := rfl
  notTime := rfl
  notStruct := rfl

/-- A reference is spelled as a variant of the name is. -/
theorem typeOf_of_refersTo (h : RefersTo r name) : typeOf r = .ok (variantName name) := by
  have href : (r.str? Trait.typeRef).getD r.name = name := by
    rw [h.name_eq]
    cases hstr : r.str? Trait.typeRef with
    | none => rfl
    | some ref => exact h.reference ref hstr
  rw [typeOf_eq, h.present, presentType, h.notNull, h.notTime, h.notStruct, h.isEnum, href]
  rfl

/-! ### Names in capitals -/

/-- The name has letters, and no small ones. -/
def InCapitals (name : String) : Prop :=
  (∃ c ∈ name.toList, isAlphabetic c = true) ∧ ∀ c ∈ name.toList, isLowercase c = false

theorem inCapitals_iff (name : String) :
    (name.toList.any isAlphabetic && !name.toList.any isLowercase) = true ↔ InCapitals name := by
  simp [InCapitals]

/-- A name is spelled in Pascal case unless it is in capitals, and then if it stays so. -/
theorem variantName_eq_pascalCase_iff (name : String) :
    variantName name = Text.pascalCase name ↔ (InCapitals name → StaysInPascal name.toList) := by
  rw [variantName]
  split
  · next hcapitals =>
    rw [imp_iff_right ((inCapitals_iff name).mp hcapitals), ← Text.pascalChars_eq_self_iff,
      Text.pascalCase, ← String.toList_inj, String.toList_ofList]
    exact eq_comm
  · next hcapitals =>
    exact iff_of_true rfl fun h => absurd ((inCapitals_iff name).mpr h) hcapitals

/-! ### Declarations -/

theorem blank_notMem_pascalCase (name : String) : ' ' ∉ (Text.pascalCase name).toList := by
  rw [Text.pascalCase, String.toList_ofList]
  exact fun hmem => absurd (Text.not_isBreak_of_mem_pascalChars hmem) (by decide)

theorem writeApart_singleton (s : Shape) : writeApart [s] = writeDeclaration s := rfl

/-- For an enum the enum is declared and nothing else. -/
theorem writeDeclarations_enum (name : String) (variants : List Shape) :
    writeDeclarations (Shape.enum name variants) = writeEnum (Shape.enum name variants) := by
  have hstruct : (Shape.enum name variants).flag Trait.struct = false := rfl
  have hkind : (Shape.enum name variants).kind = "enum" := rfl
  have hresolve : declarations.resolve (Shape.enum name variants).kind = .ok writeEnum := by
    rw [hkind]
    rfl
  rw [writeDeclarations, hstruct, if_neg Bool.false_ne_true, writeApart_singleton,
    writeDeclaration, hresolve]
  rfl

theorem succeeds_writeEnum (s : Shape) : (writeEnum s).Succeeds :=
  Writing.succeeds_bind (Writing.succeeds_line _) fun _ =>
    Writing.succeeds_block _ _ (succeeds_writeLines _)

/-- An enum is declared by its name in Pascal case. -/
theorem exists_text_writeEnum (s : Shape) : ∃ body, (writeEnum s).text =
    .ok (deriveLine enumDerive ++ "\npub enum " ++ Text.pascalCase s.name ++ " \x7b\n" ++ body ++
      "\x7d\n") := by
  obtain ⟨out, hout⟩ := Writing.exists_text (succeeds_writeEnum s)
  obtain ⟨lines, rfl, rfl⟩ := (adds_writeEnum s).text_eq hout
  refine ⟨Text.unlines ((s.variants.flatMap variantLines).map (Page.indented 1)), ?_⟩
  rw [hout, enumLines, Writing.blockLines, Text.unlines_cons, Text.unlines_cons,
    Text.unlines_append, Text.unlines_cons]
  simp only [String.append_assoc]
  rfl

theorem writeShape_rustData (target : String) (s : Shape) :
    Emitter.rustData.writeShape target s = (writeDeclarations s).text := rfl

/-- **References to enums.**  The enum of a name is declared by one word.  A shape that refers to it
is spelled by that word exactly if the name is not in capitals, or stays as it is in Pascal case.
An ASCII name in capitals does if it has nothing between its words and each capital comes first or
behind a digit. -/
theorem reference_declared_iff (h : RefersTo r name) (target : String) (variants : List Shape) :
    ∃ declared body,
      Emitter.rustData.writeShape target (Shape.enum name variants) =
        .ok (deriveLine enumDerive ++ "\npub enum " ++ declared ++ " \x7b\n" ++ body ++ "\x7d\n") ∧
      ' ' ∉ declared.toList ∧
      (typeOf r = .ok declared ↔ (InCapitals name → StaysInPascal name.toList)) ∧
      ((∀ c ∈ name.toList, c.toNat < 128) → InCapitals name →
        (typeOf r = .ok declared ↔ (∀ c ∈ name.toList, isBreak c = false) ∧
          ∀ front c rest, name.toList = front ++ c :: rest → isUppercase c = true →
            front = [] ∨ ∃ d ∈ front.getLast?, isAsciiDigit d = true)) := by
  obtain ⟨body, hbody⟩ := exists_text_writeEnum (Shape.enum name variants)
  have hspelled : typeOf r = .ok (Text.pascalCase name) ↔
      (InCapitals name → StaysInPascal name.toList) := by
    rw [typeOf_of_refersTo h, Except.ok.injEq, variantName_eq_pascalCase_iff]
  refine ⟨Text.pascalCase name, body, ?_, blank_notMem_pascalCase name, hspelled,
    fun hascii hcapitals => ?_⟩
  · rw [writeShape_rustData, writeDeclarations_enum, hbody]
    rfl
  · rw [hspelled, imp_iff_right hcapitals, Text.staysInPascal_iff_of_ascii hascii hcapitals.2]

/-- `L3X` is in capitals, each of which is its first or behind a digit: it is declared as it is. -/
theorem reference_declared_level :
    RefersTo ((Shape.enum "L3X" []).adding (Trait.typeRef.entry (.str "L3X"))) "L3X" ∧
    InCapitals "L3X" ∧ ∃ declared body,
      Emitter.rustData.writeShape "rust" (Shape.enum "L3X" [Shape.variant ["a"]]) =
        .ok (deriveLine enumDerive ++ "\npub enum " ++ declared ++ " \x7b\n" ++ body ++ "\x7d\n") ∧
      typeOf ((Shape.enum "L3X" []).adding (Trait.typeRef.entry (.str "L3X"))) = .ok declared := by
  have hrefers := refersTo_reference "L3X" []
  have hstays : StaysInPascal "L3X".toList :=
    (Text.pascalChars_eq_self_iff _).mp (by decide)
  obtain ⟨declared, body, hwrite, -, hiff, -⟩ :=
    reference_declared_iff hrefers "rust" [Shape.variant ["a"]]
  exact ⟨hrefers, (inCapitals_iff _).mp (by decide), declared, body, hwrite,
    hiff.mpr fun _ => hstays⟩

/-- `SIDE` refers to an enum that is declared as `Side`. -/
theorem reference_not_declared : RefersTo (Shape.enum "SIDE" []) "SIDE" ∧
    (typeOf (Shape.enum "SIDE" [])).toOption = some "SIDE" ∧
    (Emitter.rustData.writeShape "rust" (Shape.enum "SIDE" [])).toOption =
      some (deriveLine enumDerive ++ "\npub enum Side \x7b\n\x7d\n") :=
  ⟨refersTo_enum "SIDE" [], by decide +kernel, by decide +kernel⟩

end TypeSketch.Rust
