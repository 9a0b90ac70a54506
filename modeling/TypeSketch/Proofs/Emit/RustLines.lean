import Mathlib.Data.List.Forall2
import TypeSketch.Emit.Emitter
import TypeSketch.Proofs.Draft
import TypeSketch.Proofs.Emit.RustData
import TypeSketch.Proofs.Text.Lines

/-!
# Data types in Rust — the lines that are written

A writing that succeeds has added lines to its page, each at the level of the page (`Writing.Adds`).
What these lines are is said of every part of a model: of a field (`Rust.FieldLines`), of a struct
and an enum (`Rust.DeclarationLines`), and of all of it (`Rust.ModelLines`).  Only the type of a
field may fail to be found, so the lines of a struct are told by a relation and all others by a
function.

The first line of a declaration is an attribute (`Rust.DeclarationLines.attribute`).

* `Adds.bind`, `adds_forM`, `adds_block`: lines of what is put together;
* `adds_writeField` to `adds_writeModel`: one statement for each function that writes;
* `Emitter.writeModel_of_emit`: what is emitted is the text of such lines.
-/

namespace TypeSketch

namespace Page

/-- The page with more texts, at the level of the open blocks. -/
def addAll (page : Page) (texts : List String) : Page :=
  { page with lines := page.lines ++ texts.map (indented page.level) }

theorem addAll_nil (page : Page) : page.addAll [] = page := by
  simp [addAll]

theorem addAll_append (page : Page) (front rest : List String) :
    page.addAll (front ++ rest) = (page.addAll front).addAll rest := by
  simp [addAll]

/-- At the outer level texts stay as they are. -/
theorem map_indented_zero (texts : List String) : texts.map (indented 0) = texts := by
  refine (List.map_congr_left fun t _ => ?_).trans texts.map_id
  by_cases ht : t = "" <;> simp [indented, ht]

/-- Levels are added to each other. -/
theorem indented_indented (level : Nat) (text : String) :
    indented level (indented 1 text) = indented (level + 1) text := by
  by_cases ht : text = ""
  · subst ht
    rfl
  · have hne : (String.ofList (List.replicate (4 * 1) ' ') ++ text).isEmpty = false := by
      simp [ht]
    have hspaces : List.replicate (4 * (level + 1)) ' ' =
        List.replicate (4 * level) ' ' ++ List.replicate (4 * 1) ' ' := by
      rw [List.replicate_append_replicate, Nat.mul_add]
    simp only [indented, String.isEmpty_eq_false_iff.mpr ht, hne, Bool.false_eq_true, if_false,
      hspaces, String.ofList_append, String.append_assoc]

end Page

namespace Writing

variable {ε α β : Type}

/-- The lines of a block. -/
def blockLines (head tail : String) (inner : List String) : List String :=
  (head ++ " \x7b") :: (inner.map (Page.indented 1) ++ ["\x7d" ++ tail])

/-- Wherever the writing succeeds, it has added lines that meet `P`, at the level of the page. -/
def Adds (w : Writing ε Unit) (P : List String → Prop) : Prop :=
  ∀ page page', w page = (.ok (), page') → ∃ ls, P ls ∧ page' = page.addAll ls

/-- Two writings succeed if the first does, and the second on its page. -/
theorem bind_eq_ok {w : Writing ε α} {f : α → Writing ε β} {page page' : Page} {b : β} :
    (w >>= f) page = (.ok b, page') ↔ ∃ a p, w page = (.ok a, p) ∧ f a p = (.ok b, page') := by
  change ExceptT.bindCont f (w page).1 (w page).2 = _ ↔ _
  cases h : w page with
  | mk result p =>
    cases result with
    | error e => exact ⟨nofun, fun ⟨a, p', hw, _⟩ => by cases hw⟩
    | ok a =>
      refine ⟨fun hf => ⟨a, p, rfl, hf⟩, ?_⟩
      rintro ⟨a', p', hw, hf⟩
      cases hw
      exact hf

variable {w w' : Writing ε Unit} {P Q : List String → Prop}

theorem Adds.mono (h : Adds w P) (hPQ : ∀ ls, P ls → Q ls) : Adds w Q := by
  intro page page' hw
  obtain ⟨ls, hls, hpage⟩ := h page page' hw
  exact ⟨ls, hPQ ls hls, hpage⟩

theorem adds_pure : Adds (pure () : Writing ε Unit) (· = []) := by
  intro page page' hw
  cases hw
  exact ⟨[], rfl, page.addAll_nil.symm⟩

theorem adds_line (text : String) : Adds (line text : Writing ε Unit) (· = [text]) := by
  intro page page' hw
  cases hw
  exact ⟨[text], rfl, rfl⟩

/-- Two writings add the lines of the first, and then those of the second. -/
theorem Adds.bind (hw : Adds w P) (hw' : Adds w' Q) :
    Adds (w >>= fun _ => w') fun ls => ∃ front rest, P front ∧ Q rest ∧ ls = front ++ rest := by
  intro page page' h
  obtain ⟨⟨⟩, p, h, h'⟩ := bind_eq_ok.mp h
  obtain ⟨front, hfront, rfl⟩ := hw page p h
  obtain ⟨rest, hrest, rfl⟩ := hw' _ page' h'
  exact ⟨_, ⟨front, rest, hfront, hrest, rfl⟩, (page.addAll_append front rest).symm⟩

/-- After a result that writes nothing. -/
theorem adds_ofExcept {x : Except ε α} {f : α → Writing ε Unit} {P : α → List String → Prop}
    (h : ∀ a, x = .ok a → Adds (f a) (P a)) :
    Adds (ofExcept x >>= f) fun ls => ∃ a, x = .ok a ∧ P a ls := by
  intro page page' hw
  obtain ⟨a, p, hx, hf⟩ := bind_eq_ok.mp hw
  obtain rfl : page = p := congrArg Prod.snd hx
  have hx : x = .ok a := congrArg Prod.fst hx
  obtain ⟨ls, hls, hpage⟩ := h a hx page page' hf
  exact ⟨ls, ⟨a, hx, hls⟩, hpage⟩

/-- A list adds the lines of its items, in order. -/
theorem adds_forM {g : β → Writing ε Unit} {P : β → List String → Prop} {xs : List β}
    (h : ∀ x ∈ xs, Adds (g x) (P x)) :
    Adds (xs.forM g) fun ls => ∃ lss, List.Forall₂ P xs lss ∧ ls = lss.flatten := by
  induction xs with
  | nil => exact adds_pure.mono fun ls hls => ⟨[], .nil, hls⟩
  | cons x xs ih =>
    obtain ⟨hx, hxs⟩ := List.forall_mem_cons.mp h
    refine (hx.bind (ih hxs)).mono ?_
    rintro ls ⟨front, rest, hfront, ⟨lss, hlss, rfl⟩, rfl⟩
    exact ⟨front :: lss, .cons hfront hlss, rfl⟩

/-- A block adds its head, what is in it one level deeper, and its tail. -/
theorem adds_block {body : Writing ε Unit} (head tail : String) (h : Adds body P) :
    Adds (block head tail body) fun ls => ∃ inner, P inner ∧ ls = blockLines head tail inner := by
  intro page page' hw
  let inside : Page := { page.add (head ++ " \x7b") with level := page.level + 1 }
  obtain ⟨hbody, hpage⟩ := Prod.mk.inj hw
  obtain ⟨inner, hinner, hadded⟩ := h inside (body inside).2 (Prod.ext hbody rfl)
  refine ⟨_, ⟨inner, hinner, rfl⟩, hpage.symm.trans ?_⟩
  change ({ (body inside).2 with level := (body inside).2.level - 1 } : Page).add _ = _
  rw [hadded]
  simp only [Page.addAll, Page.add, blockLines, inside, Nat.add_sub_cancel, List.map_cons,
    List.map_append, List.map_map, List.append_assoc, List.cons_append, List.nil_append,
    List.map_nil, Function.comp_def, Page.indented_indented]

/-- The text of a writing that succeeds is made of the lines that it has added. -/
theorem Adds.text_eq {out : String} (h : Adds w P) (hout : w.text = .ok out) :
    ∃ ls, P ls ∧ out = Text.unlines ls := by
  rw [text, outcome] at hout
  cases hw : w {} with
  | mk result page =>
    rw [hw] at hout
    cases result with
    | error e => cases hout
    | ok u =>
      cases hout
      obtain ⟨ls, hls, rfl⟩ := h {} page hw
      refine ⟨ls, hls, ?_⟩
      change Text.unlines ([] ++ ls.map (Page.indented 0)) = _
      rw [List.nil_append, Page.map_indented_zero]

end Writing

namespace Rust

open Writing (Adds adds_line adds_pure adds_block adds_forM adds_ofExcept blockLines)

variable {s f : Shape} {ls : List String}

/-- Lines that are written are added. -/
theorem adds_writeLines (texts : List String) : Adds (writeLines texts) (· = texts) := by
  refine (adds_forM fun t _ => adds_line t).mono ?_
  rintro ls ⟨lss, hlss, rfl⟩
  induction hlss with
  | nil => rfl
  | cons h _ ih => rw [List.flatten_cons, h, ih, List.singleton_append]

/-! ### Declarations -/

/-- The lines of a field, which has a type. -/
def FieldLines (f : Shape) (ls : List String) : Prop :=
  ∃ type, typeOf f.content = .ok type ∧
    ls = fieldHead f ++ ["pub " ++ fieldName f.label ++ ": " ++ type ++ ","]

theorem adds_writeField (f : Shape) : Adds (writeField f) (FieldLines f) := by
  refine ((adds_writeLines (fieldHead f)).bind
    (adds_ofExcept fun type _ => adds_line _)).mono ?_
  rintro ls ⟨head, rest, rfl, ⟨type, htype, rfl⟩, rfl⟩
  exact ⟨type, htype, rfl⟩

/-- The lines before the block of a struct. -/
def structHead (s : Shape) : List String :=
  (if s.fields.any fun f => f.content.flag Trait.stringWrapped then ["#[serde_as]"] else []) ++
    [deriveLine (structDerive ++ s.strs Trait.derive)]

/-- The lines of a struct, whose fields have types. -/
def StructLines (s : Shape) (ls : List String) : Prop :=
  ∃ fields, List.Forall₂ FieldLines s.fields fields ∧
    ls = structHead s ++ blockLines ("pub struct " ++ Text.pascalCase s.name) "" fields.flatten

/-- The lines of an enum. -/
def enumLines (s : Shape) : List String :=
  deriveLine enumDerive ::
    blockLines ("pub enum " ++ Text.pascalCase s.name) "" (s.variants.flatMap variantLines)

/-- A struct adds its lines. -/
theorem adds_writeStruct (s : Shape) : Adds (writeStruct s) (StructLines s) := by
  have hrest := (adds_line (ε := Error) (deriveLine (structDerive ++ s.strs Trait.derive))).bind
    (adds_block ("pub struct " ++ Text.pascalCase s.name) ""
      (adds_forM fun f (_ : f ∈ s.fields) => adds_writeField f))
  rw [writeStruct]
  split
  · next hwrapped =>
    refine ((adds_line _).bind hrest).mono ?_
    rintro ls ⟨front, rest, rfl, ⟨derive, block, rfl, ⟨_, ⟨fields, hfields, rfl⟩, rfl⟩, rfl⟩, rfl⟩
    exact ⟨fields, hfields, by rw [structHead, if_pos hwrapped]; rfl⟩
  · next hwrapped =>
    refine hrest.mono ?_
    rintro ls ⟨derive, block, rfl, ⟨_, ⟨fields, hfields, rfl⟩, rfl⟩, rfl⟩
    exact ⟨fields, hfields, by rw [structHead, if_neg hwrapped]; rfl⟩

theorem adds_writeEnum (s : Shape) : Adds (writeEnum s) (· = enumLines s) := by
  refine ((adds_line _).bind (adds_block _ _ (adds_writeLines _))).mono ?_
  rintro ls ⟨derive, block, rfl, ⟨inner, rfl, rfl⟩, rfl⟩
  rfl

/-- A shape of this kind is declared as a struct. -/
def declaresStruct (s : Shape) : Bool := Dispatcher.answers (Text.snakeCase s.kind) "struct"

/-- A shape of this kind is declared as an enum, if not as a struct. -/
def declaresEnum (s : Shape) : Bool := Dispatcher.answers (Text.snakeCase s.kind) "enum"

/-- The lines of a declaration. -/
inductive DeclarationLines (s : Shape) : List String → Prop
  | struct {ls : List String} (hkind : declaresStruct s = true) (h : StructLines s ls) :
      DeclarationLines s ls
  | enum (hkind : declaresStruct s = false) (hkind' : declaresEnum s = true) :
      DeclarationLines s (enumLines s)

/-- A kind is declared as a struct, as an enum or not at all. -/
theorem resolve_declarations (s : Shape) : declarations.resolve s.kind = .ok
    (if declaresStruct s then writeStruct else if declaresEnum s then writeEnum
      else notDeclarable) := by
  have hhandlers : declarations.handlers = [("struct", writeStruct), ("enum", writeEnum)] := rfl
  have hfallback : declarations.fallback = some notDeclarable := rfl
  rw [Dispatcher.resolve, hhandlers, hfallback, declaresStruct, declaresEnum]
  cases hstruct : Dispatcher.answers (Text.snakeCase s.kind) "struct" <;>
    cases henum : Dispatcher.answers (Text.snakeCase s.kind) "enum" <;>
      simp [hstruct, henum]

/-- A declaration adds its lines. -/
theorem adds_writeDeclaration (s : Shape) : Adds (writeDeclaration s) (DeclarationLines s) := by
  rw [writeDeclaration, resolve_declarations]
  refine (adds_ofExcept (P := fun _ => DeclarationLines s) fun write hwrite => ?_).mono ?_
  · obtain rfl := Except.ok.inj hwrite
    split
    · next hkind => exact (adds_writeStruct s).mono fun ls h => .struct hkind h
    · next hkind =>
      have hkind := Bool.not_eq_true _ ▸ hkind
      split
      · next hkind' => exact (adds_writeEnum s).mono fun ls h => h ▸ .enum hkind hkind'
      · exact fun page page' hw => by cases hw
  · rintro ls ⟨_, -, hls⟩
    exact hls

/-- A declaration starts with an attribute. -/
theorem DeclarationLines.attribute (h : DeclarationLines s ls) :
    ∃ l rest, ls = l :: rest ∧ "#[".toList <+: l.toList := by
  have hderive : ∀ names, "#[".toList <+: (deriveLine names).toList := by
    intro names
    refine ⟨"derive(".toList ++ (Text.joinWith ", " names).toList ++ ")]".toList, ?_⟩
    simp [deriveLine]
  cases h with
  | struct _ h =>
    obtain ⟨fields, -, rfl⟩ := h
    rw [structHead]
    split
    · exact ⟨_, _, rfl, by decide⟩
    · exact ⟨_, _, rfl, hderive _⟩
  | enum => exact ⟨_, _, rfl, hderive _⟩

/-- The lines of declarations, with an empty line between two. -/
def DeclarationsLines (shapes : List Shape) (ls : List String) : Prop :=
  ∃ lss, List.Forall₂ DeclarationLines shapes lss ∧ ls = (lss.intersperse [""]).flatten

/-- So do declarations, if there are any. -/
theorem DeclarationsLines.attribute {shapes : List Shape} (h : DeclarationsLines shapes ls)
    (hne : shapes ≠ []) : ∃ l rest, ls = l :: rest ∧ "#[".toList <+: l.toList := by
  obtain ⟨lss, hlss, rfl⟩ := h
  cases hlss with
  | nil => exact absurd rfl hne
  | @cons _ first _ others hfirst =>
    obtain ⟨l, rest, rfl, hl⟩ := hfirst.attribute
    cases others with
    | nil => exact ⟨l, rest ++ [], rfl, hl⟩
    | cons second others =>
      exact ⟨l, rest ++ ([""] :: (second :: others).intersperse [""]).flatten, rfl, hl⟩

/-- Declarations add their lines, with an empty line between two. -/
theorem adds_writeApart : ∀ shapes : List Shape, Adds (writeApart shapes) (DeclarationsLines shapes)
  | [] => adds_pure.mono fun ls hls => ⟨[], .nil, hls⟩
  | [s] => (adds_writeDeclaration s).mono fun ls hls =>
      ⟨[ls], .cons hls .nil, (List.append_nil ls).symm⟩
  | s :: t :: rest => by
      refine ((adds_writeDeclaration s).bind
        ((adds_line "").bind (adds_writeApart (t :: rest)))).mono ?_
      rintro ls ⟨first, others, hfirst, ⟨gap, others', rfl, ⟨lss, hlss, rfl⟩, rfl⟩, rfl⟩
      cases hlss with
      | @cons _ l _ lss hl hlss => exact ⟨first :: l :: lss, .cons hfirst (.cons hl hlss), rfl⟩

/-- The shapes that are declared for a shape: the structs in it, or the shape itself. -/
def declared (s : Shape) : List Shape := if s.flag Trait.struct then structsOf s else [s]

theorem adds_writeDeclarations (s : Shape) :
    Adds (writeDeclarations s) (DeclarationsLines (declared s)) := adds_writeApart _

/-! ### Models -/

/-- The lines of a function that gives a text. -/
def textFunctionLines (name text : String) : List String :=
  blockLines ("pub fn " ++ name ++ "() -> &'static str") "" [rawLiteral text]

/-- The lines of the functions of a struct. -/
def functionLines (s : Shape) (sample : String) : List String :=
  let columns? := (Sql.columns s).toOption
  if sample.isEmpty && columns?.isNone then []
  else "" :: blockLines ("impl " ++ Text.pascalCase s.name) ""
    ((if sample.isEmpty then [] else textFunctionLines "get_raw_data" sample) ++
      (columns?.map (textFunctionLines "get_sql_ddl")).getD [])

theorem adds_writeTextFunction (name text : String) :
    Adds (writeTextFunction name text) (· = textFunctionLines name text) := by
  refine (adds_block _ _ (adds_line _)).mono ?_
  rintro ls ⟨inner, rfl, rfl⟩
  rfl

/-- The functions of a struct add their lines. -/
theorem adds_writeFunctions (s : Shape) (sample : String) :
    Adds (writeFunctions s sample) (· = functionLines s sample) := by
  have hblock : ∀ {body : Writing Error Unit} {inner : List String}, Adds body (· = inner) →
      Adds (Writing.line "" >>= fun _ => Writing.block ("impl " ++ Text.pascalCase s.name) "" body)
        (· = "" :: blockLines ("impl " ++ Text.pascalCase s.name) "" inner) := by
    intro body inner h
    refine ((adds_line "").bind (adds_block _ _ h)).mono ?_
    rintro ls ⟨front, rest, rfl, ⟨inner, rfl, rfl⟩, rfl⟩
    rfl
  have hboth : ∀ text text' : String, Adds (do
      writeTextFunction "get_raw_data" text
      writeTextFunction "get_sql_ddl" text')
      (· = textFunctionLines "get_raw_data" text ++ textFunctionLines "get_sql_ddl" text') := by
    intro text text'
    refine ((adds_writeTextFunction _ _).bind (adds_writeTextFunction _ _)).mono ?_
    rintro ls ⟨front, rest, rfl, rfl, rfl⟩
    rfl
  unfold writeFunctions functionLines
  cases (Sql.columns s).toOption <;> cases hsample : sample.isEmpty
  · refine hblock (((adds_writeTextFunction _ _).bind adds_pure).mono ?_)
    rintro ls ⟨front, rest, rfl, rfl, rfl⟩
    exact rfl
  · exact adds_pure
  · exact hblock (hboth _ _)
  · exact hblock (adds_writeTextFunction _ _)

/-- The lines of a model that is a shape: what it is, its declarations, and its functions. -/
def ModelLines (d : Definition) (s : Shape) (ls : List String) : Prop :=
  ∃ declarations, DeclarationsLines (declared s) declarations ∧
    ls = modelHead d ++ (declarations ++
      if s.flag Trait.struct then functionLines s d.raw else [])

/-- A model adds the comment on it, its declarations and its functions. -/
theorem adds_writeModel (d : Definition) (s : Shape) : Adds (writeModel d s) (ModelLines d s) := by
  have hfunctions : Adds (if s.flag Trait.struct then writeFunctions s d.raw else return ())
      (· = if s.flag Trait.struct then functionLines s d.raw else []) := by
    split
    · exact adds_writeFunctions _ _
    · exact adds_pure
  refine ((adds_writeLines _).bind ((adds_writeDeclarations s).bind hfunctions)).mono ?_
  rintro ls ⟨head, rest, rfl, ⟨declarations, functions, hdeclarations, rfl, rfl⟩, rfl⟩
  exact ⟨declarations, hdeclarations, rfl⟩

end Rust

/-- A model that is emitted as data types is a shape, which has been written. -/
theorem Emitter.writeModel_of_emit {readers : List InputReader} {registry : Registry}
    {target : String} {d : Definition} {supply : Supply} {out : String}
    (h : ((rustData.emit readers registry target d).outcome supply).1 = .ok out) :
    ∃ s supply', (d.parse readers registry).outcome supply = (.ok (.shape s), supply') ∧
      (Rust.writeModel d s).text = .ok out := by
  cases hparse : (d.parse readers registry).outcome supply with
  | mk result supply' =>
    cases result with
    | error e => rw [emit, Draft.outcome_bind_error hparse] at h; cases h
    | ok parsed =>
      rw [emit, Draft.outcome_bind_ok hparse] at h
      cases parsed with
      | node n => cases h
      | shape s => exact ⟨s, supply', rfl, h⟩

end TypeSketch
