import TypeSketch.Shape.Basic
import TypeSketch.Text.Integer

/-!
# Making shapes

The canonical shapes are frozen and shared; composite shapes are made of others and stay open.
-/

namespace TypeSketch.Shape

/-! ### Numbers -/

/-- A whole number of some bits. -/
def integer (name : String) (bits : Int) (signed : Bool) : Shape :=
  (((ofMark name Trait.integer).adding Trait.numeric.present).adding
    (Trait.bitSize.entry (.int bits))).adding (Trait.signed.entry (.bool signed))

/-- A floating number of some bits. -/
def floating (name : String) (bits : Int) : Shape :=
  (((ofMark name Trait.floating).adding Trait.numeric.present).adding
    (Trait.bitSize.entry (.int bits))).adding Trait.signed.present

/-- The whole number that a name such as `i32` or `u8` means. -/
def ofIntegerName (name : String) : Except Error Shape :=
  let sized (signed : Bool) (digits : List Char) : Except Error Shape :=
    match (Text.readInt64? digits).filter [8, 16, 32, 64, 128].contains with
    | some bits => .ok (integer name bits signed)
    | none => .error (.invalidArgument ("bad bit size in " ++ name))
  match name.toList with
  | 'i' :: digits => sized true digits
  | 'u' :: digits => sized false digits
  | _ => .error (.invalidArgument ("not an integer type: " ++ name))

/-- The floating number that a name such as `f64` means. -/
def ofFloatingName (name : String) : Except Error Shape :=
  let bits? :=
    match name.toList with
    | 'f' :: digits => (Text.readInt64? digits).filter [32, 64].contains
    | _ => none
  match bits? with
  | some bits => .ok (floating name bits)
  | none => .error (.invalidArgument ("not a float type: " ++ name))

/-! ### Canonical shapes -/

def bool : Shape := (ofMark "bool" Trait.bool).freeze
def i8 : Shape := (integer "i8" 8 true).freeze
def i16 : Shape := (integer "i16" 16 true).freeze
def i32 : Shape := (integer "i32" 32 true).freeze
def i64 : Shape := (integer "i64" 64 true).freeze
def i128 : Shape := (integer "i128" 128 true).freeze
def u8 : Shape := (integer "u8" 8 false).freeze
def u16 : Shape := (integer "u16" 16 false).freeze
def u32 : Shape := (integer "u32" 32 false).freeze
def u64 : Shape := (integer "u64" 64 false).freeze
def u128 : Shape := (integer "u128" 128 false).freeze
def string : Shape := (ofMark "string" Trait.string).freeze
def f32 : Shape := (floating "f32" 32).freeze
def f64 : Shape := (floating "f64" 64).freeze

/-- Data that is always absent. -/
def nothing : Shape := ((ofMark "none" Trait.null).adding Trait.nullable.present).freeze

def unit : Shape := ((ofMark "unit" Trait.unit).adding Trait.null.present).freeze

/-- Any data at all. -/
def allValue : Shape := (ofMark "all_value" Trait.allValue).freeze

/-- Any data under text keys. -/
def object : Shape :=
  (((ofMark "object" Trait.object).adding Trait.map.present).adding
    (Trait.generics.entry (.list [string.toValue, allValue.toValue]))).freeze

/-- The canonical shapes. -/
def canonical : List Shape :=
  [bool, i8, i16, i32, i64, i128, u8, u16, u32, u64, u128, string, f32, f64, nothing, unit,
    allValue, object]

/-- The canonical shape of a name. -/
def canonical? (name : String) : Option Shape := canonical.find? (·.name == name)

/-! ### Composite shapes -/

/-- Shapes as a list value. -/
def listOf (shapes : List Shape) : Value := .list (shapes.map toValue)

/-- The entry of a struct for a field of some shape. -/
def field (name : String) (content : Shape) : Shape :=
  ((ofNameKind name "field").adding (Trait.fieldName.entry (.str name))).adding
    (Trait.fieldType.entry content.toValue)

/-- A struct of field entries. -/
def struct (name : String) (fields : List Shape) : Shape :=
  ((ofMark name Trait.struct).adding (Trait.fields.entry (listOf fields))).adding
    Trait.dataType.present

/-- An enum of variants. -/
def enum (name : String) (variants : List Shape) : Shape :=
  (ofMark name Trait.enum).adding (Trait.variants.entry (listOf variants))

/-- A variant with its names, the first of which is the primary one. -/
def variant (names : List String) : Shape :=
  (ofNameKind (names.headD "") "variant").adding
    (Trait.variantNames.entry (.list (names.map .str)))

/-- A sequence of equal elements. -/
def vector (element : Shape) : Shape :=
  (ofMark "vector" Trait.vector).adding (Trait.generics.entry (listOf [element]))

/-- A sequence with one shape for each place. -/
def tuple (name : String) (elements : List Shape) : Shape :=
  (ofMark name Trait.tuple).adding (Trait.generics.entry (listOf elements))

/-- Values under keys. -/
def map (key value : Shape) : Shape :=
  (ofMark "map" Trait.map).adding (Trait.generics.entry (listOf [key, value]))

/-- A number that is carried inside a text. -/
def stringWrapped (s : Shape) : Shape := s.copy.adding Trait.stringWrapped.present

end TypeSketch.Shape
