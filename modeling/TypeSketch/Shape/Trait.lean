import TypeSketch.Record.Field

/-!
# Traits

The fields that describe a shape: what it is called, what kind of data it is, and how it is written
in the languages that code is generated for.
-/

namespace TypeSketch.Trait

def kind : Field := .str "kind"
def name : Field := .str "name"
def fieldName : Field := .str "field_name"
def fieldType : Field := .shape "field_type"
def bitSize : Field := .int "bit_size"
def signed : Field := .flag "signed"
def keyType : Field := .shape "key"
def parent : Field := .shape "parent"
def fields : Field := .list "fields"
def struct : Field := .flag "struct"
def dataType : Field := .flag "data_type"
def enum : Field := .flag "enum"
def typeRef : Field := .str "type_ref"
def variants : Field := .list "variants"
def variantNames : Field := .list "variant_names"
def rawValue : Field := .json "raw_value"
def generics : Field := .list "generics"

def beforeLineComment : Field := .list "before_line_comment"
def inLineComment : Field := .str "in_line_comment"
def blockComment : Field := .str "block_comment"

def bool : Field := .flag "bool"
def numeric : Field := .flag "numeric"
def floating : Field := .flag "floating"
def integer : Field := .flag "integer"
def string : Field := .flag "string"
def tuple : Field := .flag "tuple"
def vector : Field := .flag "vector"
def map : Field := .flag "map"
def unit : Field := .flag "unit"
def null : Field := .flag "null"
def object : Field := .flag "object"
def allValue : Field := .flag "all_value"
def notInferredType : Field := .flag "not_inferred_type"

def default : Field := .any "default"
def fromJson : Field := .flag "from_json"

def simpleEnum : Field := .flag "simple_enum"
def stringWrapped : Field := .flag "string_wrapped"
def tsUnit : Field := .str "ts_unit"

def primary : Field := .flag "primary"
def nullable : Field := .flag "nullable"

def reference : Field := .flag "reference"
def mutable : Field := .flag "mutable"
def lifetime : Field := .str "lifetime"
def derive : Field := .list "derive"

def typeVariable : Field := .any "type_variable"

/-- Every trait, in the order of registration. -/
def all : List Field := [
  kind, name, fieldName, fieldType, bitSize, signed, keyType, parent, fields, struct, dataType,
  enum, typeRef, variants, variantNames, rawValue, generics, beforeLineComment, inLineComment,
  blockComment, bool, numeric, floating, integer, string, tuple, vector, map, unit, null, object,
  allValue, notInferredType, default, fromJson, simpleEnum, stringWrapped, tsUnit, primary,
  nullable, reference, mutable, lifetime, derive, typeVariable]

/-- The trait with a key. -/
def find? (key : String) : Option Field := all.find? (·.key == key)

theorem all_keys_nodup : (all.map (·.key)).Nodup := by decide

end TypeSketch.Trait
