import TypeSketch.Record.Value

/-!
# Fields

A field is a key with the kind of value it takes. An entry is a field with a value given to it, on
its way into a record.
-/

namespace TypeSketch

/-- A key and the kind of its values, with the value that stands for presence and the one that is
read when the key is absent. -/
structure Field where
  key : String
  kind : Kind
  present? : Option Value := none
  absent? : Option Value := none

/-- A value for a key of some kind. -/
structure Entry where
  key : String
  kind : Kind
  value : Value

namespace Field

/-- A mark: `true` where it is present, `false` where it is absent. -/
def flag (key : String) : Field := ⟨key, .bool, some (.bool true), some (.bool false)⟩

/-- A list, empty where it is absent. -/
def list (key : String) : Field := ⟨key, .list, some (.list []), some (.list [])⟩

def str (key : String) : Field := ⟨key, .str, none, none⟩

def int (key : String) : Field := ⟨key, .int, none, none⟩

def shape (key : String) : Field := ⟨key, .shape, none, none⟩

def node (key : String) : Field := ⟨key, .node, none, none⟩

def json (key : String) : Field := ⟨key, .json, none, none⟩

def any (key : String) : Field := ⟨key, .any, none, none⟩

/-- The field with a value. -/
def entry (f : Field) (v : Value) : Entry := ⟨f.key, f.kind, v⟩

/-- The field as merely present. -/
def present (f : Field) : Entry := ⟨f.key, f.kind, f.present?.getD (.bool true)⟩

/-- The field with a JSON value, which stays JSON only if the field is of that kind. -/
def ofJson (f : Field) (j : Json) : Entry :=
  ⟨f.key, f.kind, if f.kind = .json then .json j else Value.ofJson j⟩

/-- Optional values that are both absent or the same. -/
def sameOption : Option Value → Option Value → Bool
  | none, none => true
  | some v, some w => v.same w
  | _, _ => false

/-- Two fields agree in everything. -/
def same (f g : Field) : Bool :=
  f.key == g.key && f.kind == g.kind && sameOption f.present? g.present? &&
    sameOption f.absent? g.absent?

/-- The field as messages show it. -/
def text (f : Field) : String := f.key ++ ": " ++ f.kind.name

end Field

/-- A kind takes a value. A list takes single values too, and a float takes whole numbers. -/
def Kind.admits : Kind → Value → Bool
  | .any, _ => true
  | .list, _ => true
  | .float, v => v.kind == .float || v.kind == .int
  | k, v => k == v.kind

/-- The value as it is stored: a single value of a list becomes a list. -/
def Entry.stored (e : Entry) : Value :=
  match e.kind with
  | .list => .list e.value.elements
  | _ => e.value

/-! ### Reading fields -/

namespace Record

/-- The value of a field, or what it stands for when absent. -/
def field? (r : Record Value) (f : Field) : Option Value := (r.get? f.key).or f.absent?

/-- The field has a value of its own. -/
def has (r : Record Value) (f : Field) : Bool := (r.get? f.key).isSome

/-- The field is `true`. -/
def flag (r : Record Value) (f : Field) : Bool := ((r.field? f).bind Value.asBool?).getD false

def int? (r : Record Value) (f : Field) : Option Int := (r.field? f).bind Value.asInt?

def str? (r : Record Value) (f : Field) : Option String := (r.field? f).bind Value.asStr?

/-- The items of a list field; none if it holds something else. -/
def items (r : Record Value) (f : Field) : List Value := ((r.field? f).bind Value.asList?).getD []

/-- The texts among the items of a list field. -/
def strs (r : Record Value) (f : Field) : List String := (r.items f).filterMap Value.asStr?

end Record

end TypeSketch
