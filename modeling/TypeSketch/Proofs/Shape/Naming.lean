import TypeSketch.CommandLine.Pool
import TypeSketch.Proofs.Job
import TypeSketch.Proofs.Input.Annotating

/-!
# Shapes of samples — which numbers stay

Every struct that a sample implies is numbered first.  A struct right below a member, or in an array
right below one, is named anew after the path to it, and the struct at the root after the model; a
struct deeper in arrays keeps its number.  So the shapes of one object, made with any two sequences
of numbers, differ in the name of the root only if no member is an array of arrays whose first
elements lead to an object (`Json.namesStructs`).  Whatever the members are, the shapes of a member
are of the same sort (`Shape.SameSort`), which is what their columns are made of.

Both are told of two jobs in lockstep (`Shape.lockstep_ofObject`).
-/

namespace TypeSketch

/-- Every struct below the root of a shape of the value takes its name from the path to it: no
member is an array of arrays whose first elements lead to an object. -/
def Json.namesStructs : Json → Bool
  | .obj members => ofMembers members
  | .arr (x :: _) => x.namesStructs
  | _ => true
where
  /-- Every struct in the members takes its name from the path to it. -/
  ofMembers : List (String × Json) → Bool
    | [] => true
    | (_, v) :: rest => v.objectDepth?.getD 0 ≤ 1 && v.namesStructs && ofMembers rest

namespace Shape

variable {s t u : Shape} {v : Json}

/-! ### Shapes of the same sort -/

/-- The keys of what a shape is called, what it is made of, and the comments on it. -/
def details : List String :=
  [Trait.name.key, Trait.fields.key, Trait.generics.key, Trait.fieldType.key,
    Trait.beforeLineComment.key]

/-- Two shapes agree on all that is no detail. -/
def SameSort (s t : Shape) : Prop := ∀ key, key ∉ details → s.get? key = t.get? key

theorem SameSort.refl (s : Shape) : SameSort s s := fun _ _ => rfl

theorem SameSort.symm (h : SameSort s t) : SameSort t s := fun key hk => (h key hk).symm

theorem SameSort.trans (h : SameSort s t) (h' : SameSort t u) : SameSort s u :=
  fun key hk => (h key hk).trans (h' key hk)

theorem SameSort.field? (h : SameSort s t) {f : Field} (hf : f.key ∉ details) :
    s.field? f = t.field? f := by
  rw [Record.field?, Record.field?, h f.key hf]

theorem SameSort.flag (h : SameSort s t) {f : Field} (hf : f.key ∉ details) :
    s.flag f = t.flag f := by
  rw [Record.flag, Record.flag, h.field? hf]

theorem SameSort.has (h : SameSort s t) {f : Field} (hf : f.key ∉ details) :
    s.has f = t.has f := by
  rw [Record.has, Record.has, h f.key hf]

theorem SameSort.str? (h : SameSort s t) {f : Field} (hf : f.key ∉ details) :
    s.str? f = t.str? f := by
  rw [Record.str?, Record.str?, h.field? hf]

theorem SameSort.int? (h : SameSort s t) {f : Field} (hf : f.key ∉ details) :
    s.int? f = t.int? f := by
  rw [Record.int?, Record.int?, h.field? hf]

/-- A detail does not change the sort of a shape. -/
theorem sameSort_adding (s : Shape) {f : Field} (hf : f.key ∈ details) (v : Value) :
    SameSort (s.adding (f.entry v)) s :=
  fun key hk => Record.get?_set_of_ne (fun heq : key = f.key => hk (heq ▸ hf)) _ _

/-- All structs are of one sort. -/
theorem sameSort_struct (name name' : String) (fields fields' : List Shape) :
    SameSort (struct name fields) (struct name' fields') := by
  have hstruct : struct name fields = ((struct name' fields').adding
      (Trait.name.entry (.str name))).adding (Trait.fields.entry (listOf fields)) := rfl
  rw [hstruct]
  exact (sameSort_adding _ (by decide) _).trans (sameSort_adding _ (by decide) _)

theorem sameSort_vector (e e' : Shape) : SameSort (vector e) (vector e') := by
  have hvector : vector e = (vector e').adding (Trait.generics.entry (listOf [e])) := rfl
  rw [hvector]
  exact sameSort_adding _ (by decide) _

/-- Naming a shape after its path does not change its sort. -/
theorem sameSort_nameAfter (path : String) (s : Shape) : SameSort (nameAfter path s) s := by
  have helements : ∀ t : Shape,
      SameSort (if t.flag Trait.vector then nameElements path t else t) t := by
    intro t
    split
    · exact sameSort_adding t (by decide) _
    · exact .refl t
  rw [nameAfter]
  refine (helements _).trans ?_
  split
  · exact sameSort_adding s (by decide) _
  · exact .refl s

/-! ### Shapes that differ in their numbers -/

/-- Two shapes of one value, made with numbers of their own. -/
inductive Kin : Json → Shape → Shape → Prop
  | same {v : Json} (s : Shape) : Kin v s s
  | struct {members : List (String × Json)} (name name' : String) {fields fields' : List Shape}
      (h : Json.namesStructs.ofMembers members = true → fields = fields') :
      Kin (.obj members) (struct name fields) (struct name' fields')
  | vector {x : Json} {xs : List Json} {e e' : Shape} (h : Kin x e e') :
      Kin (.arr (x :: xs)) (vector e) (vector e')

theorem Kin.sameSort (h : Kin v s t) : SameSort s t := by
  cases h with
  | same s => exact .refl s
  | struct => exact sameSort_struct _ _ _ _
  | vector => exact sameSort_vector _ _

/-- Without an object there is no number. -/
theorem Kin.eq_of_objectDepth? (h : Kin v s t) (hv : v.objectDepth? = none) : s = t := by
  induction h with
  | same s => rfl
  | struct => cases hv
  | vector _ ih => rw [ih (Option.map_eq_none_iff.mp hv)]

/-- A member has its structs named, in it or in an array. -/
theorem Kin.nameAfter_eq (h : Kin v s t) (hnames : v.namesStructs = true)
    (hdepth : v.objectDepth?.getD 0 ≤ 1) (path : String) : nameAfter path s = nameAfter path t := by
  cases h with
  | same s => rfl
  | struct name name' h =>
    obtain rfl := h hnames
    rfl
  | @vector x _ e e' h =>
    cases h with
    | same => rfl
    | struct name name' h =>
      obtain rfl := h hnames
      rfl
    | @vector y _ e e' h =>
      -- the structs in arrays of arrays are not named: there is none
      have hnone : y.objectDepth? = none := by
        cases hy : y.objectDepth? with
        | none => rfl
        | some d =>
          simp only [Json.objectDepth?, hy, Option.map_some, Option.getD_some] at hdepth
          omega
      obtain rfl := h.eq_of_objectDepth? hnone
      rfl

/-- Two shapes of one value, made with numbers of their own, are shapes of a sample. -/
structure Counted (v : Json) (s t : Shape) : Prop where
  left : Sampled v (v.walkedKeys.map fun _ => []) s
  right : Sampled v (v.walkedKeys.map fun _ => []) t
  kin : Kin v s t

theorem Counted.of_sampled (h : Sampled v (v.walkedKeys.map fun _ => []) s) : Counted v s s :=
  ⟨h, h, .same s⟩

/-- Two field entries are for one name and for shapes of the same sort. -/
def SameField (f g : Shape) : Prop :=
  ∃ name s t, f = field name s ∧ g = field name t ∧ SameSort s t

/-- The field entries of the members of an object, made with numbers of their own. -/
structure CountedMembers (members : List (String × Json)) (fields fields' : List Shape) : Prop where
  left : SampledMembers members ((Json.walkedKeys.ofMembers members).map fun _ => []) fields
  right : SampledMembers members ((Json.walkedKeys.ofMembers members).map fun _ => []) fields'
  eq : Json.namesStructs.ofMembers members = true → fields = fields'
  sameFields : List.Forall₂ SameField fields fields'

/-- The entry of one more member goes before those of the others. -/
theorem CountedMembers.cons {name below : String} {members : List (String × Json)}
    {fields fields' : List Shape} (h : Counted v s t) (hrest : CountedMembers members fields fields') :
    CountedMembers ((name, v) :: members) (field name (nameAfter below s) :: fields)
      (field name (nameAfter below t) :: fields') where
  left := by
    rw [Json.walkedKeys.ofMembers, List.map_cons, List.map_append]
    exact .cons (h.left.nameAfter below) (.refl _) rfl (noted_field ..) hrest.left
  right := by
    rw [Json.walkedKeys.ofMembers, List.map_cons, List.map_append]
    exact .cons (h.right.nameAfter below) (.refl _) rfl (noted_field ..) hrest.right
  eq := by
    intro hnames
    simp only [Json.namesStructs.ofMembers, Bool.and_eq_true, decide_eq_true_eq] at hnames
    obtain ⟨⟨hdepth, hv⟩, hmembers⟩ := hnames
    rw [h.kin.nameAfter_eq hv hdepth below, hrest.eq hmembers]
  sameFields :=
    .cons ⟨name, _, _, rfl, rfl, (sameSort_nameAfter below s).trans
      (h.kin.sameSort.trans (sameSort_nameAfter below t).symm)⟩ hrest.sameFields

/-! ### Two jobs for one value -/

mutual

/-- Two jobs for one value run side by side, and their shapes differ in numbers only. -/
theorem lockstep_jsonJob (path : String) :
    ∀ v : Json, Job.Lockstep (Counted v) (jsonJob path v) (jsonJob path v)
  | .null => .makes (.of_sampled (.atom .null (.refl _)))
  | .bool b => .makes (.of_sampled (.atom (.bool b) (.refl _)))
  | .str text => .makes (.of_sampled (.atom (atom_ofText text) (.refl _)))
  | .float x => .makes (.of_sampled (.atom (.float x) (.refl _)))
  | .int n => by
      rw [jsonJob]
      exact Job.lockstep_done fun s hs => .of_sampled (sampled_of_ofInt hs)
  | .arr [] => .makes (.of_sampled (.empty (.refl _) rfl))
  | .arr (x :: xs) => by
      rw [jsonJob]
      exact (lockstep_jsonJob path x).bind fun e e' h => Job.lockstep_pure
        ⟨.vector h.left (.refl _) rfl, .vector h.right (.refl _) rfl, .vector h.kin⟩
  | .obj members => by
      rw [jsonJob]
      refine (lockstep_membersJob path members).bind fun fields fields' h => ?_
      exact .take fun n m => .makes
        ⟨.struct h.left (.refl _) rfl, .struct h.right (.refl _) rfl, .struct _ _ h.eq⟩

/-- Two jobs for the members of an object run side by side, and their entries differ in numbers
only. -/
theorem lockstep_membersJob (path : String) : ∀ members : List (String × Json),
    Job.Lockstep (CountedMembers members) (membersJob path members) (membersJob path members)
  | [] => .makes ⟨.nil, .nil, fun _ => rfl, .nil⟩
  | (name, v) :: rest => by
      rw [membersJob]
      refine (lockstep_jsonJob _ v).bind fun s t h => ?_
      exact (lockstep_membersJob path rest).bind fun fields fields' hrest =>
        Job.lockstep_pure (hrest.cons h)

end

end Shape

end TypeSketch
