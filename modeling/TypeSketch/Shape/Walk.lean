import TypeSketch.Shape.Build
import TypeSketch.Tour

/-!
# Walks over shapes

A walk goes into the fields of structs and the elements of vectors, a level deeper each time. It
visits everything else: field entries, whose own shape it walks at their level, and leaves. A walk
that changes shapes passes by what is frozen.
-/

namespace TypeSketch

namespace Shape

/-- The shapes that a walk visits, each with its level. -/
def visits (level : Nat) (s : Shape) : List (Nat × Shape) :=
  if s.flag Trait.struct then s.fields.attach.flatMap fun ⟨t, _⟩ => visits (level + 1) t
  else if s.flag Trait.vector then s.generics.attach.flatMap fun ⟨t, _⟩ => visits (level + 1) t
  else
    (level, s) ::
      match _h : s.fieldType? with
      | some t => visits level t
      | none => []
termination_by s.depth
decreasing_by
  · exact depth_lt_of_mem_fields ‹_›
  · exact depth_lt_of_mem_generics ‹_›
  · exact depth_lt_of_fieldType? ‹_›

/-- The shape with every shape in the list under a key changed by `f`. -/
def editListAt {m : Type → Type} [Monad m] (key : String) (f : Shape → m Shape) (s : Shape) :
    m Shape := do
  let edit : Value → m Value
    | .list items => return .list (← items.mapM fun
      | .shape r => return (← f ⟨r⟩).toValue
      | v => return v)
    | v => return v
  return ⟨← s.modifyAt key edit⟩

/-- Walk `s`, changing what is visited. The walk goes down `fuel` shapes. -/
def editWithin {m : Type → Type} [Monad m] (visit : Nat → Shape → m Shape) :
    Nat → Nat → Shape → m Shape
  | 0, _, s => return s
  | fuel + 1, level, s => do
    if s.frozen then return s
    else if s.flag Trait.struct then
      s.editListAt Trait.fields.key (editWithin visit fuel (level + 1))
    else if s.flag Trait.vector then
      s.editListAt Trait.generics.key (editWithin visit fuel (level + 1))
    else
      let s ← visit level s
      match s.fieldType? with
      | some t =>
        if t.frozen || s.frozen then return s
        else
          let t ← editWithin visit fuel level t
          return ⟨s.set Trait.fieldType.key t.toValue⟩
      | none => return s

/-- Walk `s`, changing what is visited. -/
def edit {m : Type → Type} [Monad m] (visit : Nat → Shape → m Shape) (s : Shape) : m Shape :=
  editWithin visit (s.depth + 1) 0 s

/-- Walk the field entries of `s`, changing them. A visit gets the level, the name, and how many
entries of that name have been visited, this one included; it may stop the walk. -/
def editNumbered {σ : Type}
    (visit : (level nth : Nat) → (name : String) → Shape → σ → Shape × σ × Option Error)
    (s : Shape) (state : σ) : Shape × σ × Option Error :=
  let numbered (level : Nat) (s : Shape) (st : List (String × Nat) × σ) :
      Shape × (List (String × Nat) × σ) × Option Error :=
    match s.fieldName? with
    | none => (s, st, none)
    | some name =>
      let nth := (st.1.lookup name).getD 0 + 1
      let (s, state, stopped) := visit level nth name s st.2
      (s, (Assoc.put name nth st.1, state), stopped)
  let (s, tour) := s.edit (fun level => Tour.visit (numbered level)) |>.run ⟨([], state), none⟩
  (s, tour.state.2, tour.stopped)

end Shape

end TypeSketch
