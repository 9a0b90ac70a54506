import TypeSketch.Proofs.Json.Reading
import TypeSketch.Proofs.Json.Sameness

/-!
# Reading JSON — the values are proper

An object that repeats a name has one member for it, so that a value that a text holds is proper
(`proper_of_parse`).  Whatever a strict reader has read settles to a proper value, if to any
(`Reader.Settles`), and a token keeps it so.

The invariant has three layers, as the reader has: outlines, the open arrays and objects around
them, and the reader with its stack. What a step can do to the outermost layer is put together from
a few moves (`Reader.settles_complete`, `Reader.settles_close`, `Reader.settles_startValue`,
`Reader.settles_readName`), so that the places of the reader are looked at in one proof only
(`Reader.settles_of_step`).
-/

namespace TypeSketch.Json

/-- The value of the outline is proper, if it has one. -/
def Outline.Settles (o : Outline) : Prop := ∀ v, o.settle? = some v → v.Proper

/-- The values in an open array or object are proper, as far as they go. -/
def Frame.Settles : Frame → Prop
  | .arr items => ∀ o ∈ items, o.Settles
  | .obj members _ => ∀ m ∈ members, m.2.Settles

/-- Everything that has been read is proper, as far as it goes. -/
structure Reader.Settles (reader : Reader) : Prop where
  stack : ∀ frame ∈ reader.stack, frame.Settles
  done : ∀ o, reader.place = .done o → o.Settles

/-! ### Outlines -/

/-- An atom is proper. -/
theorem Outline.settles_of_isAtomic {v : Json} (h : v.isAtomic = true) :
    (Outline.scalar v).Settles := by
  intro v' hv
  rw [settle?] at hv
  cases hv
  cases v with
  | null => exact .null
  | bool b => exact .bool b
  | int n => exact .int n
  | float x => exact .float x
  | _ => cases h

theorem Outline.settles_text (s : String) : (Outline.scalar (.str s)).Settles := by
  intro v hv
  rw [settle?] at hv
  cases hv
  exact .str s

theorem Outline.settles_lapse : Outline.lapse.Settles := fun v hv => by
  simp [settle?] at hv

/-- An array of items that settle settles. -/
theorem Outline.settles_arr {items : List Outline} (h : ∀ o ∈ items, o.Settles) :
    (Outline.arr items false).Settles := by
  have hitems : ∀ {items : List Outline} {xs}, (∀ o ∈ items, o.Settles) →
      settleItems? items = some xs → ∀ x ∈ xs, x.Proper := by
    intro items
    induction items with
    | nil =>
      intro xs _ hxs
      rw [settleItems?] at hxs
      cases hxs
      nofun
    | cons o rest ih =>
      intro xs h hxs
      obtain ⟨ho, hrest⟩ := List.forall_mem_cons.mp h
      rw [settleItems?] at hxs
      obtain ⟨x, hx, hxs⟩ := Option.bind_eq_some_iff.mp hxs
      obtain ⟨xs', hxs', hxs⟩ := Option.bind_eq_some_iff.mp hxs
      cases hxs
      exact List.forall_mem_cons.mpr ⟨ho x hx, ih hrest hxs'⟩
  intro v hv
  rw [settle?] at hv
  obtain ⟨xs, hxs, rfl⟩ := Option.map_eq_some_iff.mp hv
  exact .arr (hitems h hxs)

/-- An object of members that settle settles, since a name that is repeated has one value. -/
theorem Outline.settles_obj {members : List (Option String × Outline)}
    (h : ∀ m ∈ members, m.2.Settles) : (Outline.obj members none).Settles := by
  have hmembers : ∀ {members : List (Option String × Outline)} {ms}, (∀ m ∈ members, m.2.Settles) →
      settleMembers? members = some ms → ∀ m ∈ ms, m.2.Proper := by
    intro members
    induction members with
    | nil =>
      intro ms _ hms
      rw [settleMembers?] at hms
      cases hms
      nofun
    | cons m rest ih =>
      obtain ⟨name, o⟩ := m
      intro ms h hms
      obtain ⟨ho, hrest⟩ := List.forall_mem_cons.mp h
      rw [settleMembers?] at hms
      obtain ⟨name', -, hms⟩ := Option.bind_eq_some_iff.mp hms
      obtain ⟨v, hv, hms⟩ := Option.bind_eq_some_iff.mp hms
      obtain ⟨ms', hms', hms⟩ := Option.bind_eq_some_iff.mp hms
      cases hms
      exact List.forall_mem_cons.mpr ⟨ho v hv, ih hrest hms'⟩
  intro v hv
  rw [settle?] at hv
  obtain ⟨ms, hms, rfl⟩ := Option.map_eq_some_iff.mp hv
  -- a repeated name has kept one value
  exact .obj (Assoc.nodup_ofList ms) fun m hm => hmembers h hms m (Assoc.mem_of_mem_ofList hm)

/-! ### Reading -/

namespace Reader

variable {stack rest : List Frame} {t : Token} {reader next : Reader} {o : Outline}

/-- To complete a value that settles leaves everything settled. -/
theorem settles_complete (hstack : ∀ frame ∈ stack, frame.Settles) (ho : o.Settles) :
    (complete stack o).Settles := by
  rcases stack with _ | ⟨⟨items⟩ | ⟨members, name⟩, rest⟩
  · refine ⟨nofun, fun o' ho' => ?_⟩
    cases ho'
    exact ho
  all_goals
    obtain ⟨hframe, hrest⟩ := List.forall_mem_cons.mp hstack
    exact ⟨List.forall_mem_cons.mpr ⟨List.forall_mem_cons.mpr ⟨ho, hframe⟩, hrest⟩, nofun⟩

/-- To close what settles leaves everything settled. -/
theorem settles_close (hstack : ∀ frame ∈ rest, frame.Settles) (ho : o.Settles) :
    (close rest o).Settles := by
  rw [close]
  split
  · exact settles_complete hstack ho
  · exact settles_complete hstack Outline.settles_lapse

/-- To start a value leaves everything settled. -/
theorem settles_startValue (hstack : ∀ frame ∈ stack, frame.Settles) (hleaf : t.IsLeaf)
    (h : startValue true stack t = .ok next) : next.Settles := by
  have hopen : ∀ {frame place}, enter true stack frame place = .ok next → frame.Settles →
      (∀ o, place ≠ .done o) → next.Settles := by
    intro frame place h hframe hplace
    rw [enter] at h
    split at h
    · cases h
    · cases h
      exact ⟨List.forall_mem_cons.mpr ⟨hframe, hstack⟩, fun o ho => absurd ho (hplace o)⟩
  cases t with
  | atom v apart =>
    cases v with
    | none => cases h
    | some v =>
      cases h
      exact settles_complete hstack (Outline.settles_of_isAtomic (hleaf v _ rfl))
  | text s =>
    cases s with
    | none => cases h
    | some s => cases h; exact settles_complete hstack (Outline.settles_text s)
  | beginArr | beginObj => exact hopen h (List.forall_mem_nil _) fun _ ho => by cases ho
  | _ => cases h

/-- To read a name leaves everything settled. -/
theorem settles_readName (hstack : ∀ frame ∈ stack, frame.Settles)
    (h : readName true stack t = .ok next) : next.Settles := by
  cases t with
  | text s =>
    rcases stack with _ | ⟨⟨items⟩ | ⟨members, name⟩, rest⟩
    · cases h
    · cases h
    · obtain ⟨hframe, hrest⟩ := List.forall_mem_cons.mp hstack
      rw [readName] at h
      split at h
      · cases h
      · cases h
        exact ⟨List.forall_mem_cons.mpr ⟨hframe, hrest⟩, fun _ ho => by cases ho⟩
  | _ => cases h

/-- A token leaves what has been read proper. -/
theorem settles_of_step (hreader : reader.Settles) (hleaf : t.IsLeaf)
    (h : reader.step true t = .ok next) : next.Settles := by
  -- A frame has its parts in reverse.
  have harr : ∀ {items : List Outline}, (Frame.arr items).Settles →
      (Outline.arr items.reverse false).Settles := fun h =>
    Outline.settles_arr fun o ho => h o (List.mem_reverse.mp ho)
  have hobj : ∀ {members name}, (Frame.obj members name).Settles →
      (Outline.obj members.reverse none).Settles := fun h =>
    Outline.settles_obj fun m hm => h m (List.mem_reverse.mp hm)
  rw [step.eq_def] at h
  have hstack := hreader.stack
  split at h
  · cases h
  · exact settles_startValue hstack hleaf h
  · cases h
    obtain ⟨hframe, hrest⟩ := List.forall_mem_cons.mp hstack
    exact settles_close hrest (harr hframe)
  · exact settles_startValue hstack hleaf h
  · cases h
    obtain ⟨hframe, hrest⟩ := List.forall_mem_cons.mp hstack
    exact settles_close hrest (hobj hframe)
  · exact settles_readName hstack h
  · exact settles_readName hstack h
  · cases h
    exact ⟨hstack, fun _ ho => by cases ho⟩
  · cases h
    exact ⟨hstack, fun _ ho => by cases ho⟩
  · cases h
    obtain ⟨hframe, hrest⟩ := List.forall_mem_cons.mp hstack
    exact settles_close hrest (harr hframe)
  · cases h
    obtain ⟨hframe, hrest⟩ := List.forall_mem_cons.mp hstack
    exact ⟨List.forall_mem_cons.mpr ⟨hframe, hrest⟩, fun _ ho => by cases ho⟩
  · cases h
    obtain ⟨hframe, hrest⟩ := List.forall_mem_cons.mp hstack
    exact settles_close hrest (hobj hframe)
  · cases h

/-- Tokens leave what has been read proper. -/
theorem settles_of_foldlM {ts : List Token} (hreader : reader.Settles) (hleaf : ∀ t ∈ ts, t.IsLeaf)
    (h : ts.foldlM (step true) reader = .ok next) : next.Settles := by
  induction ts generalizing reader with
  | nil =>
    cases h
    exact hreader
  | cons t ts ih =>
    rw [List.foldlM_cons] at h
    obtain ⟨reader', hstep, hrest⟩ := Except.bind_eq_ok.mp h
    obtain ⟨ht, hts⟩ := List.forall_mem_cons.mp hleaf
    exact ih (settles_of_step hreader ht hstep) hts hrest

end Reader

/-- The value that a text holds is proper. -/
theorem proper_of_parse {text : String} {v : Json} (h : parse text = .ok v) : v.Proper := by
  obtain ⟨o, ho, hv⟩ := exists_outline?_of_parse h
  obtain ⟨stack, hread⟩ := exists_foldlM_of_outline? ho
  have hstart : Reader.Settles {} := ⟨nofun, nofun⟩
  exact (Reader.settles_of_foldlM hstart isLeaf_of_mem_tokens hread).done o rfl v hv

end TypeSketch.Json
