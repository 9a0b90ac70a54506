import TypeSketch.Proofs.Record.Changes

/-!
# Records — equality

Records come about by changes (`Record.Built`), in which no key stands twice, and so do the records
that are their values, in shapes, nodes and lists.  On such records equality is an equivalence.  It
holds of two records just if one is the other rearranged (`same_iff_rearranged`): fields may come in
another order, and frozen marks and numbers of nodes may differ, in the records and in all records
below.  Records that are equal read the same under every field, and look the same as JSON
(`Record.equality_of_built`).

Equality is computed through entries and look-ups; being rearranged is an inductive relation, so
that nothing in it depends on how it is computed. The two are led together by `rel_get?_iff`: to
have the same keys and to agree on them is to read alike under every key.
-/

namespace TypeSketch

namespace Value

/-- Values that come about by changes of records.  JSON values that are read give every member of an
object one name. -/
inductive Built : Value → Prop
  | bool (b : Bool) : Built (bool b)
  | int (n : Int) : Built (int n)
  | float (x : Binary64) : Built (float x)
  | str (s : String) : Built (str s)
  | shape {declared : List Entry} {changes : List Change}
      (hdeclared : ∀ e ∈ declared, Built e.value)
      (hchanges : ∀ c ∈ changes, ∀ e ∈ c.entry?, Built e.value) :
      Built (shape ((Record.ofDeclared declared).after changes))
  | node {id : Nat} {declared : List Entry} {changes : List Change}
      (hdeclared : ∀ e ∈ declared, Built e.value)
      (hchanges : ∀ c ∈ changes, ∀ e ∈ c.entry?, Built e.value) :
      Built (node id ((Record.ofDeclared declared).after changes))
  | json {j : Json} (h : j.Proper) : Built (json j)
  | list {xs : List Value} (h : ∀ x ∈ xs, Built x) : Built (list xs)

/-- One value is the other rearranged: fields stand in any order, and what is frozen and how nodes
are numbered does not count. -/
inductive Rearranged : Value → Value → Prop
  | bool (b : Bool) : Rearranged (bool b) (bool b)
  | int (n : Int) : Rearranged (int n) (int n)
  | float {x y : Binary64} (h : x.same y = true) : Rearranged (float x) (float y)
  | str (s : String) : Rearranged (str s) (str s)
  | shape {r s : Record Value} (hkeys : r.keys.Perm s.keys)
      (h : ∀ k v w, r.get? k = some v → s.get? k = some w → Rearranged v w) :
      Rearranged (shape r) (shape s)
  | node {m n : Nat} {r s : Record Value} (hkeys : r.keys.Perm s.keys)
      (h : ∀ k v w, r.get? k = some v → s.get? k = some w → Rearranged v w) :
      Rearranged (node m r) (node n s)
  | json {i j : Json} (h : i.same j = true) : Rearranged (json i) (json j)
  | list {xs ys : List Value} (h : List.Forall₂ Rearranged xs ys) : Rearranged (list xs) (list ys)

end Value

namespace Record

/-- A record that comes about by changes. -/
def Built (r : Record Value) : Prop :=
  ∃ (declared : List Entry) (changes : List Change), (∀ e ∈ declared, e.value.Built) ∧
    (∀ c ∈ changes, ∀ e ∈ c.entry?, e.value.Built) ∧ r = (ofDeclared declared).after changes

/-- One record is the other rearranged. -/
def Rearranged (r s : Record Value) : Prop :=
  r.keys.Perm s.keys ∧ ∀ k v w, r.get? k = some v → s.get? k = some w → v.Rearranged w

/-! ### Records that come about by changes are proper -/

/-- A record that is made with proper values is proper. -/
theorem proper_ofDeclared {declared : List Entry} (h : ∀ e ∈ declared, e.value.Proper) :
    (ofDeclared declared).Proper := by
  refine ⟨nodup_keys_ofDeclared declared, fun e he => ?_⟩
  rw [entries, ofDeclared, List.append_nil] at he
  have hlookup := (Assoc.lookup_eq_some_iff_mem (Assoc.nodup_ofList _)).mpr he
  rcases Assoc.mem_of_lookup_putAll hlookup with hmem | hmem
  · obtain ⟨d, hd, heq⟩ := List.mem_map.mp hmem
    exact (Prod.mk.inj heq).2 ▸ h d hd
  · cases hmem

/-- A change that brings a proper value keeps a record proper. -/
theorem Proper.makes {c : Change} {r r' : Record Value} (hr : r.Proper)
    (hc : ∀ e ∈ c.entry?, e.value.Proper) (h : c.Makes r r') : r'.Proper := by
  refine ⟨h.nodup_keys hr.keys_nodup, fun e he => ?_⟩
  rcases h.mem_entries he with he | ⟨brought, hb, -, hv⟩
  · exact hr.values e he
  · rcases hv with hv | ⟨items, hget, hv⟩
    · exact hv ▸ Entry.proper_stored (hc brought hb)
    · rw [hv]
      refine .list (List.forall_mem_append.mpr ⟨?_, (hc brought hb).elements⟩)
      cases hr.get? hget with
      | list hitems => exact hitems

theorem proper_after {declared : List Entry} {changes : List Change}
    (hdeclared : ∀ e ∈ declared, e.value.Proper)
    (hchanges : ∀ c ∈ changes, ∀ e ∈ c.entry?, e.value.Proper) :
    ((ofDeclared declared).after changes).Proper :=
  after_induction (fun c hc _ _ hr hm => hr.makes (hchanges c hc) hm) (proper_ofDeclared hdeclared)

end Record

namespace Value

/-- A value that comes about by changes is proper. -/
theorem Built.proper {v : Value} (hv : v.Built) : v.Proper := by
  induction hv with
  | bool b => exact .bool b
  | int n => exact .int n
  | float x => exact .float x
  | str s => exact .str s
  | shape _ _ ihd ihc | node _ _ ihd ihc =>
    have hr := Record.proper_after ihd ihc
    constructor
    · exact hr.keys_nodup
    · exact hr.values
  | json h => exact .json h
  | list _ ih => exact .list ih

end Value

theorem Record.Built.proper {r : Record Value} (hr : r.Built) : r.Proper := by
  obtain ⟨declared, changes, hd, hc, rfl⟩ := hr
  exact proper_after (fun e he => (hd e he).proper) fun c hc' e he => (hc c hc' e he).proper

/-! ### Equality is being rearranged -/

namespace Record

/-- To read alike under every key is to have the same keys and to agree on them. -/
theorem rel_get?_iff {R : Value → Value → Prop} {r s : Record Value} (hr : r.keys.Nodup)
    (hs : s.keys.Nodup) : (∀ k, Option.Rel R (r.get? k) (s.get? k)) ↔
      r.keys.Perm s.keys ∧ ∀ k v w, r.get? k = some v → s.get? k = some w → R v w := by
  have hmem : ∀ (t : Record Value) k, k ∈ t.keys ↔ (t.get? k).isSome := fun t k => by
    rw [get?_eq_lookup, Assoc.lookup_isSome_iff, keys]
  constructor
  · intro h
    refine ⟨(List.perm_ext_iff_of_nodup hr hs).mpr fun k => ?_, fun k v w hv hw => ?_⟩
    · rw [hmem, hmem, Assoc.isSome_eq_of_rel (h k)]
    · have hk := h k
      rw [hv, hw] at hk
      cases hk with
      | some hvw => exact hvw
  · rintro ⟨hkeys, h⟩ k
    have hk : (r.get? k).isSome = (s.get? k).isSome := by
      rw [Bool.eq_iff_iff, ← hmem, ← hmem]
      exact hkeys.mem_iff
    cases hv : r.get? k <;> cases hw : s.get? k <;> rw [hv, hw] at hk
    · exact .none
    · cases hk
    · cases hk
    · exact .some (h k _ _ hv hw)

/-- If equal values are those that are rearranged, so are equal records. -/
theorem sameRecord_iff_of {r s : Record Value} (hr : r.keys.Nodup) (hs : s.keys.Nodup)
    (step : ∀ e ∈ r.entries, ∀ f ∈ s.entries, Value.same e.2 f.2 = true ↔ e.2.Rearranged f.2) :
    Value.sameRecord r s = true ↔ r.Rearranged s := by
  rw [Value.sameRecord_iff hr hs, rel_get?_iff hr hs]
  refine and_congr_right fun _ => ?_
  refine forall_congr' fun k => forall_congr' fun v => forall_congr' fun w =>
    imp_congr_right fun hv => imp_congr_right fun hw => ?_
  exact step _ (mem_of_get? hv) _ (mem_of_get? hw)

end Record

namespace Value

theorem rearranged_shape_iff {r s : Record Value} :
    (shape r).Rearranged (shape s) ↔ r.Rearranged s :=
  ⟨fun h => by cases h with | shape hkeys h => exact ⟨hkeys, h⟩, fun h => .shape h.1 h.2⟩

theorem rearranged_node_iff {m n : Nat} {r s : Record Value} :
    (node m r).Rearranged (node n s) ↔ r.Rearranged s :=
  ⟨fun h => by cases h with | node hkeys h => exact ⟨hkeys, h⟩, fun h => .node h.1 h.2⟩

theorem rearranged_list_iff {xs ys : List Value} :
    (list xs).Rearranged (list ys) ↔ List.Forall₂ Rearranged xs ys :=
  ⟨fun h => by cases h with | list h => exact h, .list⟩

theorem Rearranged.kind_eq {v w : Value} (h : v.Rearranged w) : v.kind = w.kind := by
  cases h <;> rfl

theorem kind_eq_of_same {v w : Value} (h : same v w = true) : v.kind = w.kind := by
  cases v <;> cases w <;> first | rfl | simp [same] at h

theorem same_iff_rearranged_of_kind_ne {v w : Value} (h : v.kind ≠ w.kind) :
    same v w = true ↔ v.Rearranged w :=
  iff_of_false (fun hs => h (kind_eq_of_same hs)) fun hr => h hr.kind_eq

/-- Two proper values are the same if one is the other rearranged, and only then. -/
theorem same_iff_rearranged {v w : Value} (hv : v.Proper) (hw : w.Proper) :
    same v w = true ↔ v.Rearranged w := by
  -- On the first value.  A second one of another kind is neither the same nor rearranged.
  induction hv generalizing w with
  | bool a =>
    cases w with
    | bool b =>
      rw [same, beq_iff_eq]
      exact ⟨fun h => h ▸ .bool a, fun h => by cases h; rfl⟩
    | _ => exact same_iff_rearranged_of_kind_ne (by simp [kind])
  | int a =>
    cases w with
    | int b =>
      rw [same, beq_iff_eq]
      exact ⟨fun h => h ▸ .int a, fun h => by cases h; rfl⟩
    | _ => exact same_iff_rearranged_of_kind_ne (by simp [kind])
  | str a =>
    cases w with
    | str b =>
      rw [same, beq_iff_eq]
      exact ⟨fun h => h ▸ .str a, fun h => by cases h; rfl⟩
    | _ => exact same_iff_rearranged_of_kind_ne (by simp [kind])
  | float x =>
    cases w with
    | float y =>
      rw [same]
      exact ⟨.float, fun h => by cases h with | float h => exact h⟩
    | _ => exact same_iff_rearranged_of_kind_ne (by simp [kind])
  | json =>
    cases w with
    | json j =>
      rw [same]
      exact ⟨.json, fun h => by cases h with | json h => exact h⟩
    | _ => exact same_iff_rearranged_of_kind_ne (by simp [kind])
  | shape hk hvs ih =>
    cases hw with
    | shape hk' hs =>
      rw [same, rearranged_shape_iff]
      exact Record.sameRecord_iff_of hk hk' fun e he f hf => ih e he (hs f hf)
    | _ => exact same_iff_rearranged_of_kind_ne (by simp [kind])
  | node hk hvs ih =>
    cases hw with
    | node hk' hs =>
      rw [same, rearranged_node_iff]
      exact Record.sameRecord_iff_of hk hk' fun e he f hf => ih e he (hs f hf)
    | _ => exact same_iff_rearranged_of_kind_ne (by simp [kind])
  | list hxs ih =>
    cases hw with
    | list hys =>
      rw [same, rearranged_list_iff, sameItems_iff]
      exact ⟨fun h => forall₂_imp_of_mem h fun x hx y hy => (ih x hx (hys y hy)).mp,
        fun h => forall₂_imp_of_mem h fun x hx y hy => (ih x hx (hys y hy)).mpr⟩
    | _ => exact same_iff_rearranged_of_kind_ne (by simp [kind])

/-! ### What equal records have in common -/

theorem itemsToJson_eq (xs : List Value) : itemsToJson xs = xs.map toJson := by
  induction xs with
  | nil => rfl
  | cons x xs ih => rw [itemsToJson, ih, List.map_cons]

theorem entriesToJson_eq (es : List (String × Value)) :
    entriesToJson es = es.map fun e => (e.1, toJson e.2) := by
  induction es with
  | nil => rfl
  | cons e es ih => rw [entriesToJson, ih, List.map_cons]

theorem recordToJson_eq (r : Record Value) :
    recordToJson r = .obj (r.entries.map fun e => (e.1, toJson e.2)) := by
  obtain ⟨declared, extra, frozen⟩ := r
  rw [recordToJson, entriesToJson_eq, entriesToJson_eq, ← List.map_append, Record.entries]

/-- If equal values look the same as JSON, so do equal records. -/
theorem same_recordToJson_of {r s : Record Value} (hr : r.keys.Nodup) (hs : s.keys.Nodup)
    (h : sameRecord r s = true)
    (step : ∀ e ∈ r.entries, ∀ f ∈ s.entries, same e.2 f.2 = true →
      (toJson e.2).same (toJson f.2) = true) :
    (recordToJson r).same (recordToJson s) = true := by
  have hkeys : ∀ t : Record Value,
      (t.entries.map fun e => (e.1, toJson e.2)).map Prod.fst = t.keys := fun t => by
    rw [List.map_map, Record.keys]
    rfl
  rw [recordToJson_eq, recordToJson_eq, Json.same_obj_iff (by rwa [hkeys]) (by rwa [hkeys])]
  intro k
  rw [Assoc.lookup_mapValues, Assoc.lookup_mapValues, ← Record.get?_eq_lookup,
    ← Record.get?_eq_lookup]
  have hk := (sameRecord_iff hr hs).mp h k
  cases hv : r.get? k <;> cases hw : s.get? k <;> rw [hv, hw] at hk <;> cases hk
  · exact .none
  · next hvw => exact .some (step _ (Record.mem_of_get? hv) _ (Record.mem_of_get? hw) hvw)

/-- Equal numbers are finite or not together, and JSON has none that is not. -/
theorem same_toJson_float {x y : Binary64} (h : x.same y = true) :
    (toJson (float x)).same (toJson (float y)) = true := by
  have hfinite : x.isFinite = y.isFinite := by
    cases x <;> cases y <;> simp_all [Binary64.same, Binary64.isFinite]
  rw [toJson, toJson, hfinite]
  cases y.isFinite with
  | true => exact h
  | false => rfl

/-- Values that are the same look the same as JSON. -/
theorem same_toJson {v w : Value} (hv : v.Proper) (hw : w.Proper) (h : same v w = true) :
    v.toJson.same w.toJson = true := by
  induction hv generalizing w with
  | bool | int | str => cases w <;> simp_all [same, toJson, Json.same]
  | float x =>
    cases w with
    | float y =>
      rw [same] at h
      exact same_toJson_float h
    | _ => simp [same] at h
  | json hj =>
    cases w with
    | json j =>
      rw [same] at h
      exact h
    | _ => simp [same] at h
  | shape hk _ ih =>
    cases hw with
    | shape hk' hs =>
      rw [same] at h
      exact same_recordToJson_of hk hk' h fun e he f hf => ih e he (hs f hf)
    | _ => simp [same] at h
  | node hk _ ih =>
    cases hw with
    | node hk' hs =>
      rw [same] at h
      exact same_recordToJson_of hk hk' h fun e he f hf => ih e he (hs f hf)
    | _ => simp [same] at h
  | @list xs hxs ih =>
    cases hw with
    | @list ys hys =>
      rw [same, sameItems_iff] at h
      rw [toJson, toJson, itemsToJson_eq, itemsToJson_eq, Json.same, Json.sameItems_iff,
        List.forall₂_map_left_iff, List.forall₂_map_right_iff]
      exact (forall₂_imp_of_mem h fun x hx y hy hxy => ih x hx (hys y hy) hxy)
    | _ => simp [same] at h

end Value

namespace Record

theorem size_eq_of_same {r s : Record Value} (h : Value.sameRecord r s = true) :
    r.size = s.size := by
  obtain ⟨declared, extra, frozen⟩ := r
  rw [Value.sameRecord, Bool.and_eq_true, beq_iff_eq] at h
  exact h.1

/-- On records that come about by changes equality is an equivalence, and holds of what is
rearranged and of nothing else.  Equal records have equal values under every field, are of one size,
and are equal as JSON. -/
theorem equality_of_built {r s t : Record Value} (hr : r.Built) (hs : s.Built) (ht : t.Built) :
    (Value.sameRecord r r = true ∧
      (Value.sameRecord r s = true → Value.sameRecord s r = true) ∧
      (Value.sameRecord r s = true → Value.sameRecord s t = true →
        Value.sameRecord r t = true)) ∧
    (Value.sameRecord r s = true ↔ r.Rearranged s) ∧
    (Value.sameRecord r s = true →
      (∀ f : Field, (∀ v ∈ f.absent?, v.Built) →
        Option.Rel (fun v w => v.same w = true) (r.field? f) (s.field? f)) ∧
      r.size = s.size ∧ (Value.recordToJson r).same (Value.recordToJson s) = true) := by
  have hr' := hr.proper
  have hs' := hs.proper
  refine ⟨⟨Value.sameRecord_refl hr', Value.sameRecord_symm hr' hs',
    Value.sameRecord_trans hr' hs' ht.proper⟩, ?_, fun h => ⟨fun f hf => ?_, size_eq_of_same h, ?_⟩⟩
  · exact sameRecord_iff_of hr'.keys_nodup hs'.keys_nodup fun e he f hf =>
      Value.same_iff_rearranged (hr'.values e he) (hs'.values f hf)
  · exact field?_rel_of_same hr'.keys_nodup hs'.keys_nodup h fun v hv => (hf v hv).proper
  · exact Value.same_recordToJson_of hr'.keys_nodup hs'.keys_nodup h fun e he f hf =>
      Value.same_toJson (hr'.values e he) (hs'.values f hf)

/-- A pin of a bolt, as a node with a number. -/
def pin (id : Nat) : Value := .node id (ofDeclared [⟨"kind", .str, .str "pin"⟩])

/-- A bolt with its pins. -/
def bolt (ids : List Nat) : Record Value :=
  (ofDeclared [⟨"name", .str, .str "bolt"⟩, ⟨"size", .int, .int 3⟩]).after
    [.append ⟨"pins", .list, .list (ids.map pin)⟩]

/-- A bolt of which all was said the other way round, and which is frozen since. -/
def turnedBolt (ids : List Nat) : Record Value :=
  (ofDeclared [⟨"size", .int, .int 3⟩, ⟨"pins", .list, .list (ids.map pin)⟩]).after
    [.put ⟨"name", .str, .str "bolt"⟩, .freeze]

theorem built_pins (ids : List Nat) : (Value.list (ids.map pin)).Built := by
  refine .list fun v hv => ?_
  obtain ⟨id, -, rfl⟩ := List.mem_map.mp hv
  have hkind : ∀ e ∈ [(⟨"kind", .str, .str "pin"⟩ : Entry)], e.value.Built :=
    List.forall_mem_singleton.mpr (.str "pin")
  have hnone : ∀ c ∈ ([] : List Change), ∀ e ∈ c.entry?, e.value.Built := nofun
  exact .node hkind hnone

theorem built_bolt (ids : List Nat) : (bolt ids).Built := by
  refine ⟨_, _, ?_, ?_, rfl⟩
  · exact List.forall_mem_cons.mpr ⟨.str _, List.forall_mem_singleton.mpr (.int _)⟩
  · refine List.forall_mem_singleton.mpr ?_
    rintro _ ⟨⟩
    exact built_pins ids

theorem built_turnedBolt (ids : List Nat) : (turnedBolt ids).Built := by
  refine ⟨_, _, ?_, ?_, rfl⟩
  · exact List.forall_mem_cons.mpr ⟨.int _, List.forall_mem_singleton.mpr (built_pins ids)⟩
  · refine List.forall_mem_cons.mpr ⟨?_, List.forall_mem_singleton.mpr nofun⟩
    rintro _ ⟨⟩
    exact .str _

/-- The bolt and the turned bolt are equal, and one is the other rearranged. -/
theorem equality_of_bolts :
    (bolt [1, 2]).Built ∧ (turnedBolt [3, 4]).Built ∧ (bolt [5, 6]).Built ∧
      Value.sameRecord (bolt [1, 2]) (turnedBolt [3, 4]) = true ∧
      Value.sameRecord (turnedBolt [3, 4]) (bolt [1, 2]) = true ∧
      Value.sameRecord (bolt [1, 2]) (bolt [5, 6]) = true ∧
      (bolt [1, 2]).Rearranged (turnedBolt [3, 4]) ∧
      (bolt [1, 2]).size = (turnedBolt [3, 4]).size ∧
      (Value.recordToJson (bolt [1, 2])).same (Value.recordToJson (turnedBolt [3, 4])) = true := by
  have hsame : Value.sameRecord (bolt [1, 2]) (turnedBolt [3, 4]) = true := by decide +kernel
  have hsame' : Value.sameRecord (turnedBolt [3, 4]) (bolt [5, 6]) = true := by decide +kernel
  obtain ⟨⟨-, hsymm, htrans⟩, hiff, hlike⟩ := equality_of_built (built_bolt [1, 2])
    (built_turnedBolt [3, 4]) (built_bolt [5, 6])
  obtain ⟨-, hsize, hjson⟩ := hlike hsame
  exact ⟨built_bolt _, built_turnedBolt _, built_bolt _, hsame, hsymm hsame, htrans hsame hsame',
    hiff.mp hsame, hsize, hjson⟩

end Record

end TypeSketch
