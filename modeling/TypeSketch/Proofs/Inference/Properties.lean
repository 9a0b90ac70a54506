import TypeSketch.Proofs.Inference.Returns
import TypeSketch.Proofs.Record.Laying

/-!
# Inference — the properties of a class

A class has as properties the members of `this` that are assigned to in it, each once, in the order
in which the program first assigns to them (`properties_of_class`).  What is in a class inside it
does not count, what is in a method does (`Node.inClass`).  No difference is made between `this.x`
and `this[x]`: a computed member counts under the name of the variable that the key is read from
(`properties_of_computed`).

The properties are collected while declarations are recorded, by the class that is open then
(`Collects`); `mem_inClass_iff` tells that class by the place of the assignment in the program.
-/

namespace TypeSketch

/-! ### Lists of names -/

/-- A list without repetitions repeats nothing. -/
theorem nodup_eraseDups (l : List String) : l.eraseDups.Nodup := by
  induction l using List.reverseRecOn with
  | nil => exact List.nodup_nil
  | append_singleton l k ih =>
    rw [eraseDups_concat]
    split
    · exact ih
    · next hk =>
      rw [← List.concat_eq_append, List.nodup_concat]
      exact ⟨List.mem_eraseDups.not.mpr hk, ih⟩

/-- What is picked from parts of a list that hold the same items to pick, in the order of the
list. -/
theorem filterMap_eq_of_sublist {α β : Type} {f : α → Option β} {l l₁ l₂ : List α} (hl : l.Nodup)
    (h₁ : l₁.Sublist l) (h₂ : l₂.Sublist l)
    (h : ∀ a ∈ l, ∀ b, f a = some b → (a ∈ l₁ ↔ a ∈ l₂)) : l₁.filterMap f = l₂.filterMap f := by
  have hpick (l : List α) : (l.filter fun a => (f a).isSome).filterMap f = l.filterMap f := by
    rw [List.filterMap_filter]
    refine List.filterMap_congr fun a _ => ?_
    cases f a <;> rfl
  have hperm : (l₁.filter fun a => (f a).isSome).Perm (l₂.filter fun a => (f a).isSome) := by
    refine (List.perm_ext_iff_of_nodup ((hl.sublist h₁).filter _) ((hl.sublist h₂).filter _)).mpr
      fun a => ?_
    rw [List.mem_filter, List.mem_filter]
    refine and_congr_left fun hsome => ?_
    obtain ⟨b, hb⟩ := Option.isSome_iff_exists.mp hsome
    exact ⟨fun ha => (h a (h₁.subset ha) b hb).mp ha, fun ha => (h a (h₂.subset ha) b hb).mpr ha⟩
  rw [← hpick l₁, ← hpick l₂, (hl.perm_iff_eq_of_sublist (List.filter_sublist.trans h₁)
    (List.filter_sublist.trans h₂)).mp hperm]

/-! ### Assignments to members -/

namespace Node

/-- The node assigns to a member of `this`: to `this.x`, or to `this[x]` if the member is
computed. -/
inductive AssignsMember (x : String) (computed : Bool) : Node → Prop
  | intro {a left right object property : Node}
      (assign : a.toRecord = (NodeForm.assign left right).record)
      (member : left.toRecord = (NodeForm.member object property computed).record)
      (this : object.toRecord = NodeForm.this.record)
      (identifier : property.toRecord = (NodeForm.identifier x).record) :
      AssignsMember x computed a

variable {a n : Node} {x : String} {computed : Bool}

/-- An assignment declares nothing. -/
theorem AssignsMember.declares_nothing (h : a.AssignsMember x computed) :
    a.Transparent ∧ a.flag Attr.variableDeclaration = false := by
  obtain ⟨ha, -, -, -⟩ := h
  rw [ha]
  exact ⟨⟨ha ▸ rfl, ha ▸ rfl⟩, rfl⟩

/-- What is read off an assignment to a member. -/
theorem AssignsMember.reads (h : a.AssignsMember x computed) :
    ∃ left object property, a.node? Attr.assignExpressionLeft = some left ∧
      left.flag Attr.computedMemberExpression = computed ∧
      left.node? Attr.memberExpressionObject = some object ∧
      left.node? Attr.memberExpressionProperty = some property ∧
      object.flag Attr.thisExpression = true ∧ property.str? Attr.identifier = some x := by
  cases h with
  | @intro left _ object property ha hmember hthis hidentifier =>
    refine ⟨left, object, property, by rw [ha]; rfl, ?_, ?_, ?_, by rw [hthis]; rfl,
      by rw [hidentifier]; rfl⟩
    all_goals
      rw [hmember]
      cases computed <;> rfl

theorem AssignsMember.assignedProperty? (h : a.AssignsMember x computed) :
    Scopes.assignedProperty? a = some x := by
  obtain ⟨left, object, property, hleft, -, hobject, hproperty, hthis, hname⟩ := h.reads
  simp [Scopes.assignedProperty?, hleft, hobject, hproperty, hthis, hname]

/-- What is recorded for a node is the member of `this` that the node assigns to, computed or
not. -/
theorem Made.assignedProperty?_eq_some_iff (hn : n.Made) :
    Scopes.assignedProperty? n = some x ↔ ∃ computed, n.AssignsMember x computed := by
  refine ⟨fun h => ?_, fun ⟨_, h⟩ => h.assignedProperty?⟩
  obtain ⟨left, hleft, h⟩ := Option.bind_eq_some_iff.mp h
  obtain ⟨object, hobject, h⟩ := Option.bind_eq_some_iff.mp h
  split at h
  case isFalse => cases h
  case isTrue hthis =>
    obtain ⟨property, hproperty, hname⟩ := Option.bind_eq_some_iff.mp h
    have hl : left.Made := hn.children left (mem_children_of_node? rfl hleft)
    have ho : object.Made := hl.children object (mem_children_of_node? rfl hobject)
    have hp : property.Made := hl.children property (mem_children_of_node? rfl hproperty)
    -- each of the four nodes has the form that carries what is read off it
    obtain ⟨f, hf, -⟩ := hn.form
    obtain ⟨right, rfl⟩ := NodeForm.eq_assign (hf ▸ hleft)
    obtain ⟨g, hg, -⟩ := hl.form
    obtain ⟨property', computed, rfl⟩ := NodeForm.eq_member (hg ▸ hobject)
    obtain rfl : property' = property := by
      rw [hg] at hproperty
      cases computed <;> exact Option.some.inj hproperty
    obtain ⟨k, hk, -⟩ := ho.form
    obtain rfl := NodeForm.eq_this (hk ▸ hthis)
    obtain ⟨q, hq, -⟩ := hp.form
    obtain rfl := NodeForm.eq_identifier (hq ▸ hname)
    exact ⟨computed, hf, hg, hk, hq⟩

end Node

/-! ### What recording collects -/

namespace Scopes

variable {n : Node} {scope : Scope} {env : Scopes} {seen : List (Node × Scope)}

/-- The members of `this` that the nodes seen in a class assign to. -/
def assignedIn (c : Nat) (seen : List (Node × Scope)) : List String :=
  (seen.filter (·.2.class? == some c)).filterMap fun p => assignedProperty? p.1

/-- One more node in a class adds the member that it assigns to. -/
theorem assignedIn_concat (c : Nat) (seen : List (Node × Scope)) (p : Node × Scope) :
    assignedIn c (seen ++ [p]) =
      assignedIn c seen ++ if p.2.class? = some c then (assignedProperty? p.1).toList else [] := by
  rw [assignedIn, assignedIn, List.filter_append, List.filterMap_append, List.filter_singleton]
  by_cases hc : p.2.class? = some c
  · cases hx : assignedProperty? p.1 <;> simp [hc, hx]
  · simp [hc, beq_false_of_ne hc]

/-- Each class has the members that the nodes seen in it assign to. -/
structure Collects (seen : List (Node × Scope)) (env : Scopes) : Prop where
  class_lt : ∀ p ∈ seen, ∀ c, p.2.class? = some c → c < env.classes.length
  properties : ∀ c r, env.classes[c]? = some r → r.properties = (assignedIn c seen).eraseDups

/-- A node that is no class and assigns to no member leaves the properties alone. -/
theorem properties_declareNode (hc : n.flag Attr.classDeclaration = false)
    (hx : assignedProperty? n = none) (scope : Scope) (env : Scopes) :
    (declareNode n scope env).2.classes.map (·.properties) = env.classes.map (·.properties) := by
  cases hf : n.flag Attr.functionDecl with
  | true =>
    obtain ⟨new, heq, -⟩ := declareNode_function hc hf scope env
    rw [heq]
    cases hs : scope.class? with
    | none => rfl
    | some c => exact map_modify_of_eq (by intro; rfl) _ _
  | false =>
    cases hv : n.flag Attr.variableDeclaration with
    | true =>
      rw [declareNode_variable hc hf hv]
      cases scope.function? <;> rfl
    | false => simp [declareNode, hc, hf, hv, hx]

/-- A node that assigns to a member of `this` adds it to the class around it, unless it is there. -/
theorem exists_of_assigned {x : String} (ht : n.Transparent)
    (hv : n.flag Attr.variableDeclaration = false) (hx : assignedProperty? n = some x) {c : Nat}
    {r : ClassScope} (hr : (declareNode n scope env).2.classes[c]? = some r) :
    ∃ r₀, env.classes[c]? = some r₀ ∧ r.properties =
      r₀.properties ++ if scope.class? = some c ∧ x ∉ r₀.properties then [x] else [] := by
  simp only [declareNode, ht.notClass, ht.notFunction, hv, hx, Bool.false_eq_true,
    if_false] at hr
  cases hs : scope.class? with
  | none =>
    rw [hs] at hr
    exact ⟨r, hr, by simp⟩
  | some c' =>
    simp only [hs, List.getElem?_modify] at hr
    obtain ⟨r₀, hr₀, rfl⟩ := Option.map_eq_some_iff.mp hr
    refine ⟨r₀, hr₀, ?_⟩
    by_cases hc : c' = c
    · by_cases hmem : x ∈ r₀.properties <;> simp [hc, hmem]
    · simp [hc]

/-- The classes that nodes are seen in have been recorded. -/
theorem Collects.class_lt_concat (h : Collects seen env) (hs : scope.Inside env) :
    ∀ p ∈ seen ++ [(n, (declareNode n scope env).1)], ∀ c, p.2.class? = some c →
      c < (declareNode n scope env).2.classes.length := by
  intro p hp c hc
  rcases List.mem_append.mp hp with hp | hp
  · exact Nat.lt_of_lt_of_le (h.class_lt p hp c hc)
      (begins_declareNode n scope env).length_classes_le
  · rw [List.mem_singleton.mp hp] at hc
    exact (inside_declareNode hs).class_lt c hc

/-- Nothing was seen in a class that is not recorded yet. -/
theorem Collects.assignedIn_fresh (h : Collects seen env) :
    assignedIn env.classes.length seen = [] := by
  have hnone : seen.filter (·.2.class? == some env.classes.length) = [] := by
    refine List.filter_eq_nil_iff.mpr fun p hp hc => ?_
    exact Nat.lt_irrefl _ (h.class_lt p hp _ (beq_iff_eq.mp hc))
  rw [assignedIn, hnone, List.filterMap_nil]

/-- A class starts without properties. -/
theorem Collects.class (h : Collects seen env) (hs : scope.Inside env)
    (hc : n.flag Attr.classDeclaration = true) (hx : assignedProperty? n = none) :
    Collects (seen ++ [(n, (declareNode n scope env).1)]) (declareNode n scope env).2 := by
  refine ⟨h.class_lt_concat hs, fun c r hr => ?_⟩
  rw [declareNode_class hc] at hr
  rw [assignedIn_concat, hx, Option.toList_none, ite_self, List.append_nil]
  rcases eq_of_getElem?_concat hr with hr | ⟨rfl, rfl⟩
  · exact h.properties c r hr
  · rw [h.assignedIn_fresh]
    rfl

/-- A node that is no class and assigns to no member adds nothing. -/
theorem Collects.unassigned (h : Collects seen env) (hs : scope.Inside env)
    (hc : n.flag Attr.classDeclaration = false) (hx : assignedProperty? n = none) :
    Collects (seen ++ [(n, (declareNode n scope env).1)]) (declareNode n scope env).2 := by
  refine ⟨h.class_lt_concat hs, fun c r hr => ?_⟩
  rw [assignedIn_concat, hx, Option.toList_none, ite_self, List.append_nil]
  have hprefix : (declareNode n scope env).2.classes.map (·.properties) <+:
      env.classes.map (·.properties) :=
    properties_declareNode hc hx scope env ▸ List.prefix_rfl
  obtain ⟨r₀, hr₀, heq⟩ := getElem?_of_prefix_map hprefix hr
  rw [← heq, h.properties c r₀ hr₀]

/-- A member goes to the class around the assignment, unless the class has it. -/
theorem Collects.assigned {x : String} (h : Collects seen env) (hs : scope.Inside env)
    (ht : n.Transparent) (hv : n.flag Attr.variableDeclaration = false)
    (hx : assignedProperty? n = some x) :
    Collects (seen ++ [(n, (declareNode n scope env).1)]) (declareNode n scope env).2 := by
  refine ⟨h.class_lt_concat hs, fun c r hr => ?_⟩
  obtain ⟨r₀, hr₀, heq⟩ := exists_of_assigned ht hv hx hr
  rw [assignedIn_concat, (declareNode_transparent ht.notClass ht.notFunction scope env).1, hx, heq,
    h.properties c r₀ hr₀]
  by_cases hc : scope.class? = some c
  · by_cases hmem : x ∈ assignedIn c seen <;> simp [hc, hmem, eraseDups_concat]
  · simp [hc]

/-- The classes of a program have the members that the walk sees assignments to in them. -/
theorem collects_ofNode {root : Node} (made : root.Made) (apart : root.Apart) :
    Collects ((ofNode root).walk {} root) (ofNode root) := by
  refine (run_ofNode apart).keeps_seen [] (P := Collects) ⟨nofun, nofun⟩
    fun {seen n outer env} hmem hs _ h => ?_
  have hn := made.all n (mem_all_of_walk hmem)
  cases hx : assignedProperty? n with
  | none =>
    cases hc : n.flag Attr.classDeclaration with
    | true => exact h.class hs hc hx
    | false => exact h.unassigned hs hc hx
  | some x =>
    obtain ⟨computed, hassigns⟩ := hn.assignedProperty?_eq_some_iff.mp hx
    obtain ⟨ht, hv⟩ := hassigns.declares_nothing
    exact h.assigned hs ht hv hx

end Scopes

/-! ### The class around a node -/

namespace Node

/-- The nodes in a class, in the order of the program.  A class inside it is one of them, what is in
that class is not. -/
def inClass (n : Node) : List Node :=
  n.children.flatMap fun c => c.tree.visits (·.flag Attr.classDeclaration)

variable {root n a : Node}

theorem mem_inClass_iff : a ∈ n.inClass ↔
    ∃ c ∈ n.children, Within (·.flag Attr.classDeclaration) c a := by
  simp only [inClass, List.mem_flatMap, mem_visits_iff]

theorem inClass_sublist_all (n : Node) : n.inClass.Sublist n.all := by
  rw [all_eq]
  exact .cons _ (.flatMap_right _ fun c _ => visits_sublist_all _ c)

end Node

namespace Scopes

variable {root n m a : Node} {s scope : Scope} {c : Nat}

theorem class?_enter {env : Scopes} (h : n.flag Attr.classDeclaration = false) (scope : Scope) :
    (env.enter n scope).class? = scope.class? := by
  rw [enter, h, if_neg Bool.false_ne_true]
  split <;> rfl

/-- What no class stands around from a node on is walked in the class around that node. -/
theorem exists_walk_of_within {env : Scopes} (hn : (n, env.enter n s) ∈ env.walk scope root)
    (h : Node.Within (·.flag Attr.classDeclaration) n a)
    (ha : a.flag Attr.classDeclaration = false) :
    ∃ s', (a, s') ∈ env.walk scope root ∧ s'.class? = s.class? := by
  induction h generalizing s with
  | self a => exact ⟨_, hn, class?_enter ha s⟩
  | inside hclass hc _ ih =>
    obtain ⟨s', hs', heq⟩ := ih (mem_walk_of_child hn hc) ha
    exact ⟨s', hs', heq.trans (class?_enter hclass s)⟩

/-- A node is walked in the class around the walk if no class stands around it, and else in a class
that it is in. -/
theorem class?_of_walk {env : Scopes} (h : (a, s) ∈ env.walk scope n)
    (ha : a.flag Attr.classDeclaration = false) :
    (s.class? = scope.class? ∧ Node.Within (·.flag Attr.classDeclaration) n a) ∨
      ∃ m ∈ n.all, m.flag Attr.classDeclaration = true ∧ a ∈ m.inClass ∧
        ∃ outer, s.class? = (env.enter m outer).class? := by
  induction n using Node.induction_on_children generalizing scope with
  | step n ih =>
    rw [walk_eq] at h
    rcases List.mem_cons.mp h with h | h
    · cases h
      exact .inl ⟨class?_enter ha scope, .self a⟩
    · obtain ⟨c, hc, h⟩ := List.mem_flatMap.mp h
      rcases ih c hc h with ⟨heq, hwithin⟩ | ⟨m, hm, hclass, hin, houter⟩
      · cases hn : n.flag Attr.classDeclaration with
        | true =>
          exact .inr ⟨n, n.mem_all_self, hn, Node.mem_inClass_iff.mpr ⟨c, hc, hwithin⟩, scope, heq⟩
        | false => exact .inl ⟨heq.trans (class?_enter hn scope), .inside hn hc hwithin⟩
      · exact .inr ⟨m, Node.mem_all_of_child hc hm, hclass, hin, houter⟩

/-- Classes are recorded under numbers of their own. -/
theorem nodup_classes (apart : root.Apart) : ((ofNode root).classes.map (·.node)).Nodup := by
  have hheads : (ofNode root).classes.map (·.node) = (ofNode root).classHeads.map (·.2) := by
    simp [classHeads]
  rw [hheads, (tally_ofNode apart).classes, List.map_map]
  rw [Node.Apart, ← map_fst_walk (ofNode root) {} root, List.map_map] at apart
  exact apart.sublist (List.filter_sublist.map _)

/-- A class is entered as the one that is recorded for it. -/
theorem class?_enter_class (apart : root.Apart) (hn : n ∈ root.all)
    (hclass : n.flag Attr.classDeclaration = true) (outer : Scope) :
    ((ofNode root).enter n outer).class? = some c ↔
      ∃ r, (ofNode root).classes[c]? = some r ∧ r.node = n.id := by
  obtain ⟨s, hs⟩ := exists_walk_of_mem_all (ofNode root) {} hn
  obtain ⟨c', hc'⟩ := Option.isSome_iff_exists.mp (isSome_findIdx?_class apart hs hclass)
  obtain ⟨hlt, hid, -⟩ := List.findIdx?_eq_some_iff_getElem.mp hc'
  have hid : (ofNode root).classes[c'].node = n.id := beq_iff_eq.mp hid
  rw [enter, if_pos hclass, hc', Option.some_or, Option.some.injEq]
  constructor
  · rintro rfl
    exact ⟨_, List.getElem?_eq_getElem hlt, hid⟩
  · rintro ⟨r, hr, heq⟩
    refine (List.getElem?_inj (by simpa using hlt) (nodup_classes apart)).mp ?_
    simp [List.getElem?_eq_getElem hlt, hr, hid, heq]

/-- What is walked in a class is what is in it. -/
theorem mem_inClass_iff_walk (apart : root.Apart) {r : ClassScope}
    (hr : (ofNode root).classes[c]? = some r) (hn : n ∈ root.all)
    (hclass : n.flag Attr.classDeclaration = true) (hid : r.node = n.id)
    (ha : a.flag Attr.classDeclaration = false) :
    a ∈ n.inClass ↔ ∃ s, (a, s) ∈ (ofNode root).walk {} root ∧ s.class? = some c := by
  constructor
  · intro h
    obtain ⟨d, hd, hwithin⟩ := Node.mem_inClass_iff.mp h
    obtain ⟨sn, hsn⟩ := exists_walk_of_mem_all (ofNode root) {} hn
    obtain ⟨outer, rfl⟩ := exists_enter_of_walk hsn
    obtain ⟨s, hs, heq⟩ := exists_walk_of_within (mem_walk_of_child hsn hd) hwithin ha
    exact ⟨s, hs, heq.trans ((class?_enter_class apart hn hclass outer).mpr ⟨r, hr, hid⟩)⟩
  · rintro ⟨s, hs, hsc⟩
    rcases class?_of_walk hs ha with ⟨hfile, -⟩ | ⟨m, hm, hmclass, hin, outer, heq⟩
    · rw [hsc] at hfile
      cases hfile
    · obtain ⟨r', hr', hid'⟩ := (class?_enter_class apart hm hmclass outer).mp (heq.symm.trans hsc)
      obtain rfl : r = r' := Option.some.inj (hr.symm.trans hr')
      obtain rfl := apart.eq_of_id hm hn (hid'.symm.trans hid)
      exact hin

/-- What is assigned to in a class is told by what is in it, in order. -/
theorem assignedIn_walk (made : root.Made) (apart : root.Apart) {r : ClassScope}
    (hr : (ofNode root).classes[c]? = some r) (hn : n ∈ root.all)
    (hclass : n.flag Attr.classDeclaration = true) (hid : r.node = n.id) :
    assignedIn c ((ofNode root).walk {} root) = n.inClass.filterMap assignedProperty? := by
  let visited := ((ofNode root).walk {} root).filter (·.2.class? == some c)
  have hvisited : assignedIn c ((ofNode root).walk {} root) =
      (visited.map Prod.fst).filterMap assignedProperty? := by
    rw [List.filterMap_map]
    rfl
  rw [hvisited]
  -- both are assignments of the program, in its order
  refine filterMap_eq_of_sublist (.of_map _ apart) ?_
    ((Node.inClass_sublist_all n).trans (Node.all_sublist_of_mem hn)) fun a ha x hx => ?_
  · rw [← map_fst_walk (ofNode root) {} root]
    exact List.filter_sublist.map _
  · obtain ⟨computed, hassigns⟩ := (made.all a ha).assignedProperty?_eq_some_iff.mp hx
    rw [mem_inClass_iff_walk apart hr hn hclass hid hassigns.declares_nothing.1.notClass]
    simp [visited]

/-- The properties of a class are the members of `this` that are assigned to in the class and in no
class inside it, each once, in the order in which the program first assigns to them.  A computed
member counts as one that is not. -/
theorem properties_of_class (made : root.Made) (apart : root.Apart) (hn : n ∈ root.all)
    (hclass : n.flag Attr.classDeclaration = true) :
    ∃ r : ClassScope, (∀ r', r' ∈ (ofNode root).classes ∧ r'.node = n.id ↔ r' = r) ∧
      r.properties = (n.inClass.filterMap assignedProperty?).eraseDups ∧
      (∀ a ∈ n.inClass, ∀ x, assignedProperty? a = some x ↔
        ∃ computed, a.AssignsMember x computed) ∧
      r.properties.Nodup ∧
      ∀ x, x ∈ r.properties ↔ ∃ a ∈ n.inClass, ∃ computed, a.AssignsMember x computed := by
  obtain ⟨s, hs⟩ := exists_walk_of_mem_all (ofNode root) {} hn
  obtain ⟨c, hfind⟩ := Option.isSome_iff_exists.mp (isSome_findIdx?_class apart hs hclass)
  obtain ⟨r, hc, hid⟩ := (class?_enter_class apart hn hclass {}).mp
    (show ((ofNode root).enter n {}).class? = some c by rw [enter, if_pos hclass, hfind]; rfl)
  have hproperties : r.properties = (n.inClass.filterMap assignedProperty?).eraseDups := by
    rw [(collects_ofNode made apart).properties c r hc,
      assignedIn_walk made apart hc hn hclass hid]
  have hassigns : ∀ a ∈ n.inClass, ∀ x, assignedProperty? a = some x ↔
      ∃ computed, a.AssignsMember x computed := by
    intro a ha x
    have hmem := (Node.all_sublist_of_mem hn).subset ((Node.inClass_sublist_all n).subset ha)
    exact (made.all a hmem).assignedProperty?_eq_some_iff
  -- Nodes have numbers of their own, and each class is recorded once.
  have hunique : ∀ r' ∈ (ofNode root).classes, r'.node = n.id → r' = r := fun r' hr' hid' =>
    List.inj_on_of_nodup_map (nodup_classes apart) hr' (List.mem_of_getElem? hc)
      (hid'.trans hid.symm)
  refine ⟨r, fun r' => ⟨and_imp.mpr (hunique r'), ?_⟩, hproperties, hassigns,
    hproperties ▸ nodup_eraseDups _, fun x => ?_⟩
  · rintro rfl
    exact ⟨List.mem_of_getElem? hc, hid⟩
  · rw [hproperties, List.mem_eraseDups, List.mem_filterMap]
    exact exists_congr fun a => and_congr_right fun ha => hassigns a ha x

/-- The assignment `this.x = v`, or `this[x] = v`. -/
def memberAssignment (x : String) (computed : Bool) (id : Nat) : Node :=
  let member := (NodeForm.member (NodeForm.this.node id) ((NodeForm.identifier x).node (id + 1))
    computed).node (id + 2)
  (NodeForm.assign member ((NodeForm.identifier "v").node (id + 3))).node (id + 4)

/-- The class `class A { this.x = v; f() { this.y = v; this.x = v }; class B { this.z = v };
this[k] = v }`. -/
def outerClass : Node :=
  let body := (NodeForm.block [memberAssignment "y" false 5, memberAssignment "x" false 10]).node 15
  let f := (NodeForm.functionDeclaration "f" [] body false).node 16
  let b := (NodeForm.classDeclaration "B" [] [memberAssignment "z" false 17]).node 22
  (NodeForm.classDeclaration "A" []
    [memberAssignment "x" false 0, f, b, memberAssignment "k" true 23]).node 28

/-- The program of that class. -/
def classProgram : Node := (NodeForm.program [outerClass]).node 29

theorem made_memberAssignment (x : String) (computed : Bool) (id : Nat) :
    (memberAssignment x computed id).Made := by
  have hthis : (NodeForm.this.node id).Made := .this ⟨⟨0, id⟩, rfl⟩
  have hkey : ((NodeForm.identifier x).node (id + 1)).Made := .identifier ⟨⟨0, id + 1⟩, rfl⟩
  have hvalue : ((NodeForm.identifier "v").node (id + 3)).Made := .identifier ⟨⟨0, id + 3⟩, rfl⟩
  refine .assign ?_ hvalue ⟨⟨0, id + 4⟩, rfl⟩
  cases computed with
  | false => exact @Node.Made.member _ _ _ false hthis hkey ⟨⟨0, id + 2⟩, rfl⟩
  | true => exact @Node.Made.member _ _ _ true hthis hkey ⟨⟨0, id + 2⟩, rfl⟩

theorem made_classProgram : classProgram.Made := by
  have hbody : ((NodeForm.block [memberAssignment "y" false 5,
      memberAssignment "x" false 10]).node 15).Made := by
    refine @Node.Made.block [_, _] _ (fun c hc => ?_) ⟨⟨0, 15⟩, rfl⟩
    rcases List.mem_pair.mp hc with rfl | rfl
    · exact made_memberAssignment ..
    · exact made_memberAssignment ..
  refine @Node.Made.program [_] _ (List.forall_mem_singleton.mpr ?_) ⟨⟨0, 29⟩, rfl⟩
  refine @Node.Made.classDeclaration "A" [] [_, _, _, _] _ (fun c hc => ?_) ⟨⟨0, 28⟩, rfl⟩
  simp only [List.mem_cons, List.not_mem_nil, or_false] at hc
  rcases hc with rfl | rfl | rfl | rfl
  · exact made_memberAssignment ..
  · exact @Node.Made.functionDeclaration "f" [] _ _ false nofun hbody ⟨⟨0, 16⟩, rfl⟩
  · exact @Node.Made.classDeclaration "B" [] [_] _
      (List.forall_mem_singleton.mpr (made_memberAssignment ..)) ⟨⟨0, 22⟩, rfl⟩
  · exact made_memberAssignment ..

theorem apart_classProgram : classProgram.Apart := by
  rw [Node.Apart]
  decide +kernel

/-- The class has the members of its method and the computed one, and not that of the class
inside. -/
theorem properties_of_outerClass : classProgram.Made ∧ classProgram.Apart ∧
    outerClass ∈ classProgram.all ∧ outerClass.flag Attr.classDeclaration = true ∧
    ∃ r : ClassScope, (∀ r', r' ∈ (ofNode classProgram).classes ∧ r'.node = 28 ↔ r' = r) ∧
      r.properties = ["x", "y", "k"] := by
  have hmem : outerClass ∈ classProgram.all := List.mem_of_getElem? (i := 1) rfl
  obtain ⟨r, hr, hproperties, -⟩ :=
    properties_of_class made_classProgram apart_classProgram hmem rfl
  have hnames : (outerClass.inClass.filterMap assignedProperty?).eraseDups = ["x", "y", "k"] := by
    decide +kernel
  exact ⟨made_classProgram, apart_classProgram, hmem, rfl, r, hr, hproperties.trans hnames⟩

/-- A computed member is among the properties, and nothing assigns to the member of its name. -/
theorem properties_of_computed : outerClass ∈ classProgram.all ∧
    ∃ r ∈ (ofNode classProgram).classes, r.node = outerClass.id ∧ "k" ∈ r.properties ∧
      ¬ ∃ a ∈ outerClass.inClass, a.AssignsMember "k" false := by
  have hclass : ((ofNode classProgram).classes[0]?.map fun r => (r.node, r.properties)) =
      some (28, ["x", "y", "k"]) := by decide +kernel
  obtain ⟨r, hr, heq⟩ := Option.map_eq_some_iff.mp hclass
  obtain ⟨hid, hproperties⟩ := Prod.mk.inj heq
  have hcomputed : ∀ a ∈ outerClass.inClass, assignedProperty? a = some "k" →
      ∀ left ∈ a.node? Attr.assignExpressionLeft,
        left.flag Attr.computedMemberExpression = true := by decide +kernel
  refine ⟨List.mem_of_getElem? (i := 1) rfl, r, List.mem_of_getElem? hr, hid,
    hproperties ▸ by decide, ?_⟩
  rintro ⟨a, ha, hassigns⟩
  obtain ⟨left, -, -, hleft, hflag, -⟩ := hassigns.reads
  rw [hcomputed a ha hassigns.assignedProperty? left hleft] at hflag
  cases hflag

end Scopes

end TypeSketch
