import TypeSketch.Inference.Run
import TypeSketch.Proofs.Draft
import TypeSketch.Proofs.Renumbering.Scopes

/-!
# Renumbering — rules

What a standard rule says of a renumbered node is what it says of the node, renumbered, or it fails
with an error of the same kind (`Rule.follows_of_standard`).  So the board of a renumbered program
is that of the program, renumbered (`boardOf_renumber`): no two paths of it have become one, and
none has come apart.

Facts are gathered by computations that may fail, and two of these are compared by `Alike`, which
goes through binds, traversals and folds. The operations on facts come first (`know_renumber`,
`renumber_equate`), then one statement for each rule, and then the gathering of the facts of a
program (`factsOf_renumber`) and of the board.
-/

namespace TypeSketch

/-! ### Computations that come out alike -/

/-- Two computations fail with errors of one kind, or come out as related results. -/
inductive Alike {α β : Type} (R : α → β → Prop) : Except Error α → Except Error β → Prop
  | error {e e' : Error} (h : e.ctorIdx = e'.ctorIdx) : Alike R (.error e) (.error e')
  | ok {a : α} {b : β} (h : R a b) : Alike R (.ok a) (.ok b)

namespace Alike

variable {α β γ δ : Type} {R : α → β → Prop} {S : γ → δ → Prop}

theorem mono {R' : α → β → Prop} {x : Except Error α} {y : Except Error β} (h : Alike R x y)
    (himp : ∀ a b, R a b → R' a b) : Alike R' x y := by
  cases h with
  | error h => exact .error h
  | ok h => exact .ok (himp _ _ h)

/-- Computations that come out alike may go on with others that do. -/
theorem bind {x : Except Error α} {y : Except Error β} {f : α → Except Error γ}
    {g : β → Except Error δ} (h : Alike R x y) (hfg : ∀ a b, R a b → Alike S (f a) (g b)) :
    Alike S (x >>= f) (y >>= g) := by
  cases h with
  | error h => exact .error h
  | ok h => exact hfg _ _ h

/-- Going through two lists comes out alike if it does so item by item. -/
theorem mapM {f : α → Except Error γ} {g : β → Except Error δ} {xs : List α} {ys : List β}
    (h : List.Forall₂ (fun a b => Alike S (f a) (g b)) xs ys) :
    Alike (List.Forall₂ S) (xs.mapM f) (ys.mapM g) := by
  induction h with
  | nil => exact .ok .nil
  | cons h _ ih =>
    rw [List.mapM_cons, List.mapM_cons]
    exact h.bind fun _ _ hcd => ih.bind fun _ _ hcds => .ok (.cons hcd hcds)

/-- Folding two lists comes out alike if every step does. -/
theorem foldlM {f : γ → α → Except Error γ} {g : δ → β → Except Error δ} {xs : List α}
    {ys : List β} (h : List.Forall₂ (fun a b => ∀ c d, S c d → Alike S (f c a) (g d b)) xs ys)
    {c : γ} {d : δ} (hcd : S c d) : Alike S (xs.foldlM f c) (ys.foldlM g d) := by
  induction h generalizing c d with
  | nil => exact .ok hcd
  | cons h _ ih =>
    rw [List.foldlM_cons, List.foldlM_cons]
    exact (h c d hcd).bind fun _ _ hcd => ih hcd

end Alike

/-! ### Renumbering facts -/

def Callback.renumber (σ : Nat → Nat) (c : Callback) : Callback := { c with node := σ c.node }

/-- The shapes under renumbered paths. -/
noncomputable def Known.renumber (σ : Nat → Nat) (k : Known) : Known :=
  k.map fun e => (Text.renumber σ e.1, e.2)

/-- The relation between renumbered paths. -/
noncomputable def Relation.renumber (σ : Nat → Nat) (r : Relation) : Relation :=
  { r with members := r.members.map fun e => (e.1, Text.renumber σ e.2) }

/-- The facts with every path and every number replaced. -/
noncomputable def Facts.renumber (σ : Nat → Nat) (facts : Facts) : Facts where
  nodes := facts.nodes.map fun e => (Text.renumber σ e.1, σ e.2)
  callbacks := facts.callbacks.map fun e => (Text.renumber σ e.1, e.2.map (Callback.renumber σ))
  known := facts.known.renumber σ
  relations := facts.relations.map (Relation.renumber σ)

/-- The board with every path and every number replaced. -/
noncomputable def Board.renumber (σ : Nat → Nat) (b : Board) : Board where
  known := b.known.renumber σ
  callbacks := b.callbacks.map fun e => (Text.renumber σ e.1, e.2.map (Callback.renumber σ))
  nodes := b.nodes.map fun e => (Text.renumber σ e.1, σ e.2)
  relations := b.relations.map (Relation.renumber σ)

variable {σ : Nat → Nat} (hσ : Function.Injective σ)

namespace Known
include hσ

theorem lookup_renumber (k : Known) (path : String) :
    (k.renumber σ).lookup (Text.renumber σ path) = k.lookup path := by
  rw [renumber, Assoc.lookup_map (Text.renumber_injective hσ) (fun s => s), Option.map_id']

theorem put_renumber (k : Known) (path : String) (s : Shape) :
    Assoc.put (Text.renumber σ path) s (k.renumber σ) = renumber σ (Assoc.put path s k) :=
  Assoc.put_map (Text.renumber_injective hσ) (fun s => s) path s k

end Known

namespace Facts

@[simp] theorem renumber_relate (facts : Facts) (r : Relation) :
    (facts.relate r).renumber σ = (facts.renumber σ).relate (r.renumber σ) := by
  simp [renumber, relate]

include hσ

theorem renumber_addNode (facts : Facts) (site : Site) :
    (facts.addNode site).renumber σ = (facts.renumber σ).addNode (site.renumber σ) :=
  congrArg (fun nodes => { facts.renumber σ with nodes })
    (Assoc.put_map (Text.renumber_injective hσ) σ site.path site.node facts.nodes).symm

theorem renumber_equate (facts : Facts) (left right : Site) :
    (facts.equate left right).renumber σ =
      (facts.renumber σ).equate (left.renumber σ) (right.renumber σ) := by
  rw [equate, renumber_relate, renumber_addNode hσ, renumber_addNode hσ]
  rfl

/-- Callbacks are added under a renumbered path. -/
theorem addTo_renumber (path : String) (cs : List Callback)
    (t : List (String × List Callback)) :
    addTo (Text.renumber σ path) (cs.map (Callback.renumber σ))
        (t.map fun e => (Text.renumber σ e.1, e.2.map (Callback.renumber σ))) =
      (addTo path cs t).map fun e => (Text.renumber σ e.1, e.2.map (Callback.renumber σ)) := by
  have hinj := Text.renumber_injective hσ
  rw [addTo, addTo, ← Assoc.put_map hinj (List.map (Callback.renumber σ)),
    Assoc.lookup_map hinj (List.map (Callback.renumber σ)), List.map_append]
  cases t.lookup path <;> rfl

theorem renumber_callBack (facts : Facts) (path : String) (c : Callback) :
    (facts.callBack path c).renumber σ =
      (facts.renumber σ).callBack (Text.renumber σ path) (c.renumber σ) :=
  congrArg (fun callbacks => { facts.renumber σ with callbacks })
    (addTo_renumber hσ path [c] facts.callbacks).symm

/-- A shape is known under a renumbered path, or there is a conflict for both. -/
theorem know_renumber (facts : Facts) (path : String) (s : Shape) :
    Alike (fun facts facts' : Facts => facts' = facts.renumber σ) (facts.know path s)
      ((facts.renumber σ).know (Text.renumber σ path) s) := by
  rw [know, know]
  cases withoutSample s with
  | error e => exact .error rfl
  | ok t =>
    exact .ok (congrArg (fun known => { facts.renumber σ with known })
      (Known.put_renumber hσ facts.known path t.freeze))

end Facts

/-! ### Rules -/

namespace Rule

/-- What the rule says of a renumbered node is what it says of the node, renumbered. -/
structure Follows (σ : Nat → Nat) (rule : Rule) : Prop where
  accepts : ∀ n : Node, rule.accepts (n.renumber σ) = rule.accepts n
  facts : ∀ {env : Scopes} {n : Node} (scope : Scope), env.Plain → (∀ m ∈ n.all, m.Plain) →
    Alike (fun facts facts' => facts' = facts.renumber σ) (rule.facts env scope n)
      (rule.facts (env.renumber σ) scope (n.renumber σ))

variable {env : Scopes} {n : Node}

theorem isSome_node?_renumber {f : Field} (hf : f.absent?.bind Value.asNode? = none) :
    ((n.renumber σ).node? f).isSome = (n.node? f).isSome := by
  rw [Node.toRecord_renumber, Record.node?_renumber _ hf, Option.isSome_map]

/-- The site of a node under a field. -/
theorem site_of_node? (henv : env.Plain) (hn : ∀ m ∈ n.all, m.Plain) {f : Field} {c : Node}
    (h : n.node? f = some c) (scope : Scope) (hf : f.absent?.bind Value.asNode? = none := by rfl) :
    (env.renumber σ).site (c.renumber σ) scope = (env.site c scope).renumber σ :=
  Scopes.site_renumber henv
    (hn c (Node.mem_all_of_child (Node.mem_children_of_node? hf h) c.mem_all_self)) scope

theorem renumber_memberRelation (object key member : String) :
    (memberRelation object key member).renumber σ = memberRelation (Text.renumber σ object)
      (Text.renumber σ key) (Text.renumber σ member) := rfl

/-- The returns of a body are renumbered. -/
theorem returnsOf_renumber (body : Node) :
    returnsOf (body.renumber σ) = (returnsOf body).map (Node.renumber σ) := by
  rw [returnsOf, returnsOf, Node.visits_renumber _ fun n => Record.flag_renumber n.toRecord _,
    List.filter_map]
  refine congrArg (fun p => (List.filter p _).map _) (funext fun n => ?_)
  simp [Record.node?_renumber (f := Attr.returned) _ rfl]

include hσ

/-- What is said of a declaration is renumbered. -/
theorem follows_variableDeclaration : variableDeclaration.Follows σ where
  accepts n := Record.flag_renumber n.toRecord _
  facts {env n} scope henv hn := by
    have hsite := Scopes.site_renumber (σ := σ) henv (hn n n.mem_all_self) scope
    simp only [variableDeclaration, Node.toRecord_renumber, Node.id_renumber, hsite,
      Record.node?_renumber (f := Attr.defaultValue) _ rfl]
    cases hinit : n.node? Attr.defaultValue with
    | none =>
      exact .ok (Facts.renumber_callBack hσ {} (env.site n scope).path
        ⟨n.id, Attr.inferredType⟩).symm
    | some init =>
      simp only [Option.map_some, site_of_node? henv hn hinit scope]
      refine .ok ?_
      rw [Facts.renumber_equate hσ, Facts.renumber_callBack hσ]
      rfl

/-- What is said of an assignment is renumbered. -/
theorem follows_assignExpression : assignExpression.Follows σ where
  accepts n := Record.flag_renumber n.toRecord _
  facts {env n} scope henv hn := by
    simp only [assignExpression, Node.toRecord_renumber,
      Record.node?_renumber (f := Attr.assignExpressionLeft) _ rfl,
      Record.node?_renumber (f := Attr.assignExpressionRight) _ rfl]
    cases hleft : n.node? Attr.assignExpressionLeft with
    | none => exact .ok rfl
    | some left =>
      cases hright : n.node? Attr.assignExpressionRight with
      | none => exact .ok rfl
      | some right =>
        simp only [Option.map_some, site_of_node? henv hn hleft scope,
          site_of_node? henv hn hright scope]
        exact .ok (Facts.renumber_equate hσ {} ..).symm

/-- What is said of a return is renumbered. -/
theorem follows_returning : returning.Follows σ where
  accepts n := isSome_node?_renumber rfl
  facts {env n} scope henv hn := by
    have hsite := Scopes.site_renumber (σ := σ) henv (hn n n.mem_all_self) scope
    simp only [returning, Node.toRecord_renumber, hsite,
      Record.node?_renumber (f := Attr.returned) _ rfl]
    cases hvalue : n.node? Attr.returned with
    | none => exact .ok rfl
    | some value =>
      simp only [Option.map_some, site_of_node? henv hn hvalue scope]
      exact .ok (Facts.renumber_equate hσ {} ..).symm

/-- What is said of a literal is renumbered. -/
theorem follows_literal : literal.Follows σ where
  accepts n := Record.flag_renumber n.toRecord _
  facts {env n} scope henv hn := by
    have hsite := Scopes.site_renumber (σ := σ) henv (hn n n.mem_all_self) scope
    simp only [literal, Node.toRecord_renumber, hsite, Record.shape?_renumber]
    cases n.shape? Attr.inferredType with
    | none => exact .ok rfl
    | some s => exact Facts.know_renumber hσ {} ..

/-- What is said of an operation is renumbered. -/
theorem follows_operator : operator.Follows σ where
  accepts n := Record.has_renumber n.toRecord _
  facts {env n} scope henv hn := by
    have hsite := Scopes.site_renumber (σ := σ) henv (hn n n.mem_all_self) scope
    simp only [operator, Node.toRecord_renumber, hsite, Record.str?_renumber,
      Record.node?_renumber (f := Attr.operatorLeft) _ rfl,
      Record.node?_renumber (f := Attr.operatorRight) _ rfl]
    cases hleft : n.node? Attr.operatorLeft with
    | none => exact .ok rfl
    | some left =>
      cases hright : n.node? Attr.operatorRight with
      | none => exact .ok rfl
      | some right =>
        simp only [Option.map_some, site_of_node? henv hn hleft scope,
          site_of_node? henv hn hright scope]
        split
        · refine (Facts.know_renumber hσ {} _ _).bind fun facts facts' h => .ok ?_
          rw [Facts.renumber_equate hσ, h]
        · split
          · refine .ok ?_
            rw [Facts.renumber_equate hσ, Facts.renumber_equate hσ]
            rfl
          · exact .ok rfl

/-- What is said of a function is renumbered. -/
theorem follows_functionDeclaration : functionDeclaration.Follows σ where
  accepts n := Record.flag_renumber n.toRecord _
  facts {env n} scope henv hn := by
    have hsite := Scopes.site_renumber (σ := σ) henv (hn n n.mem_all_self) scope
    -- The facts about the arguments are added one by one, and so are those about the returns.
    have harguments (facts : Facts) := foldl_map_of (l := n.nodes Attr.arguments)
      (φ := Node.renumber σ) (g := Facts.renumber σ) (P := fun _ => True)
      (f := fun facts a => (facts.addNode (env.site a scope)).callBack (env.site a scope).path
        ⟨a.id, Attr.argumentType⟩)
      (k := fun facts a => (facts.addNode ((env.renumber σ).site a scope)).callBack
        ((env.renumber σ).site a scope).path ⟨a.id, Attr.argumentType⟩)
      (fun a ha facts _ => by
        have hchild := n.nodes_subset_children _ rfl ha
        rw [Scopes.site_renumber henv (hn a (Node.mem_all_of_child hchild a.mem_all_self)),
          Facts.renumber_callBack hσ, Facts.renumber_addNode hσ]
        exact ⟨rfl, trivial⟩) (b := facts) trivial
    have hcalled : (({} : Facts).callBack (env.site n scope).path
        ⟨n.id, Attr.functionReturn⟩).renumber σ = ({} : Facts).callBack
          ((env.site n scope).renumber σ).path ⟨σ n.id, Attr.functionReturn⟩ :=
      Facts.renumber_callBack hσ ..
    simp only [functionDeclaration, Node.toRecord_renumber, Node.id_renumber, hsite,
      Record.nodes_renumber (f := Attr.arguments) _ rfl,
      Record.node?_renumber (f := Attr.functionBody) _ rfl, ← hcalled, (harguments _).1]
    cases hbody : n.node? Attr.functionBody with
    | none => exact .ok rfl
    | some body =>
      simp only [Option.map_some, site_of_node? henv hn hbody scope, returnsOf_renumber,
        ← Facts.renumber_equate hσ]
      exact .ok (foldl_map_of (l := returnsOf body) (φ := Node.renumber σ) (g := Facts.renumber σ)
        (P := fun _ => True) (fun r hr facts _ => by
          have hbelow := Node.mem_all_of_child (Node.mem_children_of_node? rfl hbody)
            (body.visits_subset_all _ (List.mem_filter.mp hr).1)
          rw [Scopes.site_renumber henv (hn r hbelow), Facts.renumber_equate hσ]
          exact ⟨rfl, trivial⟩) trivial).1

/-- What is said of a member is renumbered. -/
theorem follows_memberExpression : memberExpression.Follows σ where
  accepts n := by simp [memberExpression]
  facts {env n} scope henv hn := by
    have hsite := Scopes.site_renumber (σ := σ) henv (hn n n.mem_all_self) scope
    simp only [memberExpression, Node.toRecord_renumber, hsite, Record.flag_renumber,
      Record.node?_renumber (f := Attr.memberExpressionObject) _ rfl,
      Record.node?_renumber (f := Attr.memberExpressionProperty) _ rfl]
    cases hobject : n.node? Attr.memberExpressionObject with
    | none => exact .error rfl
    | some object =>
      cases hproperty : n.node? Attr.memberExpressionProperty with
      | none => exact .error rfl
      | some property =>
        simp only [Option.map_some, Node.toRecord_renumber]
        simp only [site_of_node? henv hn hobject scope, site_of_node? henv hn hproperty scope,
          Record.str?_renumber, Record.flag_renumber, Record.has_renumber]
        split
        · next name hname =>
          split
          · refine .ok ?_
            rw [Facts.renumber_relate, Facts.renumber_addNode hσ]
            rfl
          · -- a key that is written out is a name
            have hplain : Text.Plain name := by
              split at hname
              · cases hname
              · exact (hn property (Node.mem_all_of_child (Node.mem_children_of_node? rfl hproperty)
                  property.mem_all_self)).names _ (by simp [Attr.names]) _ hname
            have hkey : (Site.mk ((env.site object scope).path ++ "." ++ name)
                property.id).renumber σ =
                  ⟨((env.site object scope).renumber σ).path ++ "." ++ name, σ property.id⟩ :=
              congrArg (Site.mk · _) (Text.renumber_append_name σ _ hplain)
            refine .ok ?_
            rw [Facts.renumber_relate, Facts.renumber_addNode hσ, Facts.renumber_addNode hσ,
              Facts.renumber_addNode hσ, hkey, renumber_memberRelation,
              Text.renumber_append_name σ _ hplain]
            rfl
        · split
          · refine .ok ?_
            rw [Facts.renumber_relate, Facts.renumber_addNode hσ, Facts.renumber_addNode hσ,
              Facts.renumber_addNode hσ]
            rfl
          · exact .error rfl

/-- Every standard rule says of a renumbered node what it says of the node, renumbered. -/
theorem follows_of_standard {rule : Rule} (h : rule ∈ standard) : rule.Follows σ := by
  simp only [standard, List.mem_cons, List.not_mem_nil, or_false] at h
  rcases h with rfl | rfl | rfl | rfl | rfl | rfl | rfl
  · exact follows_variableDeclaration hσ
  · exact follows_assignExpression hσ
  · exact follows_returning hσ
  · exact follows_memberExpression hσ
  · exact follows_operator hσ
  · exact follows_functionDeclaration hσ
  · exact follows_literal hσ

end Rule

/-! ### The board -/

namespace Board
include hσ

/-- Facts are merged into a renumbered board as into the board. -/
theorem merge_renumber (b : Board) (facts : Facts) :
    (b.renumber σ).merge (facts.renumber σ) = (b.merge facts).renumber σ := by
  have hinj := Text.renumber_injective hσ
  have hknown : Assoc.putAll (facts.known.renumber σ) (b.known.renumber σ) =
      Known.renumber σ (Assoc.putAll facts.known b.known) := Assoc.putAll_map hinj (fun s => s) ..
  have hcallbacks := foldl_map_of (l := facts.callbacks)
    (φ := fun e => (Text.renumber σ e.1, e.2.map (Callback.renumber σ)))
    (f := fun cs (e : String × List Callback) => Facts.addTo e.1 e.2 cs)
    (k := fun cs (e : String × List Callback) => Facts.addTo e.1 e.2 cs)
    (g := List.map fun e => (Text.renumber σ e.1, e.2.map (Callback.renumber σ)))
    (P := fun _ => True)
    (fun e _ cs _ => ⟨Facts.addTo_renumber hσ e.1 e.2 cs, trivial⟩) (b := b.callbacks) trivial
  simp only [merge, renumber, Facts.renumber, hknown, hcallbacks.1, Assoc.putAll_map hinj,
    List.map_append]

end Board

namespace Inference

/-- The facts of a renumbered program are those of the program, renumbered, or gathering them fails
alike. -/
theorem factsOf_renumber {rules : List Rule} (hrules : ∀ rule ∈ rules, rule.Follows σ)
    {env : Scopes} {n : Node} (henv : env.Plain) (hn : ∀ m ∈ n.all, m.Plain) (scope : Scope) :
    Alike (List.Forall₂ fun t t' => t'.2 = t.2.renumber σ) (factsOf rules env n scope)
      (factsOf rules (env.renumber σ) (n.renumber σ) scope) := by
  have haccepts : rules.filter (·.accepts (n.renumber σ)) = rules.filter (·.accepts n) :=
    List.filter_congr fun rule hr => (hrules rule hr).accepts n
  rw [factsOf, factsOf, haccepts]
  refine .mapM (List.forall₂_same.mpr fun rule hr => ?_)
  have hfollows := hrules rule (List.mem_filter.mp hr).1
  exact (hfollows.facts scope henv hn).bind fun facts facts' h => .ok h

include hσ

/-- The board of a renumbered program is that of the program, renumbered. -/
theorem boardOf_renumber {rules : List Rule} (hrules : ∀ rule ∈ rules, rule.Follows σ)
    {root : Node} (hroot : ∀ m ∈ root.all, m.Plain) :
    Alike (fun b b' => b' = b.renumber σ) (boardOf rules root)
      (boardOf rules (root.renumber σ)) := by
  obtain ⟨hscopes, henv⟩ := Scopes.ofNode_renumber (σ := σ) hroot
  have hwalk : (Scopes.ofNode (root.renumber σ)).walk {} (root.renumber σ) =
      ((Scopes.ofNode root).walk {} root).map fun p => (p.1.renumber σ, p.2) := by
    rw [hscopes, Scopes.walk_renumber hσ]
  simp only [boardOf]
  rw [← Scopes.walk, ← Scopes.walk, hwalk, hscopes]
  -- the facts about each node are merged into the board so far
  refine Alike.foldlM (List.forall₂_map_right_iff.mpr (List.forall₂_same.mpr ?_)) rfl
  intro p hp b b' hb
  have hbelow : ∀ m ∈ p.1.all, m.Plain :=
    Node.forall_mem_all (P := fun n => ∀ m ∈ n.all, m.Plain)
      (fun _ h _ hc m hm => h m (Node.mem_all_of_child hc hm)) hroot _ (Scopes.mem_all_of_walk hp)
  refine (factsOf_renumber hrules henv hbelow p.2).bind fun told told' htold => .ok ?_
  refine List.rel_foldl (P := fun b b' : Board => b' = b.renumber σ)
    (R := fun t t' : Rule × Facts => t'.2 = t.2.renumber σ) ?_ hb htold
  rintro b _ rfl t t' ht
  exact (congrArg (b.renumber σ).merge ht).trans (Board.merge_renumber hσ b t.2)

end Inference

end TypeSketch
