import Mathlib.Data.List.Pairwise
import TypeSketch.Proofs.Inference.Facts
import TypeSketch.Proofs.Inference.Resolving

/-!
# Inference — the returns of a function

Two rules speak of a return: that of the function around it, which walks ahead through the body in
the scope of the function, and that of the return itself, when the walk of the program comes to it.

* `mem_returnsOf_iff`: the first one finds the returns with a value that no other function stands
  around, in the body and below it (`Node.Within`).
* `Scopes.mem_walk_of_within`: if no class stands around it either, a return is walked in the scope
  of the function.
* `links_returns`: the body is related to each of these returns once, in the order of the program,
  and by the path that the rule of the return uses.
-/

namespace TypeSketch

namespace Node

/-- `m` is `n` or below it, and no node from `n` down to the one above `m` meets `p`. -/
inductive Within (p : Node → Bool) : Node → Node → Prop
  | self (n : Node) : Within p n n
  | inside {n c m : Node} (hn : p n = false) (hc : c ∈ n.children) (h : Within p c m) : Within p n m

variable {p : Node → Bool} {n m : Node}

/-- A walk that passes by what is below some nodes visits what is within the others. -/
theorem mem_visits_iff : m ∈ n.tree.visits p ↔ Within p n m := by
  constructor
  · intro h
    induction n using induction_on_children with
    | step n ih =>
      rw [visits_tree] at h
      rcases List.mem_cons.mp h with rfl | h
      · exact .self m
      · cases hn : p n with
        | true => simp [hn] at h
        | false =>
          obtain ⟨c, hc, h⟩ := List.mem_flatMap.mp (by simpa [hn] using h)
          exact .inside hn hc (ih c hc h)
  · intro h
    induction h with
    | self n =>
      rw [visits_tree]
      exact List.mem_cons_self
    | @inside n c m hn hc _ ih =>
      rw [visits_tree, hn]
      exact List.mem_cons_of_mem _ (List.mem_flatMap.mpr ⟨c, hc, ih⟩)

/-- A walk that passes by some nodes visits a part of all, in order. -/
theorem visits_sublist_all (p : Node → Bool) (n : Node) : (n.tree.visits p).Sublist n.all := by
  induction n using induction_on_children with
  | step n ih =>
    rw [visits_tree, all_eq]
    refine .cons_cons n ?_
    split
    · exact List.nil_sublist _
    · exact .flatMap_right _ ih

theorem Within.mem_all (h : Within p n m) : m ∈ n.all :=
  (visits_sublist_all p n).subset (mem_visits_iff.mpr h)

/-- The nodes below one of a program come in the order of the program. -/
theorem all_sublist_of_mem {root : Node} (h : n ∈ root.all) : n.all.Sublist root.all := by
  induction root using induction_on_children with
  | step root ih =>
    rw [all_eq] at h
    rcases List.mem_cons.mp h with rfl | h
    · exact .refl _
    · obtain ⟨c, hc, h⟩ := List.mem_flatMap.mp h
      have hsub : c.all.Sublist (root.children.flatMap all) := by
        simpa using (List.singleton_sublist.mpr hc).flatMap all
      rw [all_eq root]
      exact .cons _ ((ih c hc h).trans hsub)

/-- The nodes below a node of a program have numbers of their own too. -/
theorem Apart.of_mem {root : Node} (h : root.Apart) (hn : n ∈ root.all) : n.Apart :=
  h.sublist ((all_sublist_of_mem hn).map _)

/-- In a program every node has one place. -/
theorem Apart.eq_of_mem_all {c c' : Node} (h : n.Apart) (hc : c ∈ n.children)
    (hc' : c' ∈ n.children) (hm : m ∈ c.all) (hm' : m ∈ c'.all) : c = c' := by
  rw [Apart, all_eq, List.map_cons] at h
  have hnodup : (n.children.flatMap all).Nodup := .of_map _ (List.nodup_cons.mp h).2
  have hdisjoint := (List.nodup_flatMap.mp hnodup).2
  have : Std.Symm (Function.onFun List.Disjoint all) := ⟨fun _ _ hab _ hb ha => hab ha hb⟩
  by_contra hne
  exact hdisjoint.forall hc hc' hne hm hm'

/-- No node of two sorts stands around a node if none of either does. -/
theorem Within.or {q : Node → Bool} (apart : n.Apart) (h : Within p n m) (h' : Within q n m) :
    Within (fun k => p k || q k) n m := by
  induction h with
  | self n => exact .self n
  | @inside n c m hn hc h ih =>
    cases h' with
    | self => exact .self _
    | @inside _ c' _ hn' hc' h' =>
      obtain rfl := apart.eq_of_mem_all hc hc' h.mem_all h'.mem_all
      exact .inside (by rw [hn, hn']; rfl) hc
        (ih (apart.of_mem (mem_all_of_child hc (mem_all_self c))) h')

end Node

/-! ### Reading functions and returns -/

namespace Node.Made

variable {n : Node}

/-- A return with a value has no name and opens no scope. -/
theorem returned_spec (hn : n.Made) {value : Node} (h : n.node? Attr.returned = some value) :
    n.Anonymous ∧ n.Transparent := by
  obtain ⟨f, hf, -⟩ := hn.form
  obtain rfl := NodeForm.eq_returning (hf ▸ h)
  obtain ⟨r, id⟩ := n
  cases hf
  exact ⟨⟨rfl, rfl, rfl⟩, rfl, rfl⟩

/-- A function declaration has a body. -/
theorem exists_functionBody (hn : n.Made) (h : n.flag Attr.functionDecl = true) :
    ∃ body, n.node? Attr.functionBody = some body := by
  obtain ⟨f, hf, -⟩ := hn.form
  obtain ⟨name, arguments, body, isAsync, rfl⟩ := NodeForm.eq_functionDeclaration (hf ▸ h)
  exact ⟨body, hf ▸ rfl⟩

end Node.Made

/-! ### The returns that are found -/

/-- The rule of a function finds the returns with a value in its body that are in no other
function. -/
theorem Rule.mem_returnsOf_iff {body r : Node} (hbody : body.Made) : r ∈ returnsOf body ↔
    Node.Within (·.flag Attr.functionDecl) body r ∧ (r.node? Attr.returned).isSome = true := by
  rw [returnsOf, List.mem_filter, Node.mem_visits_iff, Bool.and_eq_true]
  refine and_congr_right fun hr => and_iff_right_of_imp fun hvalue => ?_
  obtain ⟨value, hvalue⟩ := Option.isSome_iff_exists.mp hvalue
  simp [((hbody.all r hr.mem_all).returned_spec hvalue).2.notFunction]

/-- Such a return has a value, no name, and opens no scope. -/
theorem Rule.returned_of_mem {body r : Node} (hbody : body.Made) (hr : r ∈ returnsOf body) :
    ∃ value, r.node? Attr.returned = some value ∧ r.Anonymous ∧ r.Transparent := by
  obtain ⟨hwithin, hvalue⟩ := (mem_returnsOf_iff hbody).mp hr
  obtain ⟨value, hvalue⟩ := Option.isSome_iff_exists.mp hvalue
  exact ⟨value, hvalue, (hbody.all r hwithin.mem_all).returned_spec hvalue⟩

theorem Rule.returnsOf_sublist (body : Node) : (returnsOf body).Sublist body.all :=
  List.filter_sublist.trans (Node.visits_sublist_all _ body)

/-- What is within no class and no function is walked in the scope around. -/
theorem Scopes.mem_walk_of_within {env : Scopes} {scope s : Scope} {root n m : Node}
    (hn : (n, env.enter n s) ∈ env.walk scope root) (h : Node.Within Node.opensScope n m)
    (hm : m.Transparent) : (m, s) ∈ env.walk scope root := by
  induction h with
  | self n => rwa [hm.enter_eq] at hn
  | inside hopens hc _ ih =>
    rw [(Node.transparent_iff.mpr hopens).enter_eq] at hn
    exact ih (mem_walk_of_child hn hc) hm

/-! ### What the two rules say -/

namespace Inference
open Rule (returnsOf)

variable {root f : Node}

/-- No two returns have one path: it tells the number of a node without a name. -/
theorem nodup_paths_returnsOf {body : Node} (hbody : body.Made) (apart : body.Apart)
    (env : Scopes) (s : Scope) : ((returnsOf body).map fun r => (env.site r s).path).Nodup := by
  have hids : ((returnsOf body).map (·.id)).Nodup :=
    apart.sublist ((Rule.returnsOf_sublist body).map _)
  refine List.Nodup.map_on ?_ (List.Nodup.of_map _ hids)
  intro r hr r' hr' hpath
  obtain ⟨-, -, hanon, -⟩ := Rule.returned_of_mem hbody hr
  obtain ⟨-, -, hanon', -⟩ := Rule.returned_of_mem hbody hr'
  exact List.inj_on_of_nodup_map hids hr hr' (hanon.id_eq hanon' hpath)

theorem returning_facts {r value : Node} (hvalue : r.node? Attr.returned = some value)
    (env : Scopes) (s : Scope) : Rule.returning.facts env s r =
      .ok (({} : Facts).equate (env.site r s) (env.site value s)) := by
  simp only [Rule.returning, hvalue]
  rfl

/-- A function declaration is walked in one scope.  There its rule relates its body to the returns
with a value that are in the body and in no other function, to each once and in order.  If a return
is in no class of the body either, the rule of the return uses the same path for it. -/
theorem links_returns (made : root.Made) (apart : root.Apart) (hf : f ∈ root.all)
    (hfun : f.flag Attr.functionDecl = true) :
    let path (n : Node) (scope : Scope) := ((Scopes.ofNode root).site n scope).path
    ∃ s, (∀ s', (f, s') ∈ (Scopes.ofNode root).walk {} root ↔ s' = s) ∧
      ∃ body facts, f.node? Attr.functionBody = some body ∧
        Rule.functionDeclaration.facts (.ofNode root) s f = .ok facts ∧
        facts.relations = .equal (path f s) (path body s) ::
          (returnsOf body).map (fun r => .equal (path body s) (path r s)) ∧
        (∀ r, r ∈ returnsOf body ↔ Node.Within (·.flag Attr.functionDecl) body r ∧
          (r.node? Attr.returned).isSome = true) ∧
        ((returnsOf body).map (path · s)).Nodup ∧ (returnsOf body).Sublist body.all ∧
        ∀ r ∈ returnsOf body, Node.Within (·.flag Attr.classDeclaration) body r →
          (r, s) ∈ (Scopes.ofNode root).walk {} root ∧
          ∀ s', (r, s') ∈ (Scopes.ofNode root).walk {} root →
            ∃ value facts, r.node? Attr.returned = some value ∧
              Rule.returning.facts (.ofNode root) s' r = .ok facts ∧
              facts.relations = [.equal (path r s) (path value s)] := by
  intro path
  obtain ⟨s, hs⟩ := Scopes.exists_walk_of_mem_all (.ofNode root) {} hf
  obtain ⟨body, hbody⟩ := (made.all f hf).exists_functionBody hfun
  -- The walk meets the body in the scope in which the rule for the function looks at it.
  have hwalk := Scopes.mem_walk_of_child hs (Node.mem_children_of_node? rfl hbody)
  have hmem := Scopes.mem_all_of_walk hwalk
  have hmade : body.Made := made.all body hmem
  have hapart : body.Apart := apart.of_mem hmem
  obtain ⟨facts, hfacts⟩ :
      ∃ facts, Rule.functionDeclaration.facts (.ofNode root) s f = .ok facts := by
    simp only [Rule.functionDeclaration, hbody]
    exact ⟨_, rfl⟩
  obtain ⟨hrelations, -⟩ := Rule.functionDeclaration_facts hfacts
  refine ⟨s, ?once, body, facts, hbody, hfacts, ?relations, fun r => Rule.mem_returnsOf_iff hmade,
    nodup_paths_returnsOf hmade hapart _ s, Rule.returnsOf_sublist body, ?same⟩
  case once =>
    refine fun s' => ⟨fun hs' => ?_, fun h => h ▸ hs⟩
    exact (Scopes.visit_unique apart hs' hs rfl).2
  case relations =>
    rw [hrelations, hbody]
    exact List.append_nil _
  case same =>
    intro r hr hclass
    obtain ⟨value, hvalue, -, htransparent⟩ := Rule.returned_of_mem hmade hr
    -- No function stands between, and no class by assumption, so the scope is that of the body.
    have hopens : Node.Within Node.opensScope body r :=
      hclass.or hapart ((Rule.mem_returnsOf_iff hmade).mp hr).1
    have hvisited := Scopes.mem_walk_of_within hwalk hopens htransparent
    refine ⟨hvisited, fun s' hs' => ?_⟩
    obtain ⟨-, rfl⟩ := Scopes.visit_unique apart hs' hvisited rfl
    exact ⟨value, _, hvalue, returning_facts hvalue _ s', rfl⟩

/-- The return of `y`. -/
def lastReturn : Node :=
  (NodeForm.returning (some ((NodeForm.identifier "y").node 4))).node 5

/-- The body `{ function g() return x; return; return y }` of a function. -/
def nestedBody : Node :=
  let g := (NodeForm.functionDeclaration "g" []
    ((NodeForm.returning (some ((NodeForm.identifier "x").node 0))).node 1) false).node 2
  (NodeForm.block [g, (NodeForm.returning none).node 3, lastReturn]).node 6

/-- The function `f` with that body. -/
def nestedFunction : Node := (NodeForm.functionDeclaration "f" [] nestedBody false).node 7

/-- The program `class A { function f() { function g() return x; return; return y } }`. -/
def nested : Node :=
  (NodeForm.program [(NodeForm.classDeclaration "A" [] [nestedFunction]).node 8]).node 9

theorem made_nested : nested.Made := by
  have hreturn : ∀ (name : String) (id : Nat), Node.Made
      ((NodeForm.returning (some ((NodeForm.identifier name).node id))).node (id + 1)) := by
    intro name id
    have hname : ((NodeForm.identifier name).node id).Made := .identifier ⟨⟨0, id⟩, rfl⟩
    exact @Node.Made.returning (some _) _ (by simpa using hname) ⟨⟨0, id + 1⟩, rfl⟩
  have hbody : nestedBody.Made := by
    refine @Node.Made.block [_, _, _] _ (fun c hc => ?_) ⟨⟨0, 6⟩, rfl⟩
    simp only [List.mem_cons, List.not_mem_nil, or_false] at hc
    rcases hc with rfl | rfl | rfl
    · exact @Node.Made.functionDeclaration "g" [] _ _ false nofun (hreturn "x" 0) ⟨⟨0, 2⟩, rfl⟩
    · exact @Node.Made.returning none _ nofun ⟨⟨0, 3⟩, rfl⟩
    · exact hreturn "y" 4
  have hfunction : nestedFunction.Made :=
    @Node.Made.functionDeclaration "f" [] _ _ false nofun hbody ⟨⟨0, 7⟩, rfl⟩
  exact .program (List.forall_mem_singleton.mpr
    (@Node.Made.classDeclaration "A" [] [_] _ (List.forall_mem_singleton.mpr hfunction)
      ⟨⟨0, 8⟩, rfl⟩)) ⟨⟨0, 9⟩, rfl⟩

theorem apart_nested : nested.Apart := by
  have hids : nested.all.map (·.id) = [9, 8, 7, 6, 2, 1, 0, 3, 5, 4] := rfl
  rw [Node.Apart, hids]
  decide

/-- The return of the inner function and the return without a value are left out. -/
theorem links_returns_nested : nested.Made ∧ nested.Apart ∧ nestedFunction ∈ nested.all ∧
    nestedFunction.flag Attr.functionDecl = true ∧
    ∃ facts facts', Rule.functionDeclaration.facts (.ofNode nested) ⟨some 0, some 0⟩
        nestedFunction = .ok facts ∧
      facts.relations = [.equal "A.f.function_decl@7" "A.f.block_statement@6",
        .equal "A.f.block_statement@6" "A.f.return@5"] ∧
      Rule.returning.facts (.ofNode nested) ⟨some 0, some 0⟩ lastReturn = .ok facts' ∧
      facts'.relations = [.equal "A.f.return@5" "A.f.y"] := by
  have hmem : nestedFunction ∈ nested.all := List.mem_of_getElem? (i := 2) rfl
  have hplace : ((Scopes.ofNode nested).walk {} nested)[2]? =
      some (nestedFunction, ⟨some 0, some 0⟩) := rfl
  obtain ⟨s, hs, body, facts, hbody, hfacts, hrelations, hreturns, -, -, hsame⟩ :=
    links_returns made_nested apart_nested hmem rfl
  obtain rfl := (hs _).mp (List.mem_of_getElem? hplace)
  obtain rfl : nestedBody = body := Option.some.inj hbody
  have hlast : ∀ p : Node → Bool, p nestedBody = false → Node.Within p nestedBody lastReturn :=
    fun p hp => .inside hp (List.mem_of_getElem? (i := 2) rfl) (.self _)
  obtain ⟨hvisited, hrule⟩ :=
    hsame lastReturn ((hreturns _).mpr ⟨hlast _ rfl, rfl⟩) (hlast _ rfl)
  obtain ⟨value, facts', hvalue, hfacts', hrelations'⟩ := hrule _ hvisited
  obtain rfl := Option.some.inj hvalue
  exact ⟨made_nested, apart_nested, hmem, rfl, facts, facts', hfacts, hrelations.trans rfl,
    hfacts', hrelations'.trans rfl⟩

end Inference

end TypeSketch
