import TypeSketch.Proofs.Inference.Agreement
import TypeSketch.Proofs.Inference.Collisions

/-!
# Inference — what identifiers resolve to

An identifier resolves to a variable or an argument of the function around it, or to a variable
outside all functions (`resolves`).  Variables outside functions are kept in one list, whether they
stand at file scope or in the body of a class, and no class is asked for: a variable of a class body
is found from everywhere (`resolves_into_class`).

The records are led back to the nodes that they come from: what is held for a function was declared
in it (`declares_of_function`), and what is held outside functions is a variable outside all of them
(`declares_of_globals`). Whether it is in scope where the identifier stands is `Visible`, and for a
variable outside functions this means that no class encloses it (`mem_atFile_iff`).
-/

namespace TypeSketch

namespace Node

/-- The node declares a class or a function. -/
def opensScope (n : Node) : Bool := n.flag Attr.classDeclaration || n.flag Attr.functionDecl

theorem transparent_iff {n : Node} : n.Transparent ↔ n.opensScope = false := by
  rw [opensScope, Bool.or_eq_false_iff]
  exact ⟨fun h => ⟨h.notClass, h.notFunction⟩, fun h => ⟨h.1, h.2⟩⟩

/-- The nodes of a program that are enclosed by no class and no function; a class or a function is
not among those it encloses. -/
def atFile (root : Node) : List Node := root.tree.visits opensScope

end Node

namespace Scopes

variable {root n d : Node} {s s' : Scope} {name : String} {site : Site}

/-! ### Scopes of the walk -/

/-- A node is walked in the scope that it enters from the one around it. -/
theorem exists_enter_of_walk {env : Scopes} {scope : Scope} (h : (n, s) ∈ env.walk scope root) :
    ∃ outer, s = env.enter n outer := by
  induction root using Node.induction_on_children generalizing scope with
  | step root ih =>
    rw [walk_eq] at h
    rcases List.mem_cons.mp h with h | h
    · cases h
      exact ⟨scope, rfl⟩
    · obtain ⟨c, hc, h⟩ := List.mem_flatMap.mp h
      exact ih c hc h

/-- A class that is walked is found by its number. -/
theorem isSome_findIdx?_class (apart : root.Apart) (h : (n, s) ∈ (ofNode root).walk {} root)
    (hn : n.flag Attr.classDeclaration = true) :
    ((ofNode root).classes.findIdx? (·.node == n.id)).isSome := by
  have hmem : (n.declaredName, n.id) ∈ (ofNode root).classHeads := by
    rw [(tally_ofNode apart).classes]
    exact List.mem_map.mpr ⟨(n, s), List.mem_filter.mpr ⟨h, hn⟩, rfl⟩
  obtain ⟨r, hr, he⟩ := List.mem_map.mp hmem
  rw [List.findIdx?_isSome, List.any_eq_true]
  exact ⟨r, hr, by simpa using congrArg Prod.snd he⟩

/-- A function that is walked is found by its number. -/
theorem isSome_findIdx?_function (apart : root.Apart) (h : (n, s) ∈ (ofNode root).walk {} root)
    (hn : n.opensFunction = true) :
    ((ofNode root).functions.findIdx? (·.node == n.id)).isSome := by
  have hmem : (n.declaredName, n.id, s.class?) ∈ (ofNode root).functionHeads := by
    rw [(tally_ofNode apart).functions]
    exact List.mem_map.mpr ⟨(n, s), List.mem_filter.mpr ⟨h, hn⟩, rfl⟩
  obtain ⟨r, hr, he⟩ := List.mem_map.mp hmem
  rw [List.findIdx?_isSome, List.any_eq_true]
  exact ⟨r, hr, by simpa using congrArg (·.2.1) he⟩

/-- Inside a class or a function is not file scope. -/
theorem enter_ne_file (apart : root.Apart) (h : (n, s) ∈ (ofNode root).walk {} root)
    (hn : n.opensScope = true) (outer : Scope) : (ofNode root).enter n outer ≠ {} := by
  intro henter
  rw [enter] at henter
  split at henter
  · next hc =>
    obtain ⟨c, hfind⟩ := Option.isSome_iff_exists.mp (isSome_findIdx?_class apart h hc)
    rw [hfind] at henter
    cases henter
  · next hc =>
    have hf : n.flag Attr.functionDecl = true := by
      simpa [Node.opensScope, hc] using hn
    have hopens : n.opensFunction = true := by simp [Node.opensFunction, hc, hf]
    obtain ⟨f, hfind⟩ := Option.isSome_iff_exists.mp (isSome_findIdx?_function apart h hopens)
    rw [if_pos hf, hfind] at henter
    cases congrArg Scope.function? henter

/-- What is enclosed by no class and no function is walked at file scope. -/
theorem walk_of_atFile (env : Scopes) (h : d ∈ n.atFile) (hd : d.Transparent) :
    (d, {}) ∈ env.walk {} n := by
  induction n using Node.induction_on_children with
  | step n ih =>
    rw [Node.atFile, Node.visits_tree] at h
    rw [walk_eq]
    rcases List.mem_cons.mp h with rfl | h
    · rw [hd.enter_eq]
      exact List.mem_cons_self
    · cases hn : n.opensScope with
      | true => simp [hn] at h
      | false =>
        obtain ⟨c, hc, h⟩ := List.mem_flatMap.mp (by simpa [hn] using h)
        rw [(Node.transparent_iff.mpr hn).enter_eq]
        exact List.mem_cons_of_mem _ (List.mem_flatMap.mpr ⟨c, hc, ih c hc h⟩)

/-- Where classes and functions have scopes of their own, what is walked at file scope is not below
any. -/
theorem atFile_of_walk {env : Scopes}
    (hopens : ∀ m ∈ n.all, m.opensScope = true → ∀ outer, env.enter m outer ≠ {})
    (h : (d, {}) ∈ env.walk s n) : s = {} ∧ d ∈ n.atFile := by
  induction n using Node.induction_on_children generalizing s with
  | step n ih =>
    rw [walk_eq] at h
    rw [Node.atFile, Node.visits_tree]
    -- below a class or a function the scope is that one or an inner one
    have hstays : env.enter n s = {} → s = {} ∧ n.opensScope = false := by
      intro henter
      cases hn : n.opensScope with
      | true => exact absurd henter (hopens n n.mem_all_self hn s)
      | false => exact ⟨(Node.transparent_iff.mpr hn).enter_eq env s ▸ henter, rfl⟩
    rcases List.mem_cons.mp h with h | h
    · obtain ⟨rfl, henter⟩ := Prod.mk.inj h
      exact ⟨(hstays henter.symm).1, List.mem_cons_self⟩
    · obtain ⟨c, hc, h⟩ := List.mem_flatMap.mp h
      obtain ⟨henter, hd⟩ := ih c hc (fun m hm => hopens m (Node.mem_all_of_child hc hm)) h
      obtain ⟨hs, hn⟩ := hstays henter
      refine ⟨hs, List.mem_cons_of_mem _ ?_⟩
      simp only [hn, Bool.false_eq_true, if_false]
      exact List.mem_flatMap.mpr ⟨c, hc, hd⟩

/-- What is walked at file scope is enclosed by no class and no function, and the other way
round. -/
theorem mem_atFile_iff (apart : root.Apart) (h : (d, s) ∈ (ofNode root).walk {} root)
    (hd : d.Transparent) : d ∈ root.atFile ↔ s = {} := by
  refine ⟨fun hfile => (visit_unique apart h (walk_of_atFile _ hfile hd) rfl).2, ?_⟩
  rintro rfl
  refine (atFile_of_walk (fun m hm hopens outer => ?_) h).2
  rw [← map_fst_walk (ofNode root) {} root] at hm
  obtain ⟨⟨_, t⟩, hwalk, rfl⟩ := List.mem_map.mp hm
  exact enter_ne_file apart hwalk hopens outer

/-! ### What is declared where -/

/-- A node declares a name in a scope: as a variable, or as an argument of the function inside. -/
inductive Declares (root : Node) : Scope → String → Node → Prop
  | variable {d : Node} {s : Scope} {name : String} (h : (d, s) ∈ (ofNode root).walk {} root)
      (hd : d.declaresVariable = true) (hname : d.str? Attr.variableDeclarationId = some name) :
      Declares root s name d
  | argument {f d : Node} {s : Scope} {name : String} (h : (f, s) ∈ (ofNode root).walk {} root)
      (hf : f.opensFunction = true) (hd : d ∈ f.nodes Attr.arguments)
      (hname : d.str? Attr.argumentName = some name) : Declares root s name d

/-- Functions are recorded under numbers of their own. -/
theorem nodup_functions (apart : root.Apart) : ((ofNode root).functions.map (·.node)).Nodup := by
  have hheads : (ofNode root).functions.map (·.node) =
      ((ofNode root).functionHeads).map (·.2.1) := by
    simp [functionHeads]
  rw [hheads, (tally_ofNode apart).functions, List.map_map]
  rw [Node.Apart, ← map_fst_walk (ofNode root) {} root, List.map_map] at apart
  exact apart.sublist (List.filter_sublist.map _)

/-- A function is walked in the scope that it is recorded as. -/
theorem function?_of_opens (apart : root.Apart) (h : (n, s) ∈ (ofNode root).walk {} root)
    (hn : n.opensFunction = true) {f : Nat} {r : FunctionScope}
    (hr : (ofNode root).functions[f]? = some r) (hid : r.node = n.id) : s.function? = some f := by
  obtain ⟨outer, rfl⟩ := exists_enter_of_walk h
  obtain ⟨g, hg⟩ := Option.isSome_iff_exists.mp (isSome_findIdx?_function apart h hn)
  obtain ⟨hlt, hnode, -⟩ := List.findIdx?_eq_some_iff_getElem.mp hg
  obtain rfl : g = f := by
    refine (List.getElem?_inj (by simpa using hlt) (nodup_functions apart)).mp ?_
    simp only [List.getElem?_map, hr, List.getElem?_eq_getElem hlt, Option.map_some, hid]
    exact congrArg some (beq_iff_eq.mp hnode)
  rw [Node.opensFunction, Bool.and_eq_true, Bool.not_eq_true'] at hn
  simp [enter, hn.1, hn.2, hg]

theorem transparent_of_declaresVariable (h : d.declaresVariable = true) : d.Transparent := by
  simp only [Node.declaresVariable, Bool.and_eq_true, Bool.not_eq_true'] at h
  exact ⟨h.1.1, h.1.2⟩

/-- An entry of the variables that a scope keeps is that of a variable declared there. -/
theorem declares_of_meets (made : root.Made) (apart : root.Apart) {function? : Option Nat}
    {e : String × Site} (hd : d ∈ variablesIn function? ((ofNode root).walk {} root))
    (he : Meets (ofNode root) ((ofNode root).walk {} root) Attr.variableDeclarationId d e) :
    ∃ s, Declares root s e.1 d ∧ (d, s) ∈ (ofNode root).walk {} root ∧
      d.declaresVariable = true ∧ s.function? = function? ∧ e.2 = ⟨(ofNode root).pathOf s e.1, d.id⟩ := by
  obtain ⟨⟨_, s⟩, hp, rfl⟩ := List.mem_map.mp hd
  obtain ⟨hwalk, hp⟩ := List.mem_filter.mp hp
  rw [Bool.and_eq_true, beq_iff_eq] at hp
  obtain ⟨hdeclares, hfunction⟩ := hp
  obtain ⟨hname, s', hwalk', hsite⟩ := he
  obtain ⟨-, rfl⟩ := visit_unique apart hwalk hwalk' rfl
  have hflag := hdeclares
  rw [Node.declaresVariable, Bool.and_eq_true] at hflag
  obtain ⟨name, hid, hnamed, ht⟩ := (made.all _ (mem_all_of_walk hwalk)).declaration_spec hflag.2
  rw [hid, Option.getD_some] at hname
  refine ⟨s, .variable hwalk hdeclares (hname ▸ hid), hwalk, hdeclares, hfunction, ?_⟩
  rw [hsite hnamed.identifier ht, hnamed.site_eq, hname]

/-- What is recorded of a function is declared inside it. -/
theorem declares_of_function (made : root.Made) (apart : root.Apart) {f : Nat} {r : FunctionScope}
    (hr : (ofNode root).functions[f]? = some r) (h : (name, site) ∈ r.locals ++ r.arguments) :
    ∃ d s, Declares root s name d ∧ s.function? = some f ∧ site = ⟨(ofNode root).pathOf s name, d.id⟩ := by
  have htally := tally_ofNode apart
  rcases List.mem_append.mp h with h | h
  · obtain ⟨d, hd, he⟩ := exists_of_forall₂ (htally.locals f r hr) _ h
    obtain ⟨s, hdeclares, -, -, hs, hsite⟩ := declares_of_meets made apart hd he
    exact ⟨d, s, hdeclares, hs, hsite⟩
  · -- the node that the function is recorded for
    have hhead : ((ofNode root).functionHeads)[f]? = some (r.name, r.node, r.class?) := by
      rw [functionHeads, List.getElem?_map, hr, Option.map_some]
    rw [htally.functions, List.getElem?_map, Option.map_eq_some_iff] at hhead
    obtain ⟨⟨n, s⟩, hp, hhead⟩ := hhead
    have hid : n.id = r.node := congrArg (·.2.1) hhead
    obtain ⟨hwalk, hopens⟩ := List.mem_filter.mp (List.mem_of_getElem? hp)
    have hrel := rel_getElem?_of_forall₂ htally.arguments f
    rw [hp, List.getElem?_map, hr, Option.map_some] at hrel
    cases hrel with
    | some hrel =>
      obtain ⟨a, ha, hname, s', hwalk', hsite⟩ := exists_of_forall₂ hrel _ h
      obtain ⟨ha, hsome⟩ := List.mem_filter.mp ha
      obtain ⟨name', hname'⟩ := Option.isSome_iff_exists.mp hsome
      obtain rfl : name = name' := by simpa [hname'] using hname
      have hchild := n.nodes_subset_children Attr.arguments rfl ha
      have hmade := (made.all n (mem_all_of_walk hwalk)).children a hchild
      obtain ⟨hnamed, ht⟩ := hmade.argument_spec hname'
      obtain ⟨-, rfl⟩ := visit_unique apart (mem_walk_of_child hwalk hchild) hwalk' rfl
      refine ⟨a, s, .argument hwalk hopens ha hname', function?_of_opens apart hwalk hopens hr
        hid.symm, ?_⟩
      rw [show site = _ from hsite hnamed.identifier ht, hnamed.site_eq, ht.enter_eq]

/-- The variables outside functions are declared there. -/
theorem declares_of_globals (made : root.Made) (apart : root.Apart)
    (h : (name, site) ∈ (ofNode root).globals) : ∃ d s, Declares root s name d ∧
      (d, s) ∈ (ofNode root).walk {} root ∧ d.declaresVariable = true ∧ s.function? = none ∧
      site = ⟨(ofNode root).pathOf s name, d.id⟩ := by
  obtain ⟨d, hd, he⟩ := exists_of_forall₂ (tally_ofNode apart).globals _ h
  obtain ⟨s, h⟩ := declares_of_meets made apart hd he
  exact ⟨d, s, h⟩

/-! ### Resolving -/

/-- What is declared in one scope is in scope in another: it is a variable or an argument of the
function around that one, or a variable that is enclosed by no class and no function. -/
def Visible (root : Node) (scope : Scope) (d : Node) (declared : Scope) : Prop :=
  (∃ f, scope.function? = some f ∧ declared.function? = some f) ∨
    d.declaresVariable = true ∧ d ∈ root.atFile

/-- An identifier resolves to a declaration of its name in the function around it or outside all
functions.  It is in scope there, except for a variable in the body of a class. -/
theorem resolves (made : root.Made) (apart : root.Apart)
    (hname : n.str? Attr.identifier = some name)
    (h : (ofNode root).declaration? n s = some site) :
    ∃ d s', Declares root s' name d ∧ site = ⟨(ofNode root).pathOf s' name, d.id⟩ ∧
      (s'.function? = none ∨ s'.function? = s.function?) ∧
      (Visible root s d s' ↔ (s'.function? = none → s'.class? = none)) := by
  rw [declaration?, hname] at h
  rcases Option.or_eq_some_iff.mp h with h | ⟨-, h⟩
  · obtain ⟨f, hf, h⟩ := Option.bind_eq_some_iff.mp h
    obtain ⟨r, hr, h⟩ := Option.bind_eq_some_iff.mp h
    have hmem : (name, site) ∈ r.locals ++ r.arguments := by
      rw [List.mem_append]
      rcases Option.or_eq_some_iff.mp h with h | ⟨-, h⟩
      · exact .inl (Assoc.mem_of_lookup h)
      · exact .inr (Assoc.mem_of_lookup h)
    obtain ⟨d, s', hd, hs', hsite⟩ := declares_of_function made apart hr hmem
    exact ⟨d, s', hd, hsite, .inr (hs'.trans hf.symm), fun _ hnone => by simp [hs'] at hnone,
      fun _ => .inl ⟨f, hf, hs'⟩⟩
  · obtain ⟨d, s', hd, hwalk, hvariable, hs', hsite⟩ :=
      declares_of_globals made apart (Assoc.mem_of_lookup h)
    -- A variable outside functions is at file scope unless a class encloses it.
    have hfile : d ∈ root.atFile ↔ s'.class? = none := by
      rw [mem_atFile_iff apart hwalk (transparent_of_declaresVariable hvariable)]
      obtain ⟨class?, function?⟩ := s'
      cases hs'
      exact ⟨congrArg Scope.class?, fun hc => by cases hc; rfl⟩
    refine ⟨d, s', hd, hsite, .inl hs', ?_⟩
    rw [Visible, hfile, hs']
    simp [hvariable]

/-- The program `class A { let x }; let y = x; function f(z) { z }`. -/
def classBody : Node :=
  let x := (NodeForm.declaration "x" none).node 0
  let y := (NodeForm.declaration "y" (some ((NodeForm.identifier "x").node 1))).node 2
  let z := (NodeForm.argument "z" none).node 3
  let f := (NodeForm.functionDeclaration "f" [z] ((NodeForm.identifier "z").node 4) false).node 5
  (NodeForm.program [(NodeForm.classDeclaration "A" [] [x]).node 6, y, f]).node 7

theorem made_classBody : classBody.Made := by
  have hx : Node.Made ((NodeForm.declaration "x" none).node 0) :=
    @Node.Made.declaration "x" none _ nofun ⟨⟨0, 0⟩, rfl⟩
  have hread : Node.Made ((NodeForm.identifier "x").node 1) := .identifier ⟨⟨0, 1⟩, rfl⟩
  have hz : Node.Made ((NodeForm.argument "z" none).node 3) :=
    @Node.Made.argument "z" none _ nofun ⟨⟨0, 3⟩, rfl⟩
  have hbody : Node.Made ((NodeForm.identifier "z").node 4) := .identifier ⟨⟨0, 4⟩, rfl⟩
  refine @Node.Made.program [_, _, _] _ (fun c hc => ?_) ⟨⟨0, 7⟩, rfl⟩
  simp only [List.mem_cons, List.not_mem_nil, or_false] at hc
  rcases hc with rfl | rfl | rfl
  · exact @Node.Made.classDeclaration "A" [] [_] _ (List.forall_mem_singleton.mpr hx)
      ⟨⟨0, 6⟩, rfl⟩
  · exact @Node.Made.declaration "y" (some _) _ (by simpa using hread) ⟨⟨0, 2⟩, rfl⟩
  · exact .functionDeclaration (List.forall_mem_singleton.mpr hz) hbody ⟨⟨0, 5⟩, rfl⟩

theorem apart_classBody : classBody.Apart := by
  have hids : classBody.all.map (·.id) = [7, 6, 0, 2, 1, 5, 3, 4] := rfl
  rw [Node.Apart, hids]
  decide

/-- The argument `z` is found in its function and is in scope there. -/
theorem resolves_to_argument : classBody.Made ∧ classBody.Apart ∧
    (ofNode classBody).declaration? ((NodeForm.identifier "z").node 4) ⟨none, some 0⟩ =
      some ⟨"f.z", 3⟩ ∧
    ∃ d s', Declares classBody s' "z" d ∧
      ⟨"f.z", 3⟩ = (⟨(ofNode classBody).pathOf s' "z", d.id⟩ : Site) ∧
      (s'.function? = none ∨ s'.function? = some 0) ∧
      (Visible classBody ⟨none, some 0⟩ d s' ↔ (s'.function? = none → s'.class? = none)) := by
  have hfound : (ofNode classBody).declaration? ((NodeForm.identifier "z").node 4)
      ⟨none, some 0⟩ = some ⟨"f.z", 3⟩ := by decide +kernel
  exact ⟨made_classBody, apart_classBody, hfound,
    resolves made_classBody apart_classBody rfl hfound⟩

/-- A variable in the body of a class is found at file scope, where it is not in scope. -/
theorem resolves_into_class :
    ((NodeForm.identifier "x").node 1, {}) ∈ (ofNode classBody).walk {} classBody ∧
    (ofNode classBody).declaration? ((NodeForm.identifier "x").node 1) {} = some ⟨"A.x", 0⟩ ∧
    ¬ ∃ d s', Declares classBody s' "x" d ∧
      ⟨"A.x", 0⟩ = (⟨(ofNode classBody).pathOf s' "x", d.id⟩ : Site) ∧
      Visible classBody {} d s' := by
  refine ⟨?_, by decide +kernel, ?_⟩
  · have hplace : classBody.atFile[3]? = some ((NodeForm.identifier "x").node 1) := rfl
    exact walk_of_atFile _ (List.mem_of_getElem? hplace) ⟨rfl, rfl⟩
  · rintro ⟨d, s', -, hsite, ⟨f, hf, -⟩ | ⟨-, hfile⟩⟩
    · cases hf
    · have hids : classBody.atFile.map (·.id) = [7, 6, 2, 1, 5] := rfl
      have hid : 0 = d.id := congrArg Site.node hsite
      have hmem : d.id ∈ classBody.atFile.map (·.id) := List.mem_map_of_mem hfile
      rw [hids, ← hid] at hmem
      exact absurd hmem (by decide)

end Scopes

end TypeSketch
