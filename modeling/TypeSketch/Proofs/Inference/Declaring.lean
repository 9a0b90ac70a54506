import TypeSketch.Proofs.Program.Walk

/-!
# Inference — recording declarations

A program is walked twice in scope: once to record its declarations, and again, with all of them
recorded, for whatever looks at its nodes.  The second walk finds the scope of a class or a function
by its number.  In a program whose nodes have numbers of their own both walks agree (`run_ofNode`):
recording takes the nodes in the order of the second walk, one step a node (`Scopes.Run`), and the
scope inside each node is the one the second walk hands out.

Records are only added to: the names, the numbers and the classes of those that are there stay
(`Scopes.Begins`).

What holds of a whole recording is proved by `Run.keeps`, or by `Run.keeps_seen` where it is about
the nodes seen so far: an invariant holds at the end if each step keeps it. The steps are those of
`declareNode`, with one equation for each kind of node: a class (`declareNode_class`), a function
with its arguments (`declareNode_eq_foldl`), a variable (`declareNode_variable`), and what records
neither (`declareNode_transparent`).
-/

namespace TypeSketch

/-! ### Lists of records -/

/-- A change of one record, read off by `g`. -/
theorem map_modify {α β : Type} {g : α → β} {f : α → α} {k : β → β} (h : ∀ x, g (f x) = k (g x))
    (l : List α) (i : Nat) : (l.modify i f).map g = (l.map g).modify i k := by
  refine List.ext_getElem? fun j => ?_
  rw [List.getElem?_map, List.getElem?_modify, List.getElem?_modify, List.getElem?_map]
  by_cases hij : i = j
  · cases l[j]? <;> simp [hij, h]
  · cases l[j]? <;> simp [hij]

/-- A change of one record that leaves alone what `g` reads. -/
theorem map_modify_of_eq {α β : Type} {g : α → β} {f : α → α} (h : ∀ x, g (f x) = g x)
    (l : List α) (i : Nat) : (l.modify i f).map g = l.map g := by
  rw [map_modify (k := id) h, List.modify_id]

/-- What stands at a place of a list that was added to stood there, or was added. -/
theorem eq_of_getElem?_concat {α : Type} {l : List α} {x y : α} {i : Nat}
    (h : (l ++ [x])[i]? = some y) : l[i]? = some y ∨ i = l.length ∧ y = x := by
  rw [List.getElem?_append] at h
  split at h
  · exact .inl h
  · next hlt =>
    have hi : i - l.length = 0 := by
      by_contra hne
      rw [List.getElem?_eq_none (by simp; omega)] at h
      cases h
    rw [hi] at h
    exact .inr ⟨by omega, (Option.some.inj h).symm⟩

/-- The first record of a number comes after records of other numbers. -/
theorem findIdx?_of_map {α : Type} {number : α → Nat} {l : List α} {before after : List Nat}
    {id : Nat} (h : l.map number = before ++ id :: after) (hb : id ∉ before) :
    l.findIdx? (fun r => number r == id) = some before.length := by
  have hfind : (l.map number).findIdx? (· == id) = some before.length := by
    have hnone : before.findIdx? (· == id) = none :=
      List.findIdx?_eq_none_iff.mpr fun x hx => beq_false_of_ne fun e => hb (e ▸ hx)
    rw [h, List.findIdx?_append, hnone, List.findIdx?_cons]
    simp
  rw [List.findIdx?_map] at hfind
  exact hfind

/-- Where records begin others, as far as `g` reads them, each is found again at its place. -/
theorem getElem?_of_prefix_map {α β : Type} {g : α → β} {l l' : List α}
    (h : l.map g <+: l'.map g) {i : Nat} {r : α} (hr : l[i]? = some r) :
    ∃ r', l'[i]? = some r' ∧ g r' = g r := by
  have hread : (l.map g)[i]? = some (g r) := by rw [List.getElem?_map, hr, Option.map_some]
  have hagain := List.prefix_iff_getElem?.mp h i (List.getElem?_eq_some_iff.mp hread).1
  rw [← List.getElem?_eq_getElem, hread, List.getElem?_map, Option.map_eq_some_iff] at hagain
  exact hagain

namespace Scopes

/-! ### What stays of records -/

/-- The name and the number of each class. -/
def classHeads (env : Scopes) : List (String × Nat) := env.classes.map fun r => (r.name, r.node)

/-- The name, the number and the class of each function. -/
def functionHeads (env : Scopes) : List (String × Nat × Option Nat) :=
  env.functions.map fun r => (r.name, r.node, r.class?)

/-- The numbers of the classes and functions that are recorded. -/
def ids (env : Scopes) : List Nat := env.classHeads.map (·.2) ++ env.functionHeads.map (·.2.1)

/-- The records of `env` are the first of `final`. -/
structure Begins (env final : Scopes) : Prop where
  classes : env.classHeads <+: final.classHeads
  functions : env.functionHeads <+: final.functionHeads

theorem Begins.refl (env : Scopes) : env.Begins env := ⟨List.prefix_rfl, List.prefix_rfl⟩

theorem Begins.trans {env env' env'' : Scopes} (h : env.Begins env') (h' : env'.Begins env'') :
    env.Begins env'' :=
  ⟨h.classes.trans h'.classes, h.functions.trans h'.functions⟩

theorem Begins.of_eq {env env' : Scopes} (hc : env'.classHeads = env.classHeads)
    (hf : env'.functionHeads = env.functionHeads) : env.Begins env' :=
  ⟨hc ▸ List.prefix_rfl, hf ▸ List.prefix_rfl⟩

end Scopes

/-- The class and the function of a scope are recorded, the function as one of the class. -/
structure Scope.Inside (scope : Scope) (env : Scopes) : Prop where
  class_lt : ∀ c, scope.class? = some c → c < env.classes.length
  function_of : ∀ f, scope.function? = some f →
    ∃ r, env.functions[f]? = some r ∧ r.class? = scope.class?

theorem Scope.inside_file (env : Scopes) : Scope.Inside {} env := ⟨nofun, nofun⟩

namespace Scopes

theorem Begins.length_classes_le {env final : Scopes} (h : env.Begins final) :
    env.classes.length ≤ final.classes.length := by
  simpa [classHeads] using h.classes.length_le

/-- A function keeps its place, its name, its number and its class. -/
theorem Begins.function {env final : Scopes} (h : env.Begins final) {f : Nat} {r : FunctionScope}
    (hr : env.functions[f]? = some r) : ∃ r', final.functions[f]? = some r' ∧
      r'.name = r.name ∧ r'.node = r.node ∧ r'.class? = r.class? := by
  obtain ⟨r', hr', heq⟩ := getElem?_of_prefix_map h.functions hr
  simp only [Prod.mk.injEq] at heq
  exact ⟨r', hr', heq⟩

/-- A class keeps its place, its name and its number. -/
theorem Begins.class {env final : Scopes} (h : env.Begins final) {c : Nat} {r : ClassScope}
    (hr : env.classes[c]? = some r) :
    ∃ r', final.classes[c]? = some r' ∧ r'.name = r.name ∧ r'.node = r.node := by
  obtain ⟨r', hr', heq⟩ := getElem?_of_prefix_map h.classes hr
  simp only [Prod.mk.injEq] at heq
  exact ⟨r', hr', heq⟩

/-- A scope that is recorded stays recorded. -/
theorem Begins.inside {env final : Scopes} (h : env.Begins final) {scope : Scope}
    (hs : scope.Inside env) : scope.Inside final := by
  refine ⟨fun c hc => Nat.lt_of_lt_of_le (hs.class_lt c hc) h.length_classes_le, fun f hf => ?_⟩
  obtain ⟨r, hr, hclass⟩ := hs.function_of f hf
  obtain ⟨r', hr', -, -, hclass'⟩ := h.function hr
  exact ⟨r', hr', hclass'.trans hclass⟩

/-- The names around what a scope holds stay. -/
theorem Begins.names_eq {env final : Scopes} (h : env.Begins final) {scope : Scope}
    (hs : scope.Inside env) : final.names scope = env.names scope := by
  obtain ⟨class?, function?⟩ := scope
  have hclass : (class?.bind fun c => final.classes[c]?).map (·.name) =
      (class?.bind fun c => env.classes[c]?).map (·.name) := by
    cases class? with
    | none => rfl
    | some c =>
      obtain ⟨r', hr', hname, -⟩ := h.class (List.getElem?_eq_getElem (hs.class_lt c rfl))
      simp [hr', hname, List.getElem?_eq_getElem (hs.class_lt c rfl)]
  have hfunction : (function?.bind fun f => final.functions[f]?).map (·.name) =
      (function?.bind fun f => env.functions[f]?).map (·.name) := by
    cases function? with
    | none => rfl
    | some f =>
      obtain ⟨r, hr, -⟩ := hs.function_of f rfl
      obtain ⟨r', hr', hname, -⟩ := h.function hr
      simp [hr', hr, hname]
  simp only [names, hclass, hfunction]

/-! ### One step of recording -/

theorem modify_append_last {α : Type} (l : List α) (x : α) (f : α → α) :
    (l ++ [x]).modify l.length f = l ++ [f x] := by
  induction l with
  | nil => rfl
  | cons y l ih => simp [ih]

/-- Arguments with a name go to the function that is recorded last, in order. -/
theorem foldl_declareArgument (env : Scopes) {fs : List FunctionScope} {r : FunctionScope}
    (h : env.functions = fs ++ [r]) (inner : Scope) (as : List Node) :
    ∃ new, as.foldl (declareArgument fs.length inner) env =
        { env with functions := fs ++ [{ r with arguments := r.arguments ++ new }] } ∧
      List.Forall₂ (fun a e => a.str? Attr.argumentName = some e.1 ∧
        ∃ env₁ : Scopes, env₁.classHeads = env.classHeads ∧
          env₁.functionHeads = env.functionHeads ∧ e.2 = env₁.site a inner)
        (as.filter fun a => (a.str? Attr.argumentName).isSome) new := by
  induction as generalizing env r with
  | nil => exact ⟨[], by simp [← h], .nil⟩
  | cons a as ih =>
    rw [List.foldl_cons, declareArgument]
    cases ha : a.str? Attr.argumentName with
    | none =>
      obtain ⟨new, heq, hnew⟩ := ih env h
      rw [List.filter_cons_of_neg (by simp [ha])]
      exact ⟨new, heq, hnew⟩
    | some name =>
      obtain ⟨new, heq, hnew⟩ := ih
        { env with functions := env.functions.modify fs.length fun s =>
          { s with arguments := s.arguments ++ [(name, env.site a inner)] } }
        (r := { r with arguments := r.arguments ++ [(name, env.site a inner)] })
        (by rw [h, modify_append_last])
      rw [List.filter_cons_of_pos (by simp [ha])]
      refine ⟨(name, env.site a inner) :: new, by rw [heq]; simp, .cons ?_ ?_⟩
      -- the site is taken before the argument is recorded
      · exact ⟨ha, env, rfl, rfl, rfl⟩
      · refine hnew.imp fun a' e ⟨hname, env₁, hc, hf, hsite⟩ => ?_
        exact ⟨hname, env₁, hc, hf.trans (map_modify_of_eq (by intro; rfl) _ _), hsite⟩

/-- The classes once a function is recorded as one of a class. -/
def withMethod (env : Scopes) (class? : Option Nat) (f : Nat) : List ClassScope :=
  match class? with
  | some c => env.classes.modify c fun s => { s with functions := s.functions ++ [f] }
  | none => env.classes

theorem heads_withMethod (env : Scopes) (class? : Option Nat) (f : Nat) :
    ((env.withMethod class? f).map fun r => (r.name, r.node)) = env.classHeads := by
  cases class? with
  | none => rfl
  | some c => exact map_modify_of_eq (by intro; rfl) _ _

variable {n : Node} {scope : Scope} {env final : Scopes}

theorem declareNode_class (h : n.flag Attr.classDeclaration = true) (scope : Scope)
    (env : Scopes) : declareNode n scope env =
      (⟨some env.classes.length, none⟩, { env with
        classes := env.classes ++ [⟨(n.str? Attr.name).getD "", n.id, [], []⟩] }) := by
  simp [declareNode, h]

/-- A function is recorded, and then its arguments inside it. -/
theorem declareNode_eq_foldl (hc : n.flag Attr.classDeclaration = false)
    (hf : n.flag Attr.functionDecl = true) (scope : Scope) (env : Scopes) :
    declareNode n scope env =
      let inner : Scope := ⟨scope.class?, some env.functions.length⟩
      (inner, (n.nodes Attr.arguments).foldl (declareArgument env.functions.length inner) {
        classes := env.withMethod scope.class? env.functions.length
        functions := env.functions ++ [⟨(n.str? Attr.name).getD "", n.id, scope.class?, [], []⟩]
        globals := env.globals }) :=
  (if_neg (by simp [hc])).trans (if_pos hf)

/-- A function is recorded in the class around it, each argument that has a name at a site that is
made of the names recorded so far. -/
theorem declareNode_function (hc : n.flag Attr.classDeclaration = false)
    (hf : n.flag Attr.functionDecl = true) (scope : Scope) (env : Scopes) :
    ∃ new, declareNode n scope env = (⟨scope.class?, some env.functions.length⟩, {
        classes := env.withMethod scope.class? env.functions.length
        functions := env.functions ++ [⟨(n.str? Attr.name).getD "", n.id, scope.class?, new, []⟩]
        globals := env.globals }) ∧
      List.Forall₂ (fun a e => a.str? Attr.argumentName = some e.1 ∧
        ∃ env₁ : Scopes, env₁.classHeads = (declareNode n scope env).2.classHeads ∧
          env₁.functionHeads = (declareNode n scope env).2.functionHeads ∧
          e.2 = env₁.site a (declareNode n scope env).1)
        ((n.nodes Attr.arguments).filter fun a => (a.str? Attr.argumentName).isSome) new := by
  obtain ⟨new, heq, hnew⟩ := foldl_declareArgument
    ⟨env.withMethod scope.class? env.functions.length,
      env.functions ++ [⟨(n.str? Attr.name).getD "", n.id, scope.class?, [], []⟩], env.globals⟩ rfl
    ⟨scope.class?, some env.functions.length⟩ (n.nodes Attr.arguments)
  have hstep := (declareNode_eq_foldl hc hf scope env).trans (congrArg (Prod.mk _) heq)
  refine ⟨new, hstep, hnew.imp fun a e ⟨hname, env₁, h₁, h₂, hsite⟩ => ?_⟩
  rw [hstep]
  refine ⟨hname, env₁, h₁, h₂.trans ?_, hsite⟩
  simp [functionHeads]

/-- A node that is neither class nor function opens no scope and adds no record. -/
theorem declareNode_transparent (hc : n.flag Attr.classDeclaration = false)
    (hf : n.flag Attr.functionDecl = false) (scope : Scope) (env : Scopes) :
    (declareNode n scope env).1 = scope ∧
      (declareNode n scope env).2.classHeads = env.classHeads ∧
      (declareNode n scope env).2.functionHeads = env.functionHeads := by
  simp only [declareNode, hc, hf, Bool.false_eq_true, if_false]
  split
  · cases scope.function? with
    | none => exact ⟨rfl, rfl, rfl⟩
    | some f => exact ⟨rfl, rfl, map_modify_of_eq (by intro; rfl) _ _⟩
  · split
    · refine ⟨rfl, map_modify_of_eq (fun r => ?_) _ _, rfl⟩
      split <;> rfl
    · exact ⟨rfl, rfl, rfl⟩

/-- A variable goes to the function around it, or to the variables outside functions. -/
theorem declareNode_variable (hc : n.flag Attr.classDeclaration = false)
    (hf : n.flag Attr.functionDecl = false) (hv : n.flag Attr.variableDeclaration = true)
    (scope : Scope) (env : Scopes) :
    (declareNode n scope env).2 =
      let entry := ((n.str? Attr.variableDeclarationId).getD "", env.site n scope)
      match scope.function? with
      | some f => { env with functions := env.functions.modify f fun s =>
          { s with locals := s.locals ++ [entry] } }
      | none => { env with globals := env.globals ++ [entry] } := by
  simp only [declareNode, hc, hf, hv, Bool.false_eq_true, if_false, if_true]
  cases scope.function? <;> rfl

/-- A step leaves the records that are there, and adds that of its own node at most. -/
theorem heads_declareNode (n : Node) (scope : Scope) (env : Scopes) :
    (∃ cs, (declareNode n scope env).2.classHeads = env.classHeads ++ cs ∧
        ∀ h ∈ cs, h = ((n.str? Attr.name).getD "", n.id)) ∧
      ∃ fs, (declareNode n scope env).2.functionHeads = env.functionHeads ++ fs ∧
        ∀ h ∈ fs, h = ((n.str? Attr.name).getD "", n.id, scope.class?) := by
  cases hc : n.flag Attr.classDeclaration with
  | true =>
    rw [declareNode_class hc]
    exact ⟨⟨[_], by simp [classHeads], fun h => List.mem_singleton.mp⟩,
      [], by simp [functionHeads], nofun⟩
  | false =>
    cases hf : n.flag Attr.functionDecl with
    | true =>
      obtain ⟨new, heq, -⟩ := declareNode_function hc hf scope env
      rw [heq]
      exact ⟨⟨[], (heads_withMethod ..).trans (List.append_nil _).symm, nofun⟩,
        [_], by simp [functionHeads], fun h => List.mem_singleton.mp⟩
    | false =>
      obtain ⟨-, hclasses, hfunctions⟩ := declareNode_transparent hc hf scope env
      exact ⟨⟨[], by simp [hclasses], nofun⟩, [], by simp [hfunctions], nofun⟩

theorem begins_declareNode (n : Node) (scope : Scope) (env : Scopes) :
    env.Begins (declareNode n scope env).2 := by
  obtain ⟨⟨cs, hcs, -⟩, fs, hfs, -⟩ := heads_declareNode n scope env
  exact ⟨hcs ▸ List.prefix_append _ _, hfs ▸ List.prefix_append _ _⟩

/-- A step adds at most the number of its node. -/
theorem mem_ids_declareNode {id : Nat} (h : id ∈ (declareNode n scope env).2.ids) :
    id ∈ env.ids ∨ id = n.id := by
  obtain ⟨⟨cs, hcs, hcn⟩, fs, hfs, hfn⟩ := heads_declareNode n scope env
  simp only [ids, hcs, hfs, List.map_append, List.mem_append, List.mem_map] at h ⊢
  rcases h with (h | ⟨h, hh, rfl⟩) | (h | ⟨h, hh, rfl⟩)
  · exact .inl (.inl h)
  · exact .inr (congrArg Prod.snd (hcn h hh))
  · exact .inl (.inr h)
  · exact .inr (congrArg (·.2.1) (hfn h hh))

/-- The scope inside a node is recorded after the step. -/
theorem inside_declareNode (hs : scope.Inside env) :
    (declareNode n scope env).1.Inside (declareNode n scope env).2 := by
  cases hc : n.flag Attr.classDeclaration with
  | true =>
    rw [declareNode_class hc]
    refine ⟨fun c hcs => ?_, nofun⟩
    cases hcs
    simp
  | false =>
    cases hf : n.flag Attr.functionDecl with
    | true =>
      have hbegins := begins_declareNode n scope env
      obtain ⟨new, heq, -⟩ := declareNode_function hc hf scope env
      rw [heq] at hbegins ⊢
      refine ⟨(hbegins.inside hs).class_lt, fun f hfs => ?_⟩
      cases hfs
      exact ⟨_, List.getElem?_concat_length, rfl⟩
    | false =>
      rw [(declareNode_transparent hc hf scope env).1]
      exact (begins_declareNode n scope env).inside hs

/-- The second walk enters the scope that recording a node has opened. -/
theorem enter_declareNode (hb : (declareNode n scope env).2.Begins final) (hid : n.id ∉ env.ids) :
    final.enter n scope = (declareNode n scope env).1 := by
  simp only [ids, List.mem_append, not_or] at hid
  cases hc : n.flag Attr.classDeclaration with
  | true =>
    rw [declareNode_class hc] at hb ⊢
    obtain ⟨after, hafter⟩ := hb.classes
    have hmap : final.classes.map (·.node) =
        env.classHeads.map (·.2) ++ n.id :: after.map (·.2) := by
      have := congrArg (List.map Prod.snd) hafter
      simpa [classHeads, Function.comp_def] using this.symm
    -- The number is new, so the first record of it is the one that is added here.
    have hfind := findIdx?_of_map hmap hid.1
    simp only [enter, hc, if_true, hfind]
    simp [classHeads]
  | false =>
    cases hf : n.flag Attr.functionDecl with
    | true =>
      obtain ⟨new, heq, -⟩ := declareNode_function hc hf scope env
      rw [heq] at hb ⊢
      obtain ⟨after, hafter⟩ := hb.functions
      have hmap : final.functions.map (·.node) =
          env.functionHeads.map (·.2.1) ++ n.id :: after.map (·.2.1) := by
        have := congrArg (List.map fun h => h.2.1) hafter
        simpa [functionHeads, Function.comp_def] using this.symm
      have hfind := findIdx?_of_map hmap hid.2
      simp only [enter, hc, hf, Bool.false_eq_true, if_false, if_true, hfind]
      simp [functionHeads]
    | false =>
      rw [(declareNode_transparent hc hf scope env).1]
      simp [enter, hc, hf]

/-! ### Runs -/

theorem declareTrees_eq (scope : Scope) (ts : List Tree) (env : Scopes) :
    declareTrees scope ts env = ts.foldl (fun env t => declareTree scope t env) env := by
  induction ts generalizing env with
  | nil => rfl
  | cons t ts ih => rw [declareTrees, ih, List.foldl_cons]

/-- Record what nodes declare, with all that is below them. -/
def declareAll (scope : Scope) (ns : List Node) (env : Scopes) : Scopes :=
  ns.foldl (fun env n => declareTree scope n.tree env) env

theorem declareTree_eq (scope : Scope) (n : Node) (env : Scopes) :
    declareTree scope n.tree env =
      declareAll (declareNode n scope env).1 n.children (declareNode n scope env).2 := by
  rw [Node.tree_eq, declareTree]
  exact (declareTrees_eq _ _ _).trans List.foldl_map

/-- Recording the nodes of a walk, one after the other, leads from some records to others; `final`
holds all of them.  The scope with a node is the one inside it. -/
inductive Run (final : Scopes) : Scopes → List (Node × Scope) → Scopes → Prop
  | nil (env : Scopes) : Run final env [] env
  | step {env env' : Scopes} {n : Node} {outer : Scope} {l : List (Node × Scope)}
      (hs : outer.Inside env) (hb : (declareNode n outer env).2.Begins final)
      (hl : Run final (declareNode n outer env).2 l env') :
      Run final env ((n, (declareNode n outer env).1) :: l) env'

theorem Run.append {env env' env'' : Scopes} {l l' : List (Node × Scope)}
    (h : Run final env l env') (h' : Run final env' l' env'') : Run final env (l ++ l') env'' := by
  induction h with
  | nil => exact h'
  | step hs hb _ ih => exact .step hs hb (ih h')

/-- What holds, along a run, of the nodes seen and the records if each step keeps it. -/
theorem Run.keeps_seen {env env' : Scopes} {l : List (Node × Scope)} (h : Run final env l env')
    (seen : List (Node × Scope)) {P : List (Node × Scope) → Scopes → Prop} (start : P seen env)
    (step : ∀ {seen n outer env}, (n, (declareNode n outer env).1) ∈ l → outer.Inside env →
      (declareNode n outer env).2.Begins final → P seen env →
      P (seen ++ [(n, (declareNode n outer env).1)]) (declareNode n outer env).2) :
    P (seen ++ l) env' := by
  induction h generalizing seen with
  | nil => rwa [List.append_nil]
  | step hs hb _ ih =>
    rw [List.append_cons]
    exact ih _ (step List.mem_cons_self hs hb start)
      fun hmem => step (List.mem_cons_of_mem _ hmem)

/-- What holds along a run if each step keeps it. -/
theorem Run.keeps {env env' : Scopes} {l : List (Node × Scope)} (h : Run final env l env')
    {P : Scopes → Prop} (start : P env)
    (step : ∀ {n outer env}, (n, (declareNode n outer env).1) ∈ l → outer.Inside env →
      (declareNode n outer env).2.Begins final → P env → P (declareNode n outer env).2) :
    P env' :=
  h.keeps_seen [] (P := fun _ => P) start step

/-- A relation that each step keeps to is kept to by recording a whole tree. -/
theorem declareTree_relates {R : Scopes → Scopes → Prop} (refl : ∀ e, R e e)
    (trans : ∀ {e e' e''}, R e e' → R e' e'' → R e e'') {n : Node}
    (step : ∀ m ∈ n.all, ∀ s e, R e (declareNode m s e).2) (scope : Scope) (env : Scopes) :
    R env (declareTree scope n.tree env) := by
  induction n using Node.induction_on_children generalizing scope env with
  | step n ih =>
    -- one child after the other
    have hall : ∀ cs : List Node, (∀ c ∈ cs, c ∈ n.children) → ∀ (s : Scope) (e : Scopes),
        R e (declareAll s cs e) := by
      intro cs hcs s
      induction cs with
      | nil => exact refl
      | cons c cs ihcs =>
        intro e
        rw [List.forall_mem_cons] at hcs
        have hc := ih c hcs.1 (fun m hm => step m (Node.mem_all_of_child hcs.1 hm)) s e
        exact trans hc (ihcs hcs.2 _)
    rw [declareTree_eq]
    exact trans (step n n.mem_all_self scope env) (hall _ (fun _ h => h) _ _)

theorem begins_declareTree (scope : Scope) (n : Node) (env : Scopes) :
    env.Begins (declareTree scope n.tree env) :=
  declareTree_relates .refl .trans (fun m _ => begins_declareNode m) scope env

theorem begins_declareAll (scope : Scope) (ns : List Node) (env : Scopes) :
    env.Begins (declareAll scope ns env) := by
  induction ns generalizing env with
  | nil => exact .refl env
  | cons n ns ih => exact (begins_declareTree scope n env).trans (ih _)

/-- Recording a tree adds at most the numbers of its nodes. -/
theorem mem_ids_declareTree {id : Nat} (h : id ∈ (declareTree scope n.tree env).ids) :
    id ∈ env.ids ∨ id ∈ n.all.map (·.id) := by
  refine declareTree_relates (n := n)
    (R := fun e e' => ∀ id ∈ e'.ids, id ∈ e.ids ∨ id ∈ n.all.map (·.id))
    (fun _ _ => .inl) (fun h h' id hid => ?_) (fun m hm s e id hid => ?_) scope env id h
  · rcases h' id hid with hid | hid
    · exact h id hid
    · exact .inr hid
  · rcases mem_ids_declareNode hid with hid | rfl
    · exact .inl hid
    · exact .inr (List.mem_map_of_mem hm)

/-- Recording a tree within the records `final`, none of its numbers being recorded before: what
holds of no children, goes on from a tree to those after it, and goes from the children of a node
up to it, holds of the tree. -/
theorem recording_induction {P : Scope → Node → Scopes → Prop}
    {Q : Scope → List Node → Scopes → Prop} (nil : ∀ {s e}, Q s [] e)
    (cons : ∀ {s c cs e}, P s c e → Q s cs (declareTree s c.tree e) → Q s (c :: cs) e)
    (node : ∀ {s n e}, s.Inside e → n.id ∉ e.ids → (declareNode n s e).2.Begins final →
      Q (declareNode n s e).1 n.children (declareNode n s e).2 → P s n e)
    (hn : n.Apart) (hfresh : ∀ m ∈ n.all, m.id ∉ env.ids)
    (hs : scope.Inside env) (hb : (declareTree scope n.tree env).Begins final) :
    P scope n env := by
  induction n using Node.induction_on_children generalizing scope env with
  | step n ih =>
    -- the nodes of a list of children, one tree after the other
    have hall : ∀ cs : List Node, (∀ c ∈ cs, c ∈ n.children) →
        ((cs.flatMap Node.all).map (·.id)).Nodup → ∀ {s : Scope} {e : Scopes},
        (∀ m ∈ cs.flatMap Node.all, m.id ∉ e.ids) → s.Inside e →
        (declareAll s cs e).Begins final → Q s cs e := by
      intro cs hcs hnodup s
      induction cs with
      | nil => exact fun _ _ _ => nil
      | cons c cs ihcs =>
        intro e hf hse hbe
        rw [List.forall_mem_cons] at hcs
        rw [List.flatMap_cons, List.map_append, List.nodup_append] at hnodup
        rw [List.flatMap_cons] at hf
        obtain ⟨hc, hrest, hdisjoint⟩ := hnodup
        have hfc : ∀ m ∈ c.all, m.id ∉ e.ids := fun m hm => hf m (List.mem_append_left _ hm)
        have hbegins : (declareTree s c.tree e).Begins (declareAll s (c :: cs) e) := by
          rw [declareAll, List.foldl_cons]
          exact begins_declareAll s cs _
        have hfrest : ∀ m ∈ cs.flatMap Node.all, m.id ∉ (declareTree s c.tree e).ids := by
          intro m hm hid
          rcases mem_ids_declareTree hid with hid | hid
          · exact hf m (List.mem_append_right _ hm) hid
          · exact hdisjoint _ hid _ (List.mem_map_of_mem hm) rfl
        exact cons (ih c hcs.1 hc hfc hse (hbegins.trans hbe))
          (ihcs hcs.2 hrest hfrest ((begins_declareTree s c e).inside hse) hbe)
    rw [Node.Apart, Node.all_eq, List.map_cons, List.nodup_cons] at hn
    rw [declareTree_eq] at hb
    refine node hs (hfresh n n.mem_all_self) ((begins_declareAll _ _ _).trans hb)
      (hall _ (fun _ h => h) hn.2 (fun m hm hid => ?_) (inside_declareNode hs) hb)
    have hmn : m ∈ n.all := by
      rw [Node.all_eq]
      exact List.mem_cons_of_mem _ hm
    rcases mem_ids_declareNode hid with hid | hid
    · exact hfresh m hmn hid
    · exact hn.1 (hid ▸ List.mem_map_of_mem hm)

/-- Recording runs along the second walk, if the records there have other numbers. -/
theorem run_declareTree (hn : n.Apart) (hfresh : ∀ m ∈ n.all, m.id ∉ env.ids)
    (hs : scope.Inside env) (hb : (declareTree scope n.tree env).Begins final) :
    Run final env (final.walk scope n) (declareTree scope n.tree env) := by
  refine recording_induction
    (P := fun s n e => Run final e (final.walk s n) (declareTree s n.tree e))
    (Q := fun s cs e => Run final e (cs.flatMap (final.walk s)) (declareAll s cs e))
    (.nil _) (fun hc hcs => hc.append hcs) (fun hs hid hb hcs => ?_) hn hfresh hs hb
  rw [declareTree_eq, walk_eq, enter_declareNode hb hid]
  exact .step hs hb hcs

/-- The records of a program come from a run along the second walk of it. -/
theorem run_ofNode {root : Node} (hn : root.Apart) :
    Run (ofNode root) {} ((ofNode root).walk {} root) (ofNode root) :=
  run_declareTree hn (fun _ _ => nofun) (Scope.inside_file _) (.refl _)

end Scopes

end TypeSketch
