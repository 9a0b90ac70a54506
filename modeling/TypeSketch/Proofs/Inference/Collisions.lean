import TypeSketch.Proofs.Inference.Declaring
import TypeSketch.Proofs.Inference.Sites
import TypeSketch.Proofs.Table

/-!
# Inference — paths of declarations

A variable or an argument goes by the names of the class and the function around it and its own
name, joined with dots (`Records.path_eq`).  The path says no more: names are not escaped, only the
innermost function counts, and a class and a function of one name look alike
(`not_paths_injective`).  Where names hold no dot, the path tells them, and where they also tell
classes and functions apart, it tells the class, the function and the name (`path_eq_iff`).

The records are followed through the recording of declarations by an invariant (`Recorded`) with one
lemma a kind of node. What a path tells is then a fact about texts: names are joined with a dot and
hold none, so the path is taken apart into them (`Dotless.pathOf_inj`), and the names are led back
to the records that bear them (`Distinct.names_inj`).
-/

namespace TypeSketch

namespace Scopes

/-- A variable or an argument that is recorded, in the scope it is declared in. -/
inductive Records (env : Scopes) (visited : List (Node × Scope)) : Scope → String → Site → Prop
  | inFunction {f : Nat} {r : FunctionScope} {name : String} {site : Site}
      (hf : env.functions[f]? = some r) (h : (name, site) ∈ r.locals ++ r.arguments) :
      Records env visited ⟨r.class?, some f⟩ name site
  | outside {n : Node} {scope : Scope} {name : String} {site : Site}
      (h : (name, site) ∈ env.globals) (hv : (n, scope) ∈ visited) (hid : n.id = site.node) :
      Records env visited scope name site

/-! ### What is recorded -/

/-- What is recorded goes by its path among all records, `final`, of a walk. -/
structure Recorded (final : Scopes) (visited : List (Node × Scope)) (env : Scopes) : Prop where
  inFunction : ∀ (f : Nat) (r : FunctionScope), env.functions[f]? = some r →
    ∀ e ∈ r.locals ++ r.arguments, e.2.path = final.pathOf ⟨r.class?, some f⟩ e.1
  class_lt : ∀ (f : Nat) (r : FunctionScope), env.functions[f]? = some r →
    ∀ c, r.class? = some c → c < env.classes.length
  outside : ∀ e ∈ env.globals, ∃ n s, (n, s) ∈ visited ∧ n.id = e.2.node ∧ s.function? = none ∧
    s.Inside final ∧ e.2.path = final.pathOf s e.1

variable {n : Node} {scope : Scope} {env final : Scopes} {visited : List (Node × Scope)}

theorem Begins.pathOf_eq (h : env.Begins final) (hs : scope.Inside env) (name : String) :
    final.pathOf scope name = env.pathOf scope name := by
  rw [pathOf, pathOf, h.names_eq hs]

/-- A class records no variable and no argument. -/
theorem Recorded.class (h : Recorded final visited env)
    (hc : n.flag Attr.classDeclaration = true) :
    Recorded final visited (declareNode n scope env).2 := by
  have hle := (begins_declareNode n scope env).length_classes_le
  rw [declareNode_class hc] at hle ⊢
  exact ⟨h.inFunction, fun f r hr c hcr => Nat.lt_of_lt_of_le (h.class_lt f r hr c hcr) hle,
    h.outside⟩

/-- A function records its arguments under their paths. -/
theorem Recorded.function (h : Recorded final visited env) (hn : n.Made)
    (hf : n.flag Attr.functionDecl = true) (hs : scope.Inside env)
    (hb : (declareNode n scope env).2.Begins final) :
    Recorded final visited (declareNode n scope env).2 := by
  obtain ⟨hc, hargs⟩ := hn.function_spec hf
  have hinside := inside_declareNode (n := n) hs
  have hle := (begins_declareNode n scope env).length_classes_le
  obtain ⟨new, heq, hnew⟩ := declareNode_function hc hf scope env
  -- arguments get their sites while the step is under way, when its heads are there already
  have hpath : ∀ e ∈ new, e.2.path = final.pathOf (declareNode n scope env).1 e.1 := by
    intro e he
    obtain ⟨a, ha, hname, env₁, hc₁, hf₁, hsite⟩ := exists_of_forall₂ hnew e he
    have hmade := hn.children a (hargs.subset (List.mem_filter.mp ha).1)
    rw [hsite, (hmade.argument_spec hname).1.site_eq, hb.pathOf_eq hinside,
      (Begins.of_eq hc₁ hf₁).pathOf_eq hinside]
  rw [heq] at hpath hle ⊢
  refine ⟨fun f r hr e he => ?_, fun f r hr c hcr => ?_, h.outside⟩
  · rcases eq_of_getElem?_concat hr with hr | ⟨rfl, rfl⟩
    · exact h.inFunction f r hr e he
    · exact hpath e he
  · refine Nat.lt_of_lt_of_le ?_ hle
    rcases eq_of_getElem?_concat hr with hr | ⟨rfl, rfl⟩
    · exact h.class_lt f r hr c hcr
    · exact hs.class_lt c hcr

/-- A variable is recorded under its path, in the function around it or outside all of them. -/
theorem Recorded.variable (h : Recorded final visited env) (hn : n.Made)
    (hv : n.flag Attr.variableDeclaration = true) (hs : scope.Inside env)
    (hmem : (n, (declareNode n scope env).1) ∈ visited)
    (hb : (declareNode n scope env).2.Begins final) :
    Recorded final visited (declareNode n scope env).2 := by
  obtain ⟨name, hname, hnamed, ht⟩ := hn.declaration_spec hv
  have hbegins : env.Begins final := (begins_declareNode n scope env).trans hb
  have hpath : (env.site n scope).path = final.pathOf scope name := by
    rw [hnamed.site_eq, hbegins.pathOf_eq hs]
  rw [(declareNode_transparent ht.notClass ht.notFunction scope env).1] at hmem
  rw [declareNode_variable ht.notClass ht.notFunction hv, hname]
  -- The entry goes to the globals, or to the function around; the other records are as they were.
  cases hfun : scope.function? with
  | none =>
    refine ⟨h.inFunction, h.class_lt, fun e he => ?_⟩
    rcases List.mem_append.mp he with he | he
    · exact h.outside e he
    · cases List.mem_singleton.mp he
      exact ⟨n, scope, hmem, by rw [hnamed.site_eq], hfun, hbegins.inside hs, hpath⟩
  | some f =>
    obtain ⟨r₀, hr₀, hclass⟩ := hs.function_of f hfun
    have hscope : scope = ⟨r₀.class?, some f⟩ := by rw [hclass, ← hfun]
    refine ⟨fun g r hr e he => ?_, fun g r hr c hcr => ?_, h.outside⟩
    all_goals
      simp only [List.getElem?_modify] at hr
      split at hr
    · next hfg =>
      subst hfg
      rw [hr₀] at hr
      cases hr
      simp only [List.append_assoc, List.mem_append] at he
      rcases he with he | he | he
      · exact h.inFunction f r₀ hr₀ e (List.mem_append_left _ he)
      · cases List.mem_singleton.mp he
        rw [hpath, hscope]
        rfl
      · exact h.inFunction f r₀ hr₀ e (List.mem_append_right _ he)
    · exact h.inFunction g r (by simpa using hr) e he
    · next hfg =>
      subst hfg
      rw [hr₀] at hr
      cases hr
      exact h.class_lt f r₀ hr₀ c hcr
    · exact h.class_lt g r (by simpa using hr) c hcr

/-- Any other node records no variable and no argument. -/
theorem Recorded.other (h : Recorded final visited env) (ht : n.Transparent)
    (hv : n.flag Attr.variableDeclaration = false) :
    Recorded final visited (declareNode n scope env).2 := by
  simp only [declareNode, ht.notClass, ht.notFunction, hv, Bool.false_eq_true, if_false]
  split
  · refine ⟨h.inFunction, fun f r hr c hcr => ?_, h.outside⟩
    simpa using h.class_lt f r hr c hcr
  · exact h

/-- All that a program records goes by its path. -/
theorem recorded_ofNode {root : Node} (made : root.Made) (apart : root.Apart) :
    Recorded (ofNode root) ((ofNode root).walk {} root) (ofNode root) := by
  refine (run_ofNode apart).keeps (P := Recorded _ _) ⟨nofun, nofun, nofun⟩
    fun {n outer env} hmem hs hb h => ?_
  have hn := made.all n (mem_all_of_walk hmem)
  cases hc : n.flag Attr.classDeclaration with
  | true => exact h.class hc
  | false =>
    cases hf : n.flag Attr.functionDecl with
    | true => exact h.function hn hf hs hb
    | false =>
      cases hv : n.flag Attr.variableDeclaration with
      | true => exact h.variable hn hv hs hmem hb
      | false => exact h.other ⟨hc, hf⟩ hv

/-! ### Paths of records -/

section Program

variable {root : Node} {s s' : Scope} {name name' : String} {site site' : Site}

/-- A record goes by the names around it and its own, and its scope is recorded. -/
theorem Records.path_eq (made : root.Made) (apart : root.Apart)
    (h : Records (ofNode root) ((ofNode root).walk {} root) s name site) :
    site.path = (ofNode root).pathOf s name ∧ s.Inside (ofNode root) := by
  have hrec := recorded_ofNode made apart
  cases h with
  | inFunction hf h =>
    exact ⟨hrec.inFunction _ _ hf _ h, hrec.class_lt _ _ hf, fun g hg => by
      cases hg
      exact ⟨_, hf, rfl⟩⟩
  | outside h hv hid =>
    obtain ⟨n', s', hv', hid', -, hinside, hpath⟩ := hrec.outside _ h
    obtain ⟨-, rfl⟩ := visit_unique apart hv hv' (hid.trans hid'.symm)
    exact ⟨hpath, hinside⟩

/-- No name of a class or a function holds a dot. -/
structure Dotless (env : Scopes) : Prop where
  classes : ∀ r ∈ env.classes, '.' ∉ r.name.toList
  functions : ∀ r ∈ env.functions, '.' ∉ r.name.toList

/-- Names tell classes, the functions of one class, and classes from functions outside classes. -/
structure Distinct (env : Scopes) : Prop where
  classes : (env.classes.map (·.name)).Nodup
  functions : ∀ (f g : Nat) (r r' : FunctionScope), env.functions[f]? = some r →
    env.functions[g]? = some r' → r.class? = r'.class? → r.name = r'.name → f = g
  apart : ∀ r ∈ env.classes, ∀ r' ∈ env.functions, r'.class? = none → r.name ≠ r'.name

/-- The names around a scope hold no dot. -/
theorem Dotless.names {env : Scopes} (hd : env.Dotless) (s : Scope) :
    ∀ t ∈ env.names s, '.' ∉ t.toList := by
  intro t ht
  simp only [Scopes.names, List.mem_append, Option.mem_toList, Option.map_eq_some_iff,
    Option.bind_eq_some_iff] at ht
  rcases ht with ⟨r, ⟨c, -, hr⟩, rfl⟩ | ⟨r, ⟨f, -, hr⟩, rfl⟩
  · exact hd.classes r (List.mem_of_getElem? hr)
  · exact hd.functions r (List.mem_of_getElem? hr)

/-- Where names hold no dot, a path tells them. -/
theorem Dotless.pathOf_inj {env : Scopes} (hd : env.Dotless) (hn : '.' ∉ name.toList)
    (hn' : '.' ∉ name'.toList) (h : env.pathOf s name = env.pathOf s' name') :
    env.names s = env.names s' ∧ name = name' := by
  have hparts : ∀ (s : Scope) (name : String), '.' ∉ name.toList →
      ∀ t ∈ env.names s ++ [name], '.' ∉ t.toList := by
    intro s name hn t ht
    rcases List.mem_append.mp ht with ht | ht
    · exact hd.names s t ht
    · exact List.mem_singleton.mp ht ▸ hn
  have hlist := Text.joinWith_injective (by simp) (by simp) (hparts s name hn)
    (hparts s' name' hn') h
  obtain ⟨hnames, hname⟩ := List.append_inj' hlist rfl
  exact ⟨hnames, List.singleton_inj.mp hname⟩

theorem Distinct.class_inj {env : Scopes} (hd : env.Distinct) {c c' : Nat} {r r' : ClassScope}
    (hr : env.classes[c]? = some r) (hr' : env.classes[c']? = some r') (h : r.name = r'.name) :
    c = c' := by
  have hlt := (List.getElem?_eq_some_iff.mp hr).1
  exact (List.getElem?_inj (by simpa using hlt) hd.classes).mp (by simp [hr, hr', h])

theorem toList_injective {α : Type} {x y : Option α} (h : x.toList = y.toList) : x = y := by
  cases x <;> cases y <;> simp_all

/-- The name of the class around a scope, if there is one. -/
def className? (env : Scopes) (s : Scope) : Option String :=
  (s.class?.bind fun c => env.classes[c]?).map (·.name)

theorem names_of_function {env : Scopes} {f : Nat} {r : FunctionScope}
    (hf : s.function? = some f) (hr : env.functions[f]? = some r) :
    env.names s = (env.className? s).toList ++ [r.name] := by
  simp [names, className?, hf, hr]

theorem names_of_no_function {env : Scopes} (hf : s.function? = none) :
    env.names s = (env.className? s).toList := by
  simp [names, className?, hf]

/-- Scopes in classes of one name are in one class. -/
theorem Distinct.class?_inj {env : Scopes} (hd : env.Distinct) (hs : s.Inside env)
    (hs' : s'.Inside env) (h : env.className? s = env.className? s') : s.class? = s'.class? := by
  cases hc : s.class? with
  | none =>
    cases hc' : s'.class? with
    | none => rfl
    | some c' => simp [className?, hc, hc', List.getElem?_eq_getElem (hs'.class_lt c' hc')] at h
  | some c =>
    have hr := List.getElem?_eq_getElem (hs.class_lt c hc)
    cases hc' : s'.class? with
    | none => simp [className?, hc, hc', hr] at h
    | some c' =>
      have hr' := List.getElem?_eq_getElem (hs'.class_lt c' hc')
      simp only [className?, hc, hc', hr, hr', Option.bind_some, Option.map_some,
        Option.some.injEq] at h
      rw [hd.class_inj hr hr' h]

/-- The name of a class is not that of a function outside classes. -/
theorem Distinct.names_ne {env : Scopes} (hd : env.Distinct) (hs' : s'.Inside env)
    (hf : s.function? = none) {f : Nat} (hf' : s'.function? = some f) :
    env.names s ≠ env.names s' := by
  obtain ⟨r, hr, hclass⟩ := hs'.function_of f hf'
  rw [names_of_no_function hf, names_of_function hf' hr]
  intro h
  cases hn' : env.className? s' with
  | some t => cases hn : env.className? s <;> simp [hn, hn'] at h
  | none =>
    cases hn : env.className? s with
    | none => simp [hn, hn'] at h
    | some t =>
      simp only [hn, hn', Option.toList_some, Option.toList_none, List.nil_append,
        List.cons.injEq, and_true] at h
      have hnone : s'.class? = none := by
        cases hc' : s'.class? with
        | none => rfl
        | some c' =>
          simp [className?, hc', List.getElem?_eq_getElem (hs'.class_lt c' hc')] at hn'
      obtain ⟨r', hr', rfl⟩ := Option.map_eq_some_iff.mp hn
      obtain ⟨c, -, hr'⟩ := Option.bind_eq_some_iff.mp hr'
      exact hd.apart r' (List.mem_of_getElem? hr') r (List.mem_of_getElem? hr)
        (hclass.trans hnone) h

/-- Where names tell classes and functions, the names of a scope tell the scope. -/
theorem Distinct.names_inj {env : Scopes} (hd : env.Distinct) (hs : s.Inside env)
    (hs' : s'.Inside env) (h : env.names s = env.names s') : s = s' := by
  obtain ⟨class?, function?⟩ := s
  obtain ⟨class?', function?'⟩ := s'
  cases function? with
  | none =>
    cases function?' with
    | none =>
      rw [names_of_no_function rfl, names_of_no_function rfl] at h
      obtain rfl : class? = class?' := hd.class?_inj hs hs' (toList_injective h)
      rfl
    | some f => exact absurd h (hd.names_ne hs' rfl rfl)
  | some f =>
    cases function?' with
    | none => exact absurd h.symm (hd.names_ne hs rfl rfl)
    | some f' =>
      obtain ⟨r, hr, hclass⟩ := hs.function_of f rfl
      obtain ⟨r', hr', hclass'⟩ := hs'.function_of f' rfl
      rw [names_of_function rfl hr, names_of_function rfl hr'] at h
      obtain ⟨hclasses, hname⟩ := List.append_inj' h rfl
      obtain rfl : class? = class?' := hd.class?_inj hs hs' (toList_injective hclasses)
      obtain rfl := hd.functions f f' r r' hr hr' (hclass.trans hclass'.symm)
        (List.singleton_inj.mp hname)
      rfl

/-- Two records go by one path exactly if the names around them and their own, joined, are the same.
Where no name holds a dot, the names themselves are; and where names tell classes and functions, the
records are in one class and one function. -/
theorem path_eq_iff (made : root.Made) (apart : root.Apart)
    (h : Records (ofNode root) ((ofNode root).walk {} root) s name site)
    (h' : Records (ofNode root) ((ofNode root).walk {} root) s' name' site') :
    (site.path = site'.path ↔ (ofNode root).pathOf s name = (ofNode root).pathOf s' name') ∧
      ((ofNode root).Dotless → '.' ∉ name.toList → '.' ∉ name'.toList → site.path = site'.path →
        (ofNode root).names s = (ofNode root).names s' ∧ name = name' ∧
          ((ofNode root).Distinct → s = s')) := by
  obtain ⟨hpath, hs⟩ := h.path_eq made apart
  obtain ⟨hpath', hs'⟩ := h'.path_eq made apart
  rw [hpath, hpath']
  refine ⟨Iff.rfl, fun hd hn hn' heq => ?_⟩
  obtain ⟨hnames, hname⟩ := hd.pathOf_inj hn hn' heq
  exact ⟨hnames, hname, fun hdist => hdist.names_inj hs hs' hnames⟩

end Program

/-! ### Functions of one name -/

deriving instance DecidableEq for Site, FunctionScope, ClassScope, Scopes

/-- A function with an argument `x`. -/
def withArgument (name : String) (id : Nat) : Node :=
  let x := (NodeForm.argument "x" none).node id
  (NodeForm.functionDeclaration name [x] ((NodeForm.block []).node (id + 1)) false).node (id + 2)

/-- A program of two functions with an argument `x` each. -/
def twoFunctions (f g : String) : Node :=
  (NodeForm.program [withArgument f 0, withArgument g 3]).node 6

theorem made_withArgument (name : String) (id : Nat) : (withArgument name id).Made := by
  have hx : Node.Made ((NodeForm.argument "x" none).node id) :=
    @Node.Made.argument "x" none _ nofun ⟨⟨0, id⟩, rfl⟩
  have hempty : Node.Made ((NodeForm.block []).node (id + 1)) :=
    @Node.Made.block [] _ nofun ⟨⟨0, id + 1⟩, rfl⟩
  exact .functionDeclaration (List.forall_mem_singleton.mpr hx) hempty ⟨⟨0, id + 2⟩, rfl⟩

theorem made_twoFunctions (f g : String) : (twoFunctions f g).Made := by
  refine @Node.Made.program [withArgument f 0, withArgument g 3] _ (fun c hc => ?_)
    ⟨⟨0, 6⟩, rfl⟩
  rcases List.mem_pair.mp hc with rfl | rfl
  · exact made_withArgument ..
  · exact made_withArgument ..

theorem apart_twoFunctions (f g : String) : (twoFunctions f g).Apart := by
  have hids : (twoFunctions f g).all.map (·.id) = [6, 2, 0, 1, 5, 3, 4] := rfl
  rw [Node.Apart, hids]
  decide

theorem records_argument {env : Scopes} {visited : List (Node × Scope)} {f id : Nat}
    {name argument : String} {site : Site}
    (h : env.functions[f]? = some ⟨name, id, none, [(argument, site)], []⟩) :
    Records env visited ⟨none, some f⟩ argument site :=
  .inFunction h (List.mem_singleton.mpr rfl)

/-- Arguments of one name go by one path in functions of one name. -/
theorem not_paths_injective :
    ¬ ∀ root : Node, root.Made → root.Apart → ∀ s s' name name' site site',
      Records (ofNode root) ((ofNode root).walk {} root) s name site →
      Records (ofNode root) ((ofNode root).walk {} root) s' name' site' →
      site.path = site'.path → s = s' ∧ name = name' := by
  intro hall
  have henv : ofNode (twoFunctions "f" "f") = ⟨[], [⟨"f", 2, none, [("x", ⟨"f.x", 0⟩)], []⟩,
      ⟨"f", 5, none, [("x", ⟨"f.x", 3⟩)], []⟩], []⟩ := by decide +kernel
  have hall := hall _ (made_twoFunctions "f" "f") (apart_twoFunctions "f" "f")
  rw [henv] at hall
  have hs := (hall ⟨none, some 0⟩ ⟨none, some 1⟩ "x" "x" ⟨"f.x", 0⟩ ⟨"f.x", 3⟩
    (records_argument rfl) (records_argument rfl) rfl).1
  cases hs

/-- Arguments of one name go by two paths in functions of two names. -/
theorem path_ne_of_twoFunctions :
    ∃ root : Node, root.Made ∧ root.Apart ∧ ∃ s s' site site',
      Records (ofNode root) ((ofNode root).walk {} root) s "x" site ∧
      Records (ofNode root) ((ofNode root).walk {} root) s' "x" site' ∧ site.path ≠ site'.path := by
  have henv : ofNode (twoFunctions "f" "g") = ⟨[], [⟨"f", 2, none, [("x", ⟨"f.x", 0⟩)], []⟩,
      ⟨"g", 5, none, [("x", ⟨"g.x", 3⟩)], []⟩], []⟩ := by decide +kernel
  have hdotless : (ofNode (twoFunctions "f" "g")).Dotless := by
    rw [henv]
    exact ⟨nofun, by decide⟩
  have hdistinct : (ofNode (twoFunctions "f" "g")).Distinct := by
    rw [henv]
    refine ⟨List.nodup_nil, fun i j r r' hr hr' _ hname => ?_, nofun⟩
    match i, j, hr, hr' with
    | 0, 0, _, _ | 1, 1, _, _ => rfl
    | 0, 1, rfl, rfl | 1, 0, rfl, rfl => exact absurd hname (by decide)
  have made := made_twoFunctions "f" "g"
  have apart := apart_twoFunctions "f" "g"
  have h : Records (ofNode (twoFunctions "f" "g"))
      ((ofNode (twoFunctions "f" "g")).walk {} (twoFunctions "f" "g"))
      ⟨none, some 0⟩ "x" ⟨"f.x", 0⟩ := by
    rw [henv]
    exact records_argument rfl
  have h' : Records (ofNode (twoFunctions "f" "g"))
      ((ofNode (twoFunctions "f" "g")).walk {} (twoFunctions "f" "g"))
      ⟨none, some 1⟩ "x" ⟨"g.x", 3⟩ := by
    rw [henv]
    exact records_argument rfl
  refine ⟨_, made, apart, _, _, _, _, h, h', fun heq => ?_⟩
  have hs := ((path_eq_iff made apart h h').2 hdotless (by decide) (by decide) heq).2.2 hdistinct
  cases hs

end Scopes

end TypeSketch
