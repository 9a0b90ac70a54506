import TypeSketch.Proofs.Inference.WritingBack

/-!
# Inference — soundness

When inference comes off on a program whose nodes are made and stand apart, what is known at the end
explains the program and the program that comes out carries it (`Inference.Sound`).  Literals and
comparisons keep the shapes they started with, paths that a rule equates agree, and declarations,
functions and arguments hold the shape of their path, which is the path that the rules spoke of.

A node may be asked to take a shape for one field once: the path is the one of the node in its
scope (`Faithful.asks_declaration` and the statements after it).

**Soundness** (`sound_of_run`). It is put together of three parts, each with a module of its own:
the board holds what the rules say of the program (`Faithful`), inference on such a board ends in
agreement (`Board.outcome`), and writing back gives each node the shape of its path and leaves all
else (`Board.writeBack_spec`).
-/

namespace TypeSketch

namespace Rule

variable {env : Scopes} {scope : Scope} {n : Node} {path : String} {c : Callback}

theorem Asked.of_inferredType (h : Asked env n scope path c) (hc : c.field = Attr.inferredType) :
    n.id = c.node ∧ path = (env.site n scope).path := by
  cases h with
  | declared => exact ⟨rfl, rfl⟩
  | function | argument => exact absurd (congrArg Field.key hc) (by dsimp only; decide)

theorem Asked.of_functionReturn (h : Asked env n scope path c)
    (hc : c.field = Attr.functionReturn) : n.id = c.node ∧ path = (env.site n scope).path := by
  cases h with
  | function => exact ⟨rfl, rfl⟩
  | declared | argument => exact absurd (congrArg Field.key hc) (by dsimp only; decide)

/-- The type of an argument is asked for by its function, under the path of the argument. -/
theorem Asked.of_argumentType (h : Asked env n scope path c) (hc : c.field = Attr.argumentType) :
    n.flag Attr.functionDecl = true ∧ ∃ a ∈ n.nodes Attr.arguments,
      a.id = c.node ∧ path = (env.site a scope).path := by
  cases h with
  | argument hn ha => exact ⟨hn, _, ha, rfl, rfl⟩
  | declared | function => exact absurd (congrArg Field.key hc) (by dsimp only; decide)

end Rule

namespace Inference

variable {root out n a : Node} {s : Scope} {b : Board}

/-! ### Who asks for the shape of a path -/

/-- One path gives its shape to a variable: that of the variable in its scope. -/
theorem Faithful.asks_declaration (h : Faithful root b) (apart : root.Apart)
    (hn : (n, s) ∈ (Scopes.ofNode root).walk {} root)
    (hd : n.flag Attr.variableDeclaration = true) (q : String) :
    Facts.Asks b.callbacks q ⟨n.id, Attr.inferredType⟩ ↔
      q = ((Scopes.ofNode root).site n s).path := by
  rw [h.asked]
  constructor
  · rintro ⟨n', s', hn', ha⟩
    obtain ⟨hid, hq⟩ := ha.of_inferredType rfl
    obtain ⟨rfl, rfl⟩ := Scopes.visit_unique apart hn' hn hid
    exact hq
  · rintro rfl
    exact ⟨n, s, hn, .declared hd⟩

/-- One path gives its shape to the return type of a function: that of the function in its scope. -/
theorem Faithful.asks_function (h : Faithful root b) (apart : root.Apart)
    (hn : (n, s) ∈ (Scopes.ofNode root).walk {} root) (hf : n.flag Attr.functionDecl = true)
    (q : String) :
    Facts.Asks b.callbacks q ⟨n.id, Attr.functionReturn⟩ ↔
      q = ((Scopes.ofNode root).site n s).path := by
  rw [h.asked]
  constructor
  · rintro ⟨n', s', hn', ha⟩
    obtain ⟨hid, hq⟩ := ha.of_functionReturn rfl
    obtain ⟨rfl, rfl⟩ := Scopes.visit_unique apart hn' hn hid
    exact hq
  · rintro rfl
    exact ⟨n, s, hn, .function hf⟩

theorem mem_children_of_argument (made : root.Made) {f : Node}
    (hf : (f, s) ∈ (Scopes.ofNode root).walk {} root) (hfun : f.flag Attr.functionDecl = true)
    (ha : a ∈ f.nodes Attr.arguments) : a ∈ f.children :=
  ((made.all f (Scopes.mem_all_of_walk hf)).function_spec hfun).2.subset ha

/-- One path gives its shape to an argument: that of the argument in the scope of the function. -/
theorem Faithful.asks_argument (h : Faithful root b) (made : root.Made) (apart : root.Apart)
    {f : Node} (hf : (f, s) ∈ (Scopes.ofNode root).walk {} root)
    (hfun : f.flag Attr.functionDecl = true) (ha : a ∈ f.nodes Attr.arguments) {name : String}
    (hname : a.str? Attr.argumentName = some name) (q : String) :
    Facts.Asks b.callbacks q ⟨a.id, Attr.argumentType⟩ ↔
      q = ((Scopes.ofNode root).site a s).path := by
  have hwalk := Scopes.mem_walk_of_child hf (mem_children_of_argument made hf hfun ha)
  have hin := ((made.all a (Scopes.mem_all_of_walk hwalk)).argument_spec hname).2
  rw [h.asked]
  constructor
  · rintro ⟨f', s', hf', hasked⟩
    obtain ⟨hfun', a', ha', hid, hq⟩ := hasked.of_argumentType rfl
    have hwalk' := Scopes.mem_walk_of_child hf' (mem_children_of_argument made hf' hfun' ha')
    -- an argument opens no scope, so its own scope is that of the function that lists it
    obtain ⟨rfl, hs⟩ := Scopes.visit_unique apart hwalk' hwalk hid
    rw [hin.enter_eq, hin.enter_eq] at hs
    rw [hq, hs]
  · rintro rfl
    exact ⟨f, s, hf, .argument hfun ha⟩

/-! ### Soundness -/

/-- What is known explains a program, and the program that comes out carries it. -/
structure Sound (root : Node) (known : Known) (out : Node) : Prop where
  literal : ∀ n s, (n, s) ∈ (Scopes.ofNode root).walk {} root → n.flag Attr.literal = true →
    ∃ shape t, n.shape? Attr.inferredType = some shape ∧ Facts.withoutSample shape = .ok t ∧
      known.lookup ((Scopes.ofNode root).site n s).path = some t.freeze
  comparison : ∀ n s, (n, s) ∈ (Scopes.ofNode root).walk {} root →
    ((n.str? Attr.operator).getD "") ∈ Rule.comparisons →
    (n.node? Attr.operatorLeft).isSome → (n.node? Attr.operatorRight).isSome →
      known.lookup ((Scopes.ofNode root).site n s).path = some Shape.bool
  equated : ∀ n s, (n, s) ∈ (Scopes.ofNode root).walk {} root →
    ∀ l m, Rule.Equated (.ofNode root) n s l m → known.Agree l m
  nodes : out.all.map (·.id) = root.all.map (·.id)
  declaration : ∀ n s, (n, s) ∈ (Scopes.ofNode root).walk {} root →
    n.flag Attr.variableDeclaration = true → ∀ m ∈ out.all, m.id = n.id →
      m.shape? Attr.inferredType = known.lookup ((Scopes.ofNode root).site n s).path
  function : ∀ n s, (n, s) ∈ (Scopes.ofNode root).walk {} root →
    n.flag Attr.functionDecl = true → ∀ m ∈ out.all, m.id = n.id →
      m.shape? Attr.functionReturn = known.lookup ((Scopes.ofNode root).site n s).path
  argument : ∀ f s, (f, s) ∈ (Scopes.ofNode root).walk {} root →
    f.flag Attr.functionDecl = true → ∀ a ∈ f.nodes Attr.arguments,
      ∀ name, a.str? Attr.argumentName = some name → ∀ m ∈ out.all, m.id = a.id →
        m.shape? Attr.argumentType =
          some ((known.lookup ((Scopes.ofNode root).site a s).path).getD Node.unknownShape)
  kept : ∀ n ∈ root.all, ∀ m ∈ out.all, m.id = n.id → ∀ key, (∀ f ∈ Attr.written, f.key ≠ key) →
    (∀ v, n.get? key = some v → v.childNodes = []) → m.get? key = n.get? key

/-- A node that comes out is the node of its number, with what was due to it. -/
theorem exists_assigned (made : root.Made) (apart : root.Apart)
    (hfields : ∀ path c, Facts.Asks b.callbacks path c → c.field ∈ Attr.written) {m : Node}
    (hn : n ∈ root.all) (hm : m ∈ (b.writeBack root).1.all) (hid : m.id = n.id) :
    ∃ n', Board.Assigned (b.dueAt n) n n' ∧ n'.Kept m := by
  obtain ⟨n₀, hn₀, n', hn', hkept⟩ :=
    exists_of_forall₂ (Board.writeBack_spec made hfields).1 m hm
  obtain rfl := apart.eq_of_id hn₀ hn (hn'.id_eq.symm.trans (hkept.id_eq.symm.trans hid))
  exact ⟨n', hn', hkept⟩

/-- Writing back leaves the nodes of a program where they are. -/
theorem map_id_writeBack (made : root.Made)
    (hfields : ∀ path c, Facts.Asks b.callbacks path c → c.field ∈ Attr.written) :
    (b.writeBack root).1.all.map (·.id) = root.all.map (·.id) := by
  have hids : List.Forall₂ (· = ·) (root.all.map (·.id)) ((b.writeBack root).1.all.map (·.id)) := by
    rw [List.forall₂_map_left_iff, List.forall₂_map_right_iff]
    exact (Board.writeBack_spec made hfields).1.imp fun _ _ ⟨_, hn', hkept⟩ =>
      (hkept.id_eq.trans hn'.id_eq).symm
  rw [List.forall₂_eq_eq_eq] at hids
  exact hids.symm

/-- A field that is asked to get the shape of one path, in the program that comes out. -/
theorem get?_writeBack (made : root.Made) (apart : root.Apart)
    (hfields : ∀ path c, Facts.Asks b.callbacks path c → c.field ∈ Attr.written) {f : Field}
    (hf : f ∈ Attr.written) {path : String}
    (hasks : ∀ q, Facts.Asks b.callbacks q ⟨n.id, f⟩ ↔ q = path) {m : Node} (hn : n ∈ root.all)
    (hm : m ∈ (b.writeBack root).1.all) (hid : m.id = n.id) :
    m.get? f.key = ((b.shape? path).map Shape.toValue).or (n.get? f.key) := by
  obtain ⟨n', hn', hkept⟩ := exists_assigned made apart hfields hn hm hid
  exact hn'.carries hkept (Board.writable_of_made (made.all n hn)) hf hfields hasks

theorem shape?_of_get? {r : Record Value} {f : Field} {x : Option Shape}
    (hf : f.absent? = none) (h : r.get? f.key = x.map Shape.toValue) : r.shape? f = x := by
  rw [Record.shape?, Record.field?, h, hf, Option.or_none]
  cases x <;> rfl

/-- Inference is sound on a board that is faithful to a program. -/
theorem Faithful.sound (made : root.Made) (apart : root.Apart) (h : Faithful root b)
    (hb : b.Succeeds) : Sound root b.infer.1.known (b.infer.1.writeBack root).1 := by
  have stated := h.stated made
  have outcome := Board.outcome stated
  have hext := outcome.extends stated
  -- inference adds no call-backs
  have hcallbacks : b.infer.1.callbacks = b.callbacks := rfl
  have hfields : ∀ path c, Facts.Asks b.infer.1.callbacks path c → c.field ∈ Attr.written :=
    fun path c hc => by
      obtain ⟨n, s, -, ha⟩ := (h.asked path c).mp hc
      exact ha.field_mem
  constructor
  case literal =>
    intro n s hn hl
    obtain ⟨shape, t, hshape, ht⟩ := h.sampled n s hn hl
    exact ⟨shape, t, hshape, ht, hext _ _ ((h.given _ _).mpr ⟨n, s, hn, .literal hl hshape ht⟩)⟩
  case comparison =>
    intro n s hn hop hl hr
    obtain ⟨left, hl⟩ := Option.isSome_iff_exists.mp hl
    obtain ⟨right, hr⟩ := Option.isSome_iff_exists.mp hr
    exact hext _ _ ((h.given _ _).mpr ⟨n, s, hn, .comparison hl hr hop⟩)
  case equated =>
    intro n s hn l m he
    exact outcome.agree hb _ (h.equated n s hn l m he) l m ⟨rfl, rfl, rfl⟩
  case nodes => exact map_id_writeBack made hfields
  case declaration =>
    intro n s hn hd m hm hid
    have hmem := Scopes.mem_all_of_walk hn
    have hget := get?_writeBack made apart hfields (by simp [Attr.written])
      (h.asks_declaration apart hn hd) hmem hm hid
    rw [(made.all n hmem).inferredType_of_declaration hd, Option.or_none] at hget
    exact shape?_of_get? rfl hget
  case function =>
    intro n s hn hf m hm hid
    have hmem := Scopes.mem_all_of_walk hn
    have hget := get?_writeBack made apart hfields (by simp [Attr.written])
      (h.asks_function apart hn hf) hmem hm hid
    rw [(made.all n hmem).functionReturn_of_function hf, Option.or_none] at hget
    exact shape?_of_get? rfl hget
  case argument =>
    intro f s hf hfun a ha name hname m hm hid
    have hmem := Scopes.mem_all_of_walk
      (Scopes.mem_walk_of_child hf (mem_children_of_argument made hf hfun ha))
    have hget := get?_writeBack made apart hfields (by simp [Attr.written])
      (h.asks_argument made apart hf hfun ha hname) hmem hm hid
    rw [(made.all a hmem).argumentType_of_argument hname] at hget
    refine shape?_of_get? rfl (hget.trans ?_)
    unfold Board.shape?
    cases b.infer.1.known.lookup ((Scopes.ofNode root).site a s).path <;> rfl
  case kept =>
    intro n hn m hm hid key hkey hplain
    obtain ⟨n', hn', hkept⟩ := exists_assigned made apart hfields hn hm hid
    exact hn'.keeps hkept hfields hkey hplain

/-- Inference is sound: the paths of a relation between paths of one shape agree, and what is known
explains the program and is carried by the program that comes out. -/
theorem sound_of_run {report : Report} (made : root.Made) (apart : root.Apart)
    (h : run Rule.standard root = .ok (out, report)) :
    ∃ b, boardOf Rule.standard root = .ok b ∧
      (∀ r ∈ b.relations, ∀ l m, r.Equates l m → b.infer.1.known.Agree l m) ∧
      Sound root b.infer.1.known out := by
  obtain ⟨b, hb, h⟩ := Except.bind_eq_ok.mp h
  obtain ⟨passes, hpasses, h⟩ := Except.bind_eq_ok.mp h
  obtain ⟨count, -, h⟩ := Except.bind_eq_ok.mp h
  cases h
  have faithful := faithful_boardOf made apart hb
  have comesOff : b.Succeeds := ⟨passes, hpasses⟩
  exact ⟨b, hb, (Board.outcome (faithful.stated made)).agree comesOff,
    faithful.sound made apart comesOff⟩

/-- The literal `1`. -/
def literalOne : Node :=
  (NodeForm.literal "1" (.int 1) ((Shape.i64.copy.adding Trait.fromJson.present).adding
    (Trait.rawValue.entry (.json (.int 1))))).node 0

/-- The comparison `x === a`. -/
def comparison : Node :=
  (NodeForm.binary "===" ((NodeForm.identifier "x").node 1)
    ((NodeForm.identifier "a").node 2)).node 3

/-- The body of a function that declares `x` as `1` and returns whether its argument is the same. -/
def comparingBody : Node :=
  (NodeForm.block [(NodeForm.declaration "x" (some literalOne)).node 4,
    (NodeForm.returning (some comparison)).node 5]).node 6

/-- The argument `a`. -/
def comparedArgument : Node := (NodeForm.argument "a" none).node 7

/-- The function `f(a)`. -/
def comparingFunction : Node :=
  (NodeForm.functionDeclaration "f" [comparedArgument] comparingBody false).node 8

/-- A program of one function. -/
def comparing : Node := (NodeForm.program [comparingFunction]).node 9

theorem made_comparingBody : comparingBody.Made := by
  have hone : literalOne.Made := @Node.Made.literal "1" (.int 1) _ ⟨⟨0, 0⟩, rfl⟩
  have hcomparison : comparison.Made :=
    .binary (.identifier ⟨⟨0, 1⟩, rfl⟩) (.identifier ⟨⟨0, 2⟩, rfl⟩) ⟨⟨0, 3⟩, rfl⟩
  refine @Node.Made.block [_, _] _ (fun c hc => ?_) ⟨⟨0, 6⟩, rfl⟩
  rcases List.mem_pair.mp hc with rfl | rfl
  · exact @Node.Made.declaration "x" (some literalOne) _ (by simpa using hone) ⟨⟨0, 4⟩, rfl⟩
  · exact @Node.Made.returning (some comparison) _ (by simpa using hcomparison) ⟨⟨0, 5⟩, rfl⟩

theorem made_comparing : comparing.Made := by
  have hargument : comparedArgument.Made := @Node.Made.argument "a" none _ nofun ⟨⟨0, 7⟩, rfl⟩
  have hfunction : comparingFunction.Made :=
    .functionDeclaration (List.forall_mem_singleton.mpr hargument) made_comparingBody
      ⟨⟨0, 8⟩, rfl⟩
  exact .program (List.forall_mem_singleton.mpr hfunction) ⟨⟨0, 9⟩, rfl⟩

theorem apart_comparing : comparing.Apart := by
  have hids : comparing.all.map (·.id) = [9, 8, 7, 6, 4, 0, 5, 3, 1, 2] := rfl
  rw [Node.Apart, hids]
  decide

/-- A function that compares its argument with a variable is inferred. -/
theorem sound_of_comparing : ∃ root out report, root.Made ∧ root.Apart ∧
    run Rule.standard root = .ok (out, report) ∧ ∃ b, boardOf Rule.standard root = .ok b ∧
      (∀ r ∈ b.relations, ∀ l m, r.Equates l m → b.infer.1.known.Agree l m) ∧
      Sound root b.infer.1.known out := by
  have hruns : (run Rule.standard comparing).toBool = true := by decide +kernel
  cases hrun : run Rule.standard comparing with
  | error e =>
    rw [hrun] at hruns
    cases hruns
  | ok result =>
    obtain ⟨out, report⟩ := result
    exact ⟨comparing, out, report, made_comparing, apart_comparing, hrun,
      sound_of_run made_comparing apart_comparing hrun⟩

end Inference

end TypeSketch
