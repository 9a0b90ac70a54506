import TypeSketch.Inference.Rules
import TypeSketch.Proofs.Inference.Attempts

/-!
# Inference — what the rules say

What the standard rules say of a node in its scope, rule by rule, and then of all of them together:
which paths have one shape (`Rule.Equated`), which paths have a shape from the start
(`Rule.Given`), and where the shape of a path goes (`Rule.Asked`).  There is a reason for whatever
they say (`reasoned_of_standard`), and whatever there is a reason for they say (`Equated.stated`,
`Given.stated`, `Asked.stated`).

The first half reads each rule off its definition: `variableDeclaration_facts` and the statements
after it say which relations, shapes and callbacks the rule hands back for a node that it accepts.
No later module opens a rule again. The second half turns these into the three relations between a
node, its scope and paths, once in each direction, so that a new rule is a new case of `Equated`,
`Given` or `Asked` and two lemmas.
-/

namespace TypeSketch

namespace Facts

/-- The shape of a path goes to a node. -/
def Asks (callbacks : List (String × List Callback)) (path : String) (c : Callback) : Prop :=
  ∃ cs, (path, cs) ∈ callbacks ∧ c ∈ cs

/-- Adding callbacks to a path makes it ask for these, and leaves what other paths ask for. -/
theorem asks_addTo {p q : String} {cs : List Callback} {t : List (String × List Callback)}
    {c : Callback} : Asks (addTo p cs t) q c ↔ Asks t q c ∨ q = p ∧ c ∈ cs := by
  unfold addTo
  constructor
  · rintro ⟨ds, hds, hc⟩
    rcases Assoc.mem_of_mem_put hds with he | hds
    · obtain ⟨rfl, rfl⟩ := Prod.mk.inj he
      rcases List.mem_append.mp hc with hc | hc
      · cases hq : t.lookup q with
        | none => rw [hq] at hc; cases hc
        | some es =>
          rw [hq] at hc
          exact .inl ⟨es, Assoc.mem_of_lookup hq, hc⟩
      · exact .inr ⟨rfl, hc⟩
    · exact .inl ⟨ds, hds, hc⟩
  -- an entry that is written over is the one the new one begins with
  · rintro (⟨ds, hds, hc⟩ | ⟨rfl, hc⟩)
    · rcases Assoc.mem_put_of_mem p ((t.lookup p).getD [] ++ cs) hds with hds | ⟨rfl, hq⟩
      · exact ⟨ds, hds, hc⟩
      · exact ⟨_, Assoc.mem_put_self .., List.mem_append_left _ (by rwa [hq])⟩
    · exact ⟨_, Assoc.mem_put_self .., List.mem_append_right _ hc⟩

variable {facts : Facts} {left right site : Site} {r : Relation} {path : String} {c : Callback}

@[simp] theorem relations_addNode : (facts.addNode site).relations = facts.relations := rfl
@[simp] theorem known_addNode : (facts.addNode site).known = facts.known := rfl
@[simp] theorem callbacks_addNode : (facts.addNode site).callbacks = facts.callbacks := rfl

@[simp] theorem relations_relate : (facts.relate r).relations = facts.relations ++ [r] := rfl
@[simp] theorem known_relate : (facts.relate r).known = facts.known := rfl
@[simp] theorem callbacks_relate : (facts.relate r).callbacks = facts.callbacks := rfl

@[simp] theorem relations_equate : (facts.equate left right).relations =
    facts.relations ++ [.equal left.path right.path] := rfl
@[simp] theorem known_equate : (facts.equate left right).known = facts.known := rfl
@[simp] theorem callbacks_equate : (facts.equate left right).callbacks = facts.callbacks := rfl

@[simp] theorem relations_callBack : (facts.callBack path c).relations = facts.relations := rfl
@[simp] theorem known_callBack : (facts.callBack path c).known = facts.known := rfl

@[simp] theorem asks_callBack {q : String} {d : Callback} :
    Asks (facts.callBack path c).callbacks q d ↔ Asks facts.callbacks q d ∨ q = path ∧ d = c := by
  rw [callBack, asks_addTo, List.mem_singleton]

@[simp] theorem not_asks_nil {q : String} {d : Callback} : ¬ Asks [] q d := by
  rintro ⟨cs, hcs, -⟩
  cases hcs

/-- A path is given a shape without the sample, and frozen. -/
theorem know_eq_ok {s : Shape} {facts' : Facts} (h : facts.know path s = .ok facts') :
    ∃ t, withoutSample s = .ok t ∧
      facts' = { facts with known := Assoc.put path t.freeze facts.known } := by
  obtain ⟨t, ht, h⟩ := Except.bind_eq_ok.mp h
  cases h
  exact ⟨t, ht, rfl⟩

end Facts

namespace Rule

variable {env : Scopes} {scope : Scope} {n : Node} {facts : Facts}

/-! ### One rule at a time -/

/-- A variable has the shape of what it starts with, and takes the shape of its path. -/
theorem variableDeclaration_facts (h : variableDeclaration.facts env scope n = .ok facts) :
    facts.relations = ((n.node? Attr.defaultValue).toList.map fun init =>
        .equal (env.site n scope).path (env.site init scope).path) ∧
      facts.known = [] ∧
      ∀ q c, Facts.Asks facts.callbacks q c ↔
        q = (env.site n scope).path ∧ c = ⟨n.id, Attr.inferredType⟩ := by
  simp only [variableDeclaration] at h
  split at h
  all_goals
    next hinit =>
    cases h
    refine ⟨by simp [hinit], rfl, fun q c => ?_⟩
    simp

/-- The sides of an assignment have one shape. -/
theorem assignExpression_facts (h : assignExpression.facts env scope n = .ok facts) :
    (∀ left right, n.node? Attr.assignExpressionLeft = some left →
        n.node? Attr.assignExpressionRight = some right →
        facts.relations = [.equal (env.site left scope).path (env.site right scope).path]) ∧
      (∀ r ∈ facts.relations, ∃ l m, r = .equal l m) ∧ facts.known = [] ∧
      facts.callbacks = [] := by
  simp only [assignExpression] at h
  split at h
  · next left right hl hr =>
    cases h
    refine ⟨fun left' right' hl' hr' => ?_, by simp, rfl, rfl⟩
    cases hl.symm.trans hl'
    cases hr.symm.trans hr'
    simp
  · next hnot =>
    cases h
    exact ⟨fun left right hl hr => absurd hr (hnot left right hl), nofun, rfl, rfl⟩

/-- A return has the shape of its value. -/
theorem returning_facts {value : Node} (hv : n.node? Attr.returned = some value)
    (h : returning.facts env scope n = .ok facts) :
    facts.relations = [.equal (env.site n scope).path (env.site value scope).path] ∧
      facts.known = [] ∧ facts.callbacks = [] := by
  simp only [returning, hv] at h
  cases h
  exact ⟨rfl, rfl, rfl⟩

/-- Each argument takes the shape of its path, and is in no relation. -/
theorem foldl_arguments (env : Scopes) (scope : Scope) (as : List Node) (facts : Facts) :
    let result := as.foldl (fun (facts : Facts) a =>
      (facts.addNode (env.site a scope)).callBack (env.site a scope).path
        ⟨a.id, Attr.argumentType⟩) facts
    result.relations = facts.relations ∧ result.known = facts.known ∧
      ∀ q c, Facts.Asks result.callbacks q c ↔ Facts.Asks facts.callbacks q c ∨
        ∃ a ∈ as, q = (env.site a scope).path ∧ c = ⟨a.id, Attr.argumentType⟩ := by
  induction as generalizing facts with
  | nil => simp
  | cons a as ih =>
    obtain ⟨hr, hk, ha⟩ := ih ((facts.addNode (env.site a scope)).callBack
      (env.site a scope).path ⟨a.id, Attr.argumentType⟩)
    refine ⟨hr, hk, fun q c => (ha q c).trans ?_⟩
    simp [or_assoc]

/-- Each return is related to the body, in order. -/
theorem foldl_returns (env : Scopes) (scope : Scope) (body : Site) (rs : List Node)
    (facts : Facts) :
    let result := rs.foldl (fun (facts : Facts) r => facts.equate body (env.site r scope)) facts
    result.relations =
        facts.relations ++ rs.map (fun r => .equal body.path (env.site r scope).path) ∧
      result.known = facts.known ∧ result.callbacks = facts.callbacks := by
  induction rs generalizing facts with
  | nil => simp
  | cons r rs ih =>
    obtain ⟨hr, hk, hc⟩ := ih (facts.equate body (env.site r scope))
    refine ⟨hr.trans ?_, hk, hc⟩
    simp

/-- A function has the shape of its body, and the body that of each return in it; the function and
its arguments take the shapes of their paths. -/
theorem functionDeclaration_facts (h : functionDeclaration.facts env scope n = .ok facts) :
    (facts.relations = (n.node? Attr.functionBody).toList.flatMap fun body =>
        .equal (env.site n scope).path (env.site body scope).path ::
          (returnsOf body).map fun r => .equal (env.site body scope).path (env.site r scope).path) ∧
      facts.known = [] ∧
      ∀ q c, Facts.Asks facts.callbacks q c ↔
        (q = (env.site n scope).path ∧ c = ⟨n.id, Attr.functionReturn⟩) ∨
          ∃ a ∈ n.nodes Attr.arguments, q = (env.site a scope).path ∧
            c = ⟨a.id, Attr.argumentType⟩ := by
  obtain ⟨hr, hk, ha⟩ := foldl_arguments env scope (n.nodes Attr.arguments)
    (({} : Facts).callBack (env.site n scope).path ⟨n.id, Attr.functionReturn⟩)
  simp only [functionDeclaration] at h
  generalize List.foldl _ _ (n.nodes Attr.arguments) = called at h hr hk ha
  split at h
  · next hbody =>
    cases h
    refine ⟨by simp [hr, hbody], hk, fun q c => (ha q c).trans ?_⟩
    simp
  · next body hbody =>
    cases h
    obtain ⟨hr', hk', hc'⟩ := foldl_returns env scope (env.site body scope) (returnsOf body)
      (called.equate (env.site n scope) (env.site body scope))
    refine ⟨hr'.trans ?_, hk'.trans hk, fun q c => ?_⟩
    · simp [hr, hbody]
    · rw [hc']
      refine (ha q c).trans ?_
      simp

/-- The sides of a comparison have one shape, and it is a truth value itself; a calculation has the
shape of each of its sides; nothing is said of another operator. -/
theorem operator_facts {left right : Node} (hl : n.node? Attr.operatorLeft = some left)
    (hr : n.node? Attr.operatorRight = some right) (h : operator.facts env scope n = .ok facts) :
    let op := (n.str? Attr.operator).getD ""
    facts.callbacks = [] ∧
      ((comparisons.contains op = true ∧ facts.known = [((env.site n scope).path, Shape.bool)] ∧
          facts.relations = [.equal (env.site left scope).path (env.site right scope).path]) ∨
        (comparisons.contains op = false ∧ arithmetic.contains op = true ∧ facts.known = [] ∧
          facts.relations = [.equal (env.site n scope).path (env.site left scope).path,
            .equal (env.site n scope).path (env.site right scope).path]) ∨
        (comparisons.contains op = false ∧ arithmetic.contains op = false ∧ facts.known = [] ∧
          facts.relations = [])) := by
  simp only [operator, hl, hr] at h
  split at h
  · next hop =>
    obtain ⟨facts', hk, h⟩ := Except.bind_eq_ok.mp h
    obtain ⟨t, ht, rfl⟩ := Facts.know_eq_ok hk
    -- the canonical shape carries no sample
    have hbool : Facts.withoutSample Shape.bool = .ok Shape.bool.copy := rfl
    cases hbool.symm.trans ht
    cases h
    exact ⟨rfl, .inl ⟨hop, rfl, rfl⟩⟩
  · next hop =>
    have hop' := Bool.eq_false_iff.mpr hop
    split at h
    · next ha =>
      cases h
      exact ⟨rfl, .inr (.inl ⟨hop', ha, rfl, rfl⟩)⟩
    · next ha =>
      cases h
      exact ⟨rfl, .inr (.inr ⟨hop', Bool.eq_false_iff.mpr ha, rfl, rfl⟩)⟩

/-- Nothing is said of an operator without two sides. -/
theorem operator_facts_of_none
    (hnot : n.node? Attr.operatorLeft = none ∨ n.node? Attr.operatorRight = none)
    (h : operator.facts env scope n = .ok facts) : facts = {} := by
  simp only [operator] at h
  split at h
  · next hl hr => rcases hnot with hn | hn <;> simp_all
  · cases h; rfl

/-- A literal has the shape of its value, without the sample. -/
theorem literal_facts {s : Shape} (hs : n.shape? Attr.inferredType = some s)
    (h : literal.facts env scope n = .ok facts) :
    ∃ t, Facts.withoutSample s = .ok t ∧ facts.known = [((env.site n scope).path, t.freeze)] ∧
      facts.relations = [] ∧ facts.callbacks = [] := by
  simp only [literal, hs] at h
  obtain ⟨t, ht, rfl⟩ := Facts.know_eq_ok h
  exact ⟨t, ht, rfl, rfl, rfl⟩

/-- A member stands in one relation, which is that of a member or of a length. -/
theorem memberExpression_facts (h : memberExpression.facts env scope n = .ok facts) :
    (∃ o k m, facts.relations = [memberRelation o k m] ∨ facts.relations = [lengthRelation o m]) ∧
      facts.known = [] ∧ facts.callbacks = [] := by
  simp only [memberExpression] at h
  split at h
  · next object property ho hp =>
    split at h
    · split at h
      · cases h
        exact ⟨⟨_, "", _, .inr rfl⟩, rfl, rfl⟩
      · cases h
        exact ⟨⟨_, _, _, .inl rfl⟩, rfl, rfl⟩
    · split at h
      · cases h
        exact ⟨⟨_, _, _, .inl rfl⟩, rfl, rfl⟩
      · cases h
  · cases h

/-! ### All rules -/

/-- The rules say that two paths have one shape, because of a node in its scope. -/
inductive Equated (env : Scopes) (n : Node) (scope : Scope) : String → String → Prop
  | initial {init : Node} (hn : n.flag Attr.variableDeclaration = true)
      (h : n.node? Attr.defaultValue = some init) :
      Equated env n scope (env.site n scope).path (env.site init scope).path
  | assigned {left right : Node} (hn : n.flag Attr.assignExpression = true)
      (hl : n.node? Attr.assignExpressionLeft = some left)
      (hr : n.node? Attr.assignExpressionRight = some right) :
      Equated env n scope (env.site left scope).path (env.site right scope).path
  | returned {value : Node} (h : n.node? Attr.returned = some value) :
      Equated env n scope (env.site n scope).path (env.site value scope).path
  | body {body : Node} (hn : n.flag Attr.functionDecl = true)
      (hb : n.node? Attr.functionBody = some body) :
      Equated env n scope (env.site n scope).path (env.site body scope).path
  | bodyReturn {body r : Node} (hn : n.flag Attr.functionDecl = true)
      (hb : n.node? Attr.functionBody = some body) (hr : r ∈ returnsOf body) :
      Equated env n scope (env.site body scope).path (env.site r scope).path
  | leftOperand {left right : Node} (hl : n.node? Attr.operatorLeft = some left)
      (hr : n.node? Attr.operatorRight = some right)
      (hop : ((n.str? Attr.operator).getD "") ∈ arithmetic) :
      Equated env n scope (env.site n scope).path (env.site left scope).path
  | rightOperand {left right : Node} (hl : n.node? Attr.operatorLeft = some left)
      (hr : n.node? Attr.operatorRight = some right)
      (hop : ((n.str? Attr.operator).getD "") ∈ arithmetic) :
      Equated env n scope (env.site n scope).path (env.site right scope).path
  | compared {left right : Node} (hl : n.node? Attr.operatorLeft = some left)
      (hr : n.node? Attr.operatorRight = some right)
      (hop : ((n.str? Attr.operator).getD "") ∈ comparisons) :
      Equated env n scope (env.site left scope).path (env.site right scope).path

/-- The rules give a path its shape, because of a node in its scope. -/
inductive Given (env : Scopes) (n : Node) (scope : Scope) : String → Shape → Prop
  | literal {s t : Shape} (hn : n.flag Attr.literal = true)
      (hs : n.shape? Attr.inferredType = some s) (ht : Facts.withoutSample s = .ok t) :
      Given env n scope (env.site n scope).path t.freeze
  | comparison {left right : Node} (hl : n.node? Attr.operatorLeft = some left)
      (hr : n.node? Attr.operatorRight = some right)
      (hop : ((n.str? Attr.operator).getD "") ∈ comparisons) :
      Given env n scope (env.site n scope).path Shape.bool

/-- The rules ask for the shape of a path, because of a node in its scope. -/
inductive Asked (env : Scopes) (n : Node) (scope : Scope) : String → Callback → Prop
  | declared (hn : n.flag Attr.variableDeclaration = true) :
      Asked env n scope (env.site n scope).path ⟨n.id, Attr.inferredType⟩
  | function (hn : n.flag Attr.functionDecl = true) :
      Asked env n scope (env.site n scope).path ⟨n.id, Attr.functionReturn⟩
  | argument {a : Node} (hn : n.flag Attr.functionDecl = true)
      (ha : a ∈ n.nodes Attr.arguments) :
      Asked env n scope (env.site a scope).path ⟨a.id, Attr.argumentType⟩

/-- There is a reason for whatever some facts say of a node. -/
structure Reasoned (env : Scopes) (n : Node) (scope : Scope) (facts : Facts) : Prop where
  states : ∀ r ∈ facts.relations, (∃ c, r.States c) ∧ r.unified = false
  given : ∀ e ∈ facts.known, Given env n scope e.1 e.2
  asked : ∀ path c, Facts.Asks facts.callbacks path c → Asked env n scope path c

theorem states_equal (left right : String) :
    (∃ c, (Relation.equal left right).States c) ∧ (Relation.equal left right).unified = false :=
  ⟨⟨_, .equal ⟨rfl, rfl, rfl⟩⟩, rfl⟩

/-- Facts that know nothing and ask for nothing have only their relations to give a reason for. -/
theorem reasoned_of_states (hk : facts.known = []) (hc : facts.callbacks = [])
    (hr : ∀ r ∈ facts.relations, (∃ c, r.States c) ∧ r.unified = false) :
    Reasoned env n scope facts where
  states := hr
  given e he := by rw [hk] at he; cases he
  asked path c ha := by rw [hc] at ha; exact absurd ha Facts.not_asks_nil

theorem reasoned_empty : Reasoned env n scope {} := reasoned_of_states rfl rfl nofun

/-- There is a reason for what is said of a variable. -/
theorem reasoned_variableDeclaration (hn : variableDeclaration.accepts n = true)
    (h : variableDeclaration.facts env scope n = .ok facts) : Reasoned env n scope facts := by
  obtain ⟨hr, hk, ha⟩ := variableDeclaration_facts h
  refine ⟨fun r hmem => ?_, fun e he => ?_, fun path c hc => ?_⟩
  · rw [hr] at hmem
    obtain ⟨init, -, rfl⟩ := List.mem_map.mp hmem
    exact states_equal ..
  · rw [hk] at he
    cases he
  · obtain ⟨rfl, rfl⟩ := (ha path c).mp hc
    exact .declared hn

/-- There is a reason for what is said of an assignment. -/
theorem reasoned_assignExpression (h : assignExpression.facts env scope n = .ok facts) :
    Reasoned env n scope facts := by
  obtain ⟨-, hr, hk, hc⟩ := assignExpression_facts h
  refine reasoned_of_states hk hc fun r hmem => ?_
  obtain ⟨l, m, rfl⟩ := hr r hmem
  exact states_equal ..

/-- There is a reason for what is said of a return. -/
theorem reasoned_returning (hn : returning.accepts n = true)
    (h : returning.facts env scope n = .ok facts) : Reasoned env n scope facts := by
  obtain ⟨value, hv⟩ := Option.isSome_iff_exists.mp hn
  obtain ⟨hr, hk, hc⟩ := returning_facts hv h
  refine reasoned_of_states hk hc fun r hmem => ?_
  rw [hr, List.mem_singleton] at hmem
  exact hmem ▸ states_equal ..

/-- There is a reason for what is said of a member. -/
theorem reasoned_memberExpression (h : memberExpression.facts env scope n = .ok facts) :
    Reasoned env n scope facts := by
  obtain ⟨⟨o, k, m, hr⟩, hk, hc⟩ := memberExpression_facts h
  refine reasoned_of_states hk hc fun r hmem => ?_
  rcases hr with hr | hr <;> rw [hr, List.mem_singleton] at hmem
  · exact hmem ▸ ⟨⟨_, .member o k m⟩, rfl⟩
  · exact hmem ▸ ⟨⟨_, .length o m⟩, rfl⟩

/-- There is a reason for what is said of an operator. -/
theorem reasoned_operator (h : operator.facts env scope n = .ok facts) :
    Reasoned env n scope facts := by
  cases hl : n.node? Attr.operatorLeft with
  | none => exact operator_facts_of_none (.inl hl) h ▸ reasoned_empty
  | some left =>
    cases hr : n.node? Attr.operatorRight with
    | none => exact operator_facts_of_none (.inr hr) h ▸ reasoned_empty
    | some right =>
      obtain ⟨hc, ⟨hop, hk, hrel⟩ | ⟨-, -, hk, hrel⟩ | ⟨-, -, hk, hrel⟩⟩ := operator_facts hl hr h
      · refine ⟨fun r hmem => ?_, fun e he => ?_, fun path c ha => ?_⟩
        · rw [hrel, List.mem_singleton] at hmem
          exact hmem ▸ states_equal ..
        · rw [hk, List.mem_singleton] at he
          exact he ▸ .comparison hl hr (List.contains_iff_mem.mp hop)
        · rw [hc] at ha
          exact absurd ha Facts.not_asks_nil
      · refine reasoned_of_states hk hc fun r hmem => ?_
        rw [hrel] at hmem
        rcases List.mem_pair.mp hmem with rfl | rfl
        · exact states_equal ..
        · exact states_equal ..
      · exact reasoned_of_states hk hc fun r hmem => by rw [hrel] at hmem; cases hmem

/-- There is a reason for what is said of a function. -/
theorem reasoned_functionDeclaration (hn : functionDeclaration.accepts n = true)
    (h : functionDeclaration.facts env scope n = .ok facts) : Reasoned env n scope facts := by
  obtain ⟨hr, hk, ha⟩ := functionDeclaration_facts h
  refine ⟨fun r hmem => ?_, fun e he => ?_, fun path c hc => ?_⟩
  · rw [hr] at hmem
    obtain ⟨body, -, hmem⟩ := List.mem_flatMap.mp hmem
    rcases List.mem_cons.mp hmem with rfl | hmem
    · exact states_equal ..
    · obtain ⟨r', -, rfl⟩ := List.mem_map.mp hmem
      exact states_equal ..
  · rw [hk] at he
    cases he
  · rcases (ha path c).mp hc with ⟨rfl, rfl⟩ | ⟨a, hmem, rfl, rfl⟩
    · exact .function hn
    · exact .argument hn hmem

/-- There is a reason for what is said of a literal. -/
theorem reasoned_literal (hn : literal.accepts n = true)
    (h : literal.facts env scope n = .ok facts) : Reasoned env n scope facts := by
  cases hs : n.shape? Attr.inferredType with
  | none =>
    simp only [literal, hs] at h
    cases h
    exact reasoned_empty
  | some s =>
    obtain ⟨t, ht, hk, hr, hc⟩ := literal_facts hs h
    refine ⟨fun r hmem => ?_, fun e he => ?_, fun path c ha => ?_⟩
    · rw [hr] at hmem
      cases hmem
    · rw [hk, List.mem_singleton] at he
      exact he ▸ .literal hn hs ht
    · rw [hc] at ha
      exact absurd ha Facts.not_asks_nil

/-- There is a reason for whatever a standard rule says. -/
theorem reasoned_of_standard {rule : Rule} (hrule : rule ∈ standard) (hn : rule.accepts n = true)
    (h : rule.facts env scope n = .ok facts) : Reasoned env n scope facts := by
  simp only [standard, List.mem_cons, List.not_mem_nil, or_false] at hrule
  rcases hrule with rfl | rfl | rfl | rfl | rfl | rfl | rfl
  · exact reasoned_variableDeclaration hn h
  · exact reasoned_assignExpression h
  · exact reasoned_returning hn h
  · exact reasoned_memberExpression h
  · exact reasoned_operator h
  · exact reasoned_functionDeclaration hn h
  · exact reasoned_literal hn h

/-! ### Nothing is left unsaid -/

/-- A text that is not empty is there. -/
theorem has_of_str {f : Field} (hf : f.absent? = none) {op : String}
    (h : ((n.str? f).getD "") = op) (hop : op ≠ "") : n.has f = true := by
  cases hg : n.get? f.key with
  | some v => simp [Record.has, hg]
  | none =>
    simp only [Record.str?, Record.field?, hg, hf] at h
    exact absurd h.symm hop

theorem operator_accepts {ops : List String} (hne : "" ∉ ops)
    (hop : ((n.str? Attr.operator).getD "") ∈ ops) : operator.accepts n = true :=
  has_of_str rfl rfl fun h => hne (h ▸ hop)

/-- Some standard rule speaks of the node, and what it says meets `P`. -/
def Stated (env : Scopes) (n : Node) (scope : Scope) (P : Facts → Prop) : Prop :=
  ∃ rule ∈ standard, rule.accepts n = true ∧
    ∀ facts, rule.facts env scope n = .ok facts → P facts

/-- No operator both compares and calculates. -/
theorem comparisons_contains_of_arithmetic {op : String} (h : op ∈ arithmetic) :
    comparisons.contains op = false := by
  simp only [arithmetic, List.mem_cons, List.not_mem_nil, or_false] at h
  rcases h with rfl | rfl | rfl | rfl | rfl <;> decide

/-- Paths that have one shape for a reason are related by some rule. -/
theorem Equated.stated {l m : String} (h : Equated env n scope l m) :
    Stated env n scope fun facts => .equal l m ∈ facts.relations := by
  cases h with
  | initial hn h =>
    refine ⟨variableDeclaration, by simp [standard], hn, fun facts hf => ?_⟩
    simp [(variableDeclaration_facts hf).1, h]
  | assigned hn hl hr =>
    refine ⟨assignExpression, by simp [standard], hn, fun facts hf => ?_⟩
    simp [(assignExpression_facts hf).1 _ _ hl hr]
  | returned h =>
    refine ⟨returning, by simp [standard], by simp [returning, h], fun facts hf => ?_⟩
    simp [(returning_facts h hf).1]
  | body hn hb =>
    refine ⟨functionDeclaration, by simp [standard], hn, fun facts hf => ?_⟩
    simp [(functionDeclaration_facts hf).1, hb]
  | bodyReturn hn hb hr =>
    refine ⟨functionDeclaration, by simp [standard], hn, fun facts hf => ?_⟩
    simp only [(functionDeclaration_facts hf).1, hb, Option.toList_some, List.flatMap_cons,
      List.flatMap_nil, List.append_nil]
    exact List.mem_cons_of_mem _ (List.mem_map.mpr ⟨_, hr, rfl⟩)
  -- An operator is of one sort, so that two of the cases do not arise.
  | leftOperand hl hr hop | rightOperand hl hr hop =>
    refine ⟨operator, by simp [standard], operator_accepts (by decide) hop, fun facts hf => ?_⟩
    have hnot := comparisons_contains_of_arithmetic hop
    have hyes := List.contains_iff_mem.mpr hop
    obtain ⟨-, ⟨hc, -⟩ | ⟨-, -, -, hrel⟩ | ⟨-, ha, -⟩⟩ := operator_facts hl hr hf
    · rw [hnot] at hc
      cases hc
    · simp [hrel]
    · rw [hyes] at ha
      cases ha
  | compared hl hr hop =>
    refine ⟨operator, by simp [standard], operator_accepts (by decide) hop, fun facts hf => ?_⟩
    have hyes := List.contains_iff_mem.mpr hop
    obtain ⟨-, ⟨-, -, hrel⟩ | ⟨hc, -⟩ | ⟨hc, -⟩⟩ := operator_facts hl hr hf
    · simp [hrel]
    · rw [hyes] at hc
      cases hc
    · rw [hyes] at hc
      cases hc

/-- A shape that is given for a reason is known from some rule. -/
theorem Given.stated {path : String} {t : Shape} (h : Given env n scope path t) :
    Stated env n scope fun facts => (path, t) ∈ facts.known := by
  cases h with
  | literal hn hs ht =>
    refine ⟨Rule.literal, by simp [standard], hn, fun facts hf => ?_⟩
    obtain ⟨t', ht', hk, -⟩ := literal_facts hs hf
    cases ht.symm.trans ht'
    simp [hk]
  | comparison hl hr hop =>
    refine ⟨operator, by simp [standard], operator_accepts (by decide) hop, fun facts hf => ?_⟩
    have hyes := List.contains_iff_mem.mpr hop
    obtain ⟨-, ⟨-, hk, -⟩ | ⟨hc, -⟩ | ⟨hc, -⟩⟩ := operator_facts hl hr hf
    · simp [hk]
    · rw [hyes] at hc
      cases hc
    · rw [hyes] at hc
      cases hc

/-- A place that a shape goes to for a reason is asked for by some rule. -/
theorem Asked.stated {path : String} {c : Callback} (h : Asked env n scope path c) :
    Stated env n scope fun facts => Facts.Asks facts.callbacks path c := by
  cases h with
  | declared hn =>
    refine ⟨variableDeclaration, by simp [standard], hn, fun facts hf => ?_⟩
    exact ((variableDeclaration_facts hf).2.2 _ _).mpr ⟨rfl, rfl⟩
  | function hn =>
    refine ⟨functionDeclaration, by simp [standard], hn, fun facts hf => ?_⟩
    exact ((functionDeclaration_facts hf).2.2 _ _).mpr (.inl ⟨rfl, rfl⟩)
  | argument hn ha =>
    refine ⟨functionDeclaration, by simp [standard], hn, fun facts hf => ?_⟩
    exact ((functionDeclaration_facts hf).2.2 _ _).mpr (.inr ⟨_, ha, rfl, rfl⟩)

end Rule

end TypeSketch
