import TypeSketch.Proofs.Inference.Components

/-!
# Inference — the order of relations

Lengths and members assume shapes where nothing is known: an object with a length is a sequence.  An
assumption stays, so a board may end differently when its relations are tried in another order
(`not_confluent`).  It ends alike in every order as far as the assumptions do not differ
(`endsLike_of_defaults`):

* where the known shapes of paths of one shape differ, inference fails in every order;
* where tries, in whatever order and number, never give a path two shapes, every order fails or
  every order finds the same;
* where some shapes for the paths bear every assumption out, every order finds these shapes.

The second rests on `within_of_closed`: what any tries can find is found where nothing is left to
suggest.
-/

namespace TypeSketch

open TypeSketch.Relation (elementOf? anyVector)

/-- What is known of a path is what `g` gives it. -/
def Known.Within (k : Known) (g : String → Option Shape) : Prop :=
  ∀ p s, k.lookup p = some s → ∃ t, g p = some t ∧ s.same t = true

/-! ### Suggestions from shapes that are the same -/

/-- Containers that are the same hold the same. -/
theorem Relation.elementOf?_rel_of_same {s t : Shape} (hs : s.Proper) (ht : t.Proper)
    (h : s.same t = true) :
    Option.Rel (fun a b : Shape => a.same b = true) (elementOf? s) (elementOf? t) := by
  have hgenerics := Shape.forall₂_generics_of_same hs ht h
  -- an element that can be anything says nothing, on both sides
  have hfilter : ∀ i : Nat, Option.Rel (fun a b : Shape => a.same b = true)
      (s.generics[i]?.filter fun e => !e.flag Trait.allValue)
      (t.generics[i]?.filter fun e => !e.flag Trait.allValue) := by
    intro i
    have hi := rel_getElem?_of_forall₂ hgenerics i
    cases ha : s.generics[i]? <;> cases hb : t.generics[i]? <;> rw [ha, hb] at hi
    · exact .none
    · cases hi
    · cases hi
    · next a b =>
      cases hi with
      | some hab =>
        have hflag : a.flag Trait.allValue = b.flag Trait.allValue :=
          Shape.flag_eq_of_same (hs.generics (List.mem_of_getElem? ha))
            (ht.generics (List.mem_of_getElem? hb)) hab _
        cases hall : b.flag Trait.allValue with
        | true => simp only [Option.filter, hflag, hall]; exact .none
        | false => simp only [Option.filter, hflag, hall]; exact .some hab
  have hvector : s.flag Trait.vector = t.flag Trait.vector := Shape.flag_eq_of_same hs ht h _
  have hobject : s.flag Trait.object = t.flag Trait.object := Shape.flag_eq_of_same hs ht h _
  have hmap : s.flag Trait.map = t.flag Trait.map := Shape.flag_eq_of_same hs ht h _
  unfold elementOf?
  rw [hvector, hobject, hmap]
  split
  · exact hfilter 0
  · split
    · exact hfilter 1
    · exact .none

/-- What is suggested from some shapes is suggested from those that are the same. -/
theorem Known.Within.suggests {k : Known} {g : String → Option Shape} (h : k.Within g)
    (hk : k.Proper) (hg : ∀ p t, g p = some t → t.Proper) {c : Bond} {p : String} {s : Shape}
    (hs : c.Suggests (fun q => k.lookup q) p s) :
    ∃ s', c.Suggests g p s' ∧ s.same s' = true := by
  have mark : ∀ {q t t'}, k.lookup q = some t → g q = some t' → t.same t' = true →
      ∀ key, t'.flag (.flag key) = t.flag (.flag key) := fun ht ht' hsame key =>
    (Shape.flag_eq_of_same (hk _ _ ht) (hg _ _ ht') hsame key).symm
  have hvector : anyVector.same anyVector = true :=
    Shape.same_refl (Shape.proper_vector Shape.proper_allValue)
  have hobject : Shape.object.copy.same Shape.object.copy = true :=
    Shape.same_refl (Shape.proper_copy.mpr Shape.proper_object)
  -- What is suggested depends on marks and on an element, which agree in shapes that are the same.
  cases hs with
  | right hs =>
    obtain ⟨t, ht, hst⟩ := h _ _ hs
    exact ⟨t, .right ht, hst⟩
  | left hs =>
    obtain ⟨t, ht, hst⟩ := h _ _ hs
    exact ⟨t, .left ht, hst⟩
  | lengthObject => exact ⟨_, .lengthObject _ _, hvector⟩
  | lengthMember hne => exact ⟨_, .lengthMember hne, Shape.same_refl Shape.proper_i64⟩
  | objectOfInteger hne ht hi =>
    obtain ⟨t', ht', hsame⟩ := h _ _ ht
    exact ⟨_, .objectOfInteger hne ht' ((mark ht ht' hsame _).trans hi), hvector⟩
  | objectOfString hne ht hi hstr =>
    obtain ⟨t', ht', hsame⟩ := h _ _ ht
    exact ⟨_, .objectOfString hne ht' ((mark ht ht' hsame _).trans hi)
      ((mark ht ht' hsame _).trans hstr), hobject⟩
  | keyOfVector hne ht hv =>
    obtain ⟨t', ht', hsame⟩ := h _ _ ht
    exact ⟨_, .keyOfVector hne ht' ((mark ht ht' hsame _).trans hv),
      Shape.same_refl Shape.proper_i64⟩
  | keyOfObject hne ht hv hom =>
    obtain ⟨t', ht', hsame⟩ := h _ _ ht
    have ho : t'.flag Trait.object = _ := mark ht ht' hsame _
    have hm : t'.flag Trait.map = _ := mark ht ht' hsame _
    refine ⟨_, .keyOfObject hne ht' ((mark ht ht' hsame _).trans hv) ?_,
      Shape.same_refl Shape.proper_string⟩
    rw [ho, hm]
    exact hom
  | element hne hne' ht he =>
    obtain ⟨t', ht', hsame⟩ := h _ _ ht
    have hel := Relation.elementOf?_rel_of_same (hk _ _ ht) (hg _ _ ht') hsame
    rw [he] at hel
    cases he' : elementOf? t' with
    | none => rw [he'] at hel; cases hel
    | some e' =>
      rw [he'] at hel
      cases hel with
      | some hee => exact ⟨e', .element hne hne' ht' he', hee⟩

namespace Board

/-! ### Tries that never differ -/

/-- Tries, in whatever order and number, never give a path two shapes. -/
def Unambiguous (b : Board) : Prop :=
  ∀ k k', b.Tried k → b.Tried k' → ∀ p s t, k.lookup p = some s → k'.lookup p = some t →
    s.same t = true

variable {b b' : Board}

/-- What one attempt finds is found where nothing is left to suggest. -/
theorem within_of_grows (hb : b.Stated) (hu : b.Unambiguous) {c : Bond} {final k k' k'' : Known}
    (hfinal : b.Tried final) (hclosed : c.ClosedIn final) (hk : k.Proper)
    (hin : k.Within fun p => final.lookup p) (hg : Known.Grows c k k') (hext : k'.Extends k'')
    (hk'' : b.Tried k'') : k'.Within fun p => final.lookup p := by
  induction hg with
  | refl => exact hin
  | @learn k₁ p s hg hp hs ih =>
    have hin₁ := ih ((Known.extends_put hp).trans hext)
    obtain ⟨s', hs', -⟩ := hin₁.suggests (proper_of_grows hk hg)
      (fun q t => hfinal.proper hb q t) hs
    intro q t hq
    rw [Assoc.lookup_put] at hq
    split at hq
    · next heq =>
      subst heq
      -- `final` has a shape for the path too, and the two can not differ
      obtain ⟨t', ht'⟩ := Option.isSome_iff_exists.mp (hclosed q s' hs')
      have hq' : k''.lookup q = some t :=
        hext q t (by rw [Assoc.lookup_put, if_pos rfl]; exact hq)
      exact ⟨t', ht', hu k'' final hk'' hfinal q t t' hq' ht'⟩
    · exact hin₁ q t hq

/-- What any tries find is found where nothing is left to suggest. -/
theorem within_of_closed (hb : b.Stated) (hu : b.Unambiguous) {final : Known}
    (hfinal : b.Tried final) (hclosed : ∀ r ∈ b.relations, ∀ c, r.States c → c.ClosedIn final)
    {k : Known} (hk : b.Tried k) : k.Within fun p => final.lookup p := by
  -- on the tries that have led to `k`
  induction hk with
  | start =>
    intro p s hp
    exact ⟨s, hfinal.extends hb p s hp, Shape.same_refl (hb.proper p s hp)⟩
  | @step r k k' u hk hr hstep ih =>
    obtain ⟨c, hc⟩ := hb.bond r hr
    exact within_of_grows hb hu hfinal (hclosed r hr c hc) (hk.proper hb) ih
      (hc.attempt (hk.proper hb) hstep).grows (.refl k') (hk.step hr hstep)

/-- If one order of tries comes off, no tries meet a conflict. -/
theorem no_conflict_of_succeeds (hb : b.Stated) (hu : b.Unambiguous) (hn : b.Succeeds)
    {r : Relation} (hr : r ∈ b.relations) {l m : String} (he : r.Equates l m) {k : Known}
    (hk : b.Tried k) {s t : Shape} (hs : k.lookup l = some s) (ht : k.lookup m = some t) :
    s.same t = true := by
  have hout := outcome hb
  have hproper := hout.proper hb
  have hin := within_of_closed hb hu hout.tried (hout.closed hn) hk
  obtain ⟨s', hs', hss⟩ := hin l s hs
  obtain ⟨t', ht', htt⟩ := hin m t ht
  have hst := (hout.agree hn r hr l m he).same hs' ht'
  have hps := hk.proper hb l s hs
  have hpt := hk.proper hb m t ht
  have hps' := hproper l s' hs'
  have hpt' := hproper m t' ht'
  exact Shape.same_of_common hps hpt hpt' (Shape.same_trans hps hps' hpt' hss hst) htt

/-! ### Another order -/

theorem Reorders.stated (h : b.Reorders b') (hb : b.Stated) : b'.Stated where
  bond r hr := hb.bond r (h.relations.mem_iff.mp hr)
  pending r hr := hb.pending r (h.relations.mem_iff.mp hr)
  proper := h.known ▸ hb.proper

theorem Reorders.tried (h : b.Reorders b') {k : Known} (hk : b'.Tried k) : b.Tried k := by
  induction hk with
  | start => exact h.known ▸ .start
  | step _ hr hu ih => exact ih.step (h.relations.mem_iff.mp hr) hu

theorem Reorders.unambiguous (h : b.Reorders b') (hu : b.Unambiguous) : b'.Unambiguous :=
  fun k k' hk hk' => hu k k' (h.tried hk) (h.tried hk')

/-- Where tries never differ, inference comes off in every order or in none. -/
theorem Reorders.succeeds (h : b.Reorders b') (hb : b.Stated) (hu : b.Unambiguous)
    (hn : b.Succeeds) : b'.Succeeds := by
  cases hn' : b'.infer.2 with
  | ok n => exact ⟨n, hn'⟩
  | error e =>
    obtain ⟨r, hr, l, m, k, s, t, he, hk, hs, ht, hst, -⟩ :=
      (outcome (h.stated hb)).conflict hn'
    have := no_conflict_of_succeeds hb hu hn (h.relations.mem_iff.mp hr) he (h.tried hk) hs ht
    rw [hst] at this
    cases this

/-- Where tries never differ, each order finds what the other finds. -/
theorem endsLike_of_unambiguous (h : b.Reorders b') (hb : b.Stated) (hu : b.Unambiguous) :
    b.EndsLike b' := by
  have hb' := h.stated hb
  have hu' := h.unambiguous hu
  refine ⟨⟨h.symm.succeeds hb' hu', h.succeeds hb hu⟩, fun hn p => ?_⟩
  have hn' := h.succeeds hb hu hn
  have hout := outcome hb
  have hout' := outcome hb'
  have htried' : b.Tried b'.infer.1.known := h.tried hout'.tried
  cases hp' : b'.infer.1.shape? p with
  | some s =>
    obtain ⟨t, ht, hst⟩ := within_of_closed hb hu hout.tried (hout.closed hn) htried' p s hp'
    have hp : b.infer.1.shape? p = some t := ht
    rw [hp]
    exact .some hst
  | none =>
    cases hp : b.infer.1.shape? p with
    | none => exact .none
    | some t =>
      obtain ⟨s, hs, -⟩ := within_of_closed hb' hu' hout'.tried (hout'.closed hn')
        (h.symm.tried hout.tried) p t hp
      exact absurd (hp'.symm.trans hs) (by simp)

/-! ### Assumptions that are borne out -/

/-- Shapes for paths that bear out what is known, and what is suggested for other paths. -/
structure Typing (b : Board) (g : String → Option Shape) : Prop where
  proper : ∀ p s, g p = some s → s.Proper
  known : b.known.Within g
  equal : ∀ r ∈ b.relations, ∀ l m, r.Equates l m →
    Option.Rel (fun s t : Shape => s.same t = true) (g l) (g m)
  suggested : ∀ r ∈ b.relations, ∀ c, r.States c → ∀ p s, c.Suggests g p s →
    b.shape? p = none → ∃ t, g p = some t ∧ s.same t = true

/-- Any tries find only what bears everything out. -/
theorem Typing.within {g : String → Option Shape} (hb : b.Stated) (hg : b.Typing g) {k : Known}
    (hk : b.Tried k) : k.Within g := by
  -- paths known from the start are learnt by no tries
  refine (hk.learning (P := fun k => b.known.Extends k ∧ k.Within g) hb ⟨.refl _, hg.known⟩
    fun {r c k p s} hr hc hkp hP hp hs => ?_).2
  obtain ⟨hext, hin⟩ := hP
  refine ⟨hext.trans (Known.extends_put hp), fun q t hq => ?_⟩
  rw [Assoc.lookup_put] at hq
  split at hq
  · next heq =>
    subst heq
    cases hq
    obtain ⟨s', hs', hss⟩ := hin.suggests hkp hg.proper hs
    have hnone : b.shape? q = none := by
      cases h₀ : b.shape? q with
      | none => rfl
      | some u => exact absurd (hp.symm.trans (hext q u h₀)) (by simp)
    obtain ⟨t, ht, hst⟩ := hg.suggested r hr c hc q s' hs' hnone
    have hps := proper_of_suggests hkp hs
    have hps' := proper_of_suggests hg.proper hs'
    exact ⟨t, ht, by simpa using Shape.same_trans hps hps' (hg.proper q t ht) hss hst⟩
  · exact hin q t hq

/-- Where some shapes bear everything out, tries never differ. -/
theorem Typing.unambiguous {g : String → Option Shape} (hb : b.Stated) (hg : b.Typing g) :
    b.Unambiguous := by
  intro k k' hk hk' p s t hs ht
  obtain ⟨u, hu, hsu⟩ := hg.within hb hk p s hs
  obtain ⟨u', hu', htu⟩ := hg.within hb hk' p t ht
  obtain rfl := Option.some.inj (hu.symm.trans hu')
  have hps := hk.proper hb p s hs
  have hpt := hk'.proper hb p t ht
  have hpu := hg.proper p u hu
  exact Shape.same_of_common hps hpt hpu hsu htu

/-- Where some shapes bear everything out, inference comes off. -/
theorem Typing.succeeds {g : String → Option Shape} (hb : b.Stated) (hg : b.Typing g) :
    b.Succeeds := by
  cases hn : b.infer.2 with
  | ok n => exact ⟨n, hn⟩
  | error e =>
    obtain ⟨r, hr, l, m, k, s, t, he, hk, hs, ht, hst, -⟩ := (outcome hb).conflict hn
    obtain ⟨u, hu, hsu⟩ := hg.within hb hk l s hs
    obtain ⟨v, hv, htv⟩ := hg.within hb hk m t ht
    have huv := hg.equal r hr l m he
    rw [hu, hv] at huv
    cases huv with
    | some huv =>
      have hps := hk.proper hb l s hs
      have hpt := hk.proper hb m t ht
      have hpu := hg.proper l u hu
      have hpv := hg.proper m v hv
      have := Shape.same_of_common hps hpt hpv (Shape.same_trans hps hpu hpv hsu huv) htv
      rw [hst] at this
      cases this

/-! ### The order of the relations -/

/-- Inference ends alike in every order, as far as assumptions do not differ. -/
theorem endsLike_of_defaults (hb : b.Stated) (h : b.Reorders b') :
    (¬ b.Coherent → ¬ b.Succeeds ∧ ¬ b'.Succeeds) ∧
      (b.Unambiguous → b.EndsLike b') ∧
      ∀ g, b.Typing g → b.Succeeds ∧ b'.Succeeds ∧ b.EndsLike b' ∧ b.infer.1.known.Within g := by
  refine ⟨fun hc => ⟨fun hn => ?_, fun hn => ?_⟩, endsLike_of_unambiguous h hb, fun g hg => ?_⟩
  · exact hc (coherent_of_succeeds hb hn)
  · exact hc (h.coherent_iff.mp (coherent_of_succeeds (h.stated hb) hn))
  · have hu := hg.unambiguous hb
    have hn := hg.succeeds hb
    exact ⟨hn, h.succeeds hb hu hn, endsLike_of_unambiguous h hb hu,
      hg.within hb (outcome hb).tried⟩

/-- Where nothing is known but an object has a length, both orders find a sequence and whole
numbers. -/
theorem endsLike_of_length :
    ∃ b b' : Board, b.relations = [Rule.lengthRelation "a" "n", .equal "n" "m"] ∧
      b.Stated ∧ b.Reorders b' ∧ b.Succeeds ∧ b'.Succeeds ∧ b.EndsLike b' := by
  let b : Board := ⟨[], [], [], [Rule.lengthRelation "a" "n", .equal "n" "m"]⟩
  let b' : Board := ⟨[], [], [], [.equal "n" "m", Rule.lengthRelation "a" "n"]⟩
  let g : String → Option Shape := fun p =>
    [("a", anyVector), ("n", Shape.i64), ("m", Shape.i64)].lookup p
  have hlength : (Rule.lengthRelation "a" "n").States (.length "a" "n") := .length "a" "n"
  have hequal : (Relation.equal "n" "m").States (.equal "n" "m") := .equal ⟨rfl, rfl, rfl⟩
  have hb : b.Stated := by
    refine ⟨fun r hr => ?_, fun r hr => ?_, fun p s hp => by cases hp⟩
    · rcases List.mem_pair.mp hr with rfl | rfl
      · exact ⟨_, hlength⟩
      · exact ⟨_, hequal⟩
    · rcases List.mem_pair.mp hr with rfl | rfl <;> rfl
  have hi64 : Shape.i64.same Shape.i64 = true := Shape.same_refl Shape.proper_i64
  have hvector : anyVector.Proper := Shape.proper_vector Shape.proper_allValue
  have hg : b.Typing g := by
    refine ⟨fun p s hp => ?_, fun p s hp => (by cases hp), fun r hr l m he => ?_,
      fun r hr c hc p s hs _ => ?_⟩
    · have hmem := Assoc.mem_of_lookup hp
      simp only [List.mem_cons, Prod.mk.injEq, List.not_mem_nil, or_false] at hmem
      rcases hmem with ⟨-, rfl⟩ | ⟨-, rfl⟩ | ⟨-, rfl⟩
      · exact hvector
      · exact Shape.proper_i64
      · exact Shape.proper_i64
    · rcases List.mem_pair.mp hr with rfl | rfl
      · exact absurd he Relation.not_equates_lengthRelation
      · cases hequal.unique (.equal he)
        exact .some hi64
    · rcases List.mem_pair.mp hr with rfl | rfl
      · cases hlength.unique hc
        cases hs with
        | lengthObject => exact ⟨_, rfl, Shape.same_refl hvector⟩
        | lengthMember => exact ⟨_, rfl, hi64⟩
      · cases hequal.unique hc
        cases hs with
        | right hs => cases hs; exact ⟨_, rfl, hi64⟩
        | left hs => cases hs; exact ⟨_, rfl, hi64⟩
  have hbb' : b.Reorders b' := ⟨List.Perm.swap _ _ _, rfl⟩
  obtain ⟨hn, hn', hlike, -⟩ := (endsLike_of_defaults hb hbb').2.2 g hg
  exact ⟨b, b', rfl, hb, hbb', hn, hn', hlike⟩

/-- An object with a length has the shape of a text, and the length is tried first. -/
def lengthFirst : Board :=
  ⟨[("b", Shape.string)], [], [], [Rule.lengthRelation "a" "n", .equal "a" "b"]⟩

/-- The same, and the length is tried last. -/
def lengthLast : Board :=
  ⟨[("b", Shape.string)], [], [], [.equal "a" "b", Rule.lengthRelation "a" "n"]⟩

theorem stated_lengthFirst : lengthFirst.Stated := by
  refine ⟨fun r hr => ?_, fun r hr => ?_, fun p s hp => ?_⟩
  · rcases List.mem_pair.mp hr with rfl | rfl
    · exact ⟨_, .length "a" "n"⟩
    · exact ⟨.equal "a" "b", .equal ⟨rfl, rfl, rfl⟩⟩
  · rcases List.mem_pair.mp hr with rfl | rfl <;> rfl
  · obtain ⟨-, rfl⟩ := Prod.mk.inj (List.mem_singleton.mp (Assoc.mem_of_lookup hp))
    exact Shape.proper_string

/-- An object taken for a sequence before its shape is known can not be a text any more. -/
theorem not_confluent : ¬ ∀ b b' : Board, b.Stated → b.Reorders b' → b.EndsLike b' := by
  intro hall
  have hlike := hall lengthFirst lengthLast stated_lengthFirst ⟨List.Perm.swap _ _ _, rfl⟩
  have hlast : lengthLast.Succeeds := by decide +kernel
  have hfirst : ¬ lengthFirst.Succeeds := by decide +kernel
  exact hfirst (hlike.succeeds_iff.mp hlast)

end Board

end TypeSketch
