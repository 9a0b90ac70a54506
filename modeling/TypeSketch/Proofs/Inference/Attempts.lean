import TypeSketch.Inference.Rules
import TypeSketch.Proofs.Inference.Passes
import TypeSketch.Proofs.Shape.Building

/-!
# Inference — attempts

What one attempt at a relation can do, said once for the three sorts of relations that the rules
state.  What such a relation says is a `Bond` between paths.  A bond *suggests* shapes for its
paths, from the shapes that other paths of it have (`Bond.Suggests`).  An attempt gives suggested
shapes to paths that have none and does nothing else (`Known.Grows`); after it, each path with a
suggested shape has one (`Bond.ClosedIn`); and it fails only where paths of one shape have different
ones (`attempt_fails`).

The solver tries three sorts of relations by three functions. Everything later is proved from what
these functions have in common, so that a change to one of them is felt here alone: the statements
`attempt_equal`, `attempt_length` and `attempt_member` are its three cases, and `States.attempt`
puts them together. The one for members has two parts, since the object and the key are tried before
the member (`KeyTried`).
-/

namespace TypeSketch

/-! ### What is known -/

namespace Known

/-- Every known shape is proper. -/
def Proper (k : Known) : Prop := ∀ p s, k.lookup p = some s → s.Proper

/-- A path that had no shape gets one. -/
theorem extends_put {k : Known} {p : String} {s : Shape} (hp : k.lookup p = none) :
    k.Extends (Assoc.put p s k) := by
  intro q t hq
  rw [Assoc.lookup_put]
  split
  · next h => rw [h, hp] at hq; cases hq
  · exact hq

/-- A path with a shape is not one without. -/
theorem ne_of_lookup {k : Known} {p q : String} {s : Shape} (hp : k.lookup p = none)
    (hq : k.lookup q = some s) : q ≠ p := by
  rintro rfl
  rw [hp] at hq
  cases hq

theorem Extends.isSome {k k' : Known} (h : k.Extends k') {p : String}
    (hp : (k.lookup p).isSome) : (k'.lookup p).isSome := by
  obtain ⟨s, hs⟩ := Option.isSome_iff_exists.mp hp
  rw [h p s hs]
  rfl

end Known

/-! ### Bonds -/

/-- What a relation that the rules state says of paths. -/
inductive Bond
  | equal (left right : String)
  | length (object member : String)
  | member (object key member : String)

/-- A relation says that two paths have one shape. -/
def Relation.Equates (r : Relation) (left right : String) : Prop :=
  r.name = equalsTo ∧ r.member? "n1" = some left ∧ r.member? "n2" = some right

/-- A relation states a bond. -/
inductive Relation.States : Relation → Bond → Prop
  | equal {r : Relation} {left right : String} (h : r.Equates left right) :
      States r (.equal left right)
  | length (object member : String) :
      States (Rule.lengthRelation object member) (.length object member)
  | member (object key member : String) :
      States (Rule.memberRelation object key member) (.member object key member)

namespace Relation

theorem not_equates_lengthRelation {o m l l' : String} :
    ¬ (Rule.lengthRelation o m).Equates l l' := by
  simp [Equates, Rule.lengthRelation, equalsTo]

theorem not_equates_memberRelation {o key m l l' : String} :
    ¬ (Rule.memberRelation o key m).Equates l l' := by
  simp [Equates, Rule.memberRelation, equalsTo]

/-- A relation states one bond. -/
theorem States.unique {r : Relation} {c d : Bond} (hc : r.States c) (hd : r.States d) : c = d := by
  cases hc with
  | equal h =>
    cases hd with
    | equal h' =>
      obtain rfl := Option.some.inj (h.2.1.symm.trans h'.2.1)
      obtain rfl := Option.some.inj (h.2.2.symm.trans h'.2.2)
      rfl
    | length => exact absurd h not_equates_lengthRelation
    | member => exact absurd h not_equates_memberRelation
  | length o m =>
    generalize hr : Rule.lengthRelation o m = r at hd
    cases hd with
    | equal h => exact absurd (hr ▸ h) not_equates_lengthRelation
    | length => simp_all [Rule.lengthRelation]
    | member => simp [Rule.lengthRelation, Rule.memberRelation] at hr
  | member o key m =>
    generalize hr : Rule.memberRelation o key m = r at hd
    cases hd with
    | equal h => exact absurd (hr ▸ h) not_equates_memberRelation
    | length => simp [Rule.lengthRelation, Rule.memberRelation] at hr
    | member => simp_all [Rule.memberRelation]

end Relation

namespace Bond
open TypeSketch.Relation (anyVector elementOf?)

/-- What a bond suggests for a path, when paths have the shapes that `g` gives. -/
inductive Suggests (g : String → Option Shape) : Bond → String → Shape → Prop
  | right {left right : String} {s : Shape} (hs : g left = some s) :
      Suggests g (.equal left right) right s
  | left {left right : String} {s : Shape} (hs : g right = some s) :
      Suggests g (.equal left right) left s
  | lengthObject (object member : String) : Suggests g (.length object member) object anyVector
  | lengthMember {object member : String} (h : member ≠ object) :
      Suggests g (.length object member) member .i64
  | objectOfInteger {object key member : String} {t : Shape} (h : key ≠ object)
      (hk : g key = some t) (ht : t.flag Trait.integer = true) :
      Suggests g (.member object key member) object anyVector
  | objectOfString {object key member : String} {t : Shape} (h : key ≠ object)
      (hk : g key = some t) (hi : t.flag Trait.integer = false)
      (ht : t.flag Trait.string = true) :
      Suggests g (.member object key member) object Shape.object.copy
  | keyOfVector {object key member : String} {t : Shape} (h : key ≠ object)
      (ho : g object = some t) (ht : t.flag Trait.vector = true) :
      Suggests g (.member object key member) key .i64
  | keyOfObject {object key member : String} {t : Shape} (h : key ≠ object)
      (ho : g object = some t) (hv : t.flag Trait.vector = false)
      (ht : (t.flag Trait.object || t.flag Trait.map) = true) :
      Suggests g (.member object key member) key .string
  | element {object key member : String} {t e : Shape} (h : member ≠ object)
      (h' : member ≠ key) (ho : g object = some t) (he : elementOf? t = some e) :
      Suggests g (.member object key member) member e

/-- Every path that a bond suggests a shape for has one. -/
def ClosedIn (c : Bond) (k : Known) : Prop :=
  ∀ p s, c.Suggests (fun q => k.lookup q) p s → (k.lookup p).isSome

/-- The paths that a bond makes sure have a shape once it is unified: those of equal paths and of a
length, and the object of a member. -/
def Anchored (k : Known) : Bond → Prop
  | .equal l m => ∃ s t, k.lookup l = some s ∧ k.lookup m = some t ∧ s.same t = true
  | .length o m => (k.lookup o).isSome ∧ (k.lookup m).isSome
  | .member o _ _ => (k.lookup o).isSome

/-- What a unified bond has brought about. -/
structure Done (c : Bond) (k : Known) : Prop where
  closed : c.ClosedIn k
  anchored : c.Anchored k

/-- What is learnt later leaves the paths of a bond with a shape. -/
theorem Anchored.stays {k k' : Known} (hext : k.Extends k') {c : Bond} (h : c.Anchored k) :
    c.Anchored k' := by
  cases c with
  | equal l m =>
    obtain ⟨s, t, hs, ht, hst⟩ := h
    exact ⟨s, t, hext _ _ hs, hext _ _ ht, hst⟩
  | length o m => exact ⟨hext.isSome h.1, hext.isSome h.2⟩
  | member o key m => exact hext.isSome h

/-- What is learnt later suggests nothing new to a bond that is done. -/
theorem Done.stays {k k' : Known} (hext : k.Extends k') {c : Bond} (h : c.Done k) :
    c.Done k' := by
  refine ⟨fun p s hs => ?_, h.anchored.stays hext⟩
  -- an object that was known before has kept its shape
  have hold : ∀ {o t}, (k.lookup o).isSome → k'.lookup o = some t → k.lookup o = some t := by
    intro o t ho ht
    obtain ⟨t', ht'⟩ := Option.isSome_iff_exists.mp ho
    rwa [← hext _ _ ht', ht] at ht'
  obtain ⟨hclosed, hanch⟩ := h
  cases hs with
  | right | left =>
    obtain ⟨s, t, hs, ht, -⟩ := hanch
    exact hext.isSome (by simp [hs, ht])
  | lengthObject => exact hext.isSome hanch.1
  | lengthMember => exact hext.isSome hanch.2
  | objectOfInteger | objectOfString => exact hext.isSome hanch
  | keyOfVector hne ho ht =>
    exact hext.isSome (hclosed _ _ (.keyOfVector hne (hold hanch ho) ht))
  | keyOfObject hne ho hv ht =>
    exact hext.isSome (hclosed _ _ (.keyOfObject hne (hold hanch ho) hv ht))
  | element hne hne' ho he =>
    exact hext.isSome (hclosed _ _ (.element hne hne' (hold hanch ho) he))

end Bond

/-- `k'` is `k` with suggested shapes for paths that had none. -/
inductive Known.Grows (c : Bond) (k : Known) : Known → Prop
  | refl : Grows c k k
  | learn {k' : Known} {p : String} {s : Shape} (h : Grows c k k') (hp : k'.lookup p = none)
      (hs : c.Suggests (fun q => k'.lookup q) p s) : Grows c k (Assoc.put p s.freeze k')

theorem Known.Grows.extends {c : Bond} {k k' : Known} (h : Known.Grows c k k') : k.Extends k' := by
  induction h with
  | refl => exact .refl k
  | learn _ hp _ ih => exact ih.trans (extends_put hp)

/-! ### The attempts -/

/-- What an attempt at a bond that comes off has done. -/
structure Bond.Attempt (c : Bond) (k : Known) (b : Bool) (k' : Known) : Prop where
  grows : Known.Grows c k k'
  closed : c.ClosedIn k'
  anchored : b = true → c.Anchored k'
  idle : b = false → k' = k

namespace Relation

/-- An attempt at paths of one shape is idle only if neither has a shape. -/
theorem unifyEqual_idle {l m : String} {k k' : Known} (hu : unifyEqual l m k = .ok (false, k')) :
    k.lookup l = none ∧ k.lookup m = none := by
  unfold unifyEqual at hu
  split at hu
  · cases hu
  · cases hu
  · split at hu <;> cases hu
  · next hl hm => exact ⟨hl, hm⟩

theorem unify_of_equates {r : Relation} {l m : String} (h : r.Equates l m) (k : Known) :
    r.unify k = unifyEqual l m k := by
  obtain ⟨hname, hl, hm⟩ := h
  simp [unify, hname, hl, hm]

theorem unify_lengthRelation (o m : String) (k : Known) :
    (Rule.lengthRelation o m).unify k = .ok (unifyLength o m k) := rfl

theorem unify_memberRelation (o key m : String) (k : Known) :
    (Rule.memberRelation o key m).unify k = .ok (unifyMember o key m k) := rfl

/-- An attempt at paths of one shape gives one of them the shape of the other, where one has none.
-/
theorem attempt_equal {l m : String} {k k' : Known} {b : Bool} (hk : k.Proper)
    (hu : unifyEqual l m k = .ok (b, k')) : (Bond.equal l m).Attempt k b k' := by
  have both : ∀ {k₁ : Known} {s t}, k₁.lookup l = some s → k₁.lookup m = some t →
      (Bond.equal l m).ClosedIn k₁ := by
    -- once both paths have a shape, whatever is suggested is for one of them
    intro k₁ s t hs ht p u hu
    cases hu with
    | right => simp [ht]
    | left => simp [hs]
  unfold unifyEqual at hu
  split at hu
  · next s hl hm =>
    cases hu
    have hl' : (Assoc.put m s.freeze k).lookup l = some s := Known.extends_put hm _ _ hl
    have hm' := Assoc.lookup_put_self m s.freeze k
    refine ⟨.learn .refl hm (.right hl), both hl' hm', fun _ => ⟨_, _, hl', hm', ?_⟩, by simp⟩
    simpa using Shape.same_refl (hk _ _ hl)
  · next s hl hm =>
    cases hu
    have hm' : (Assoc.put l s.freeze k).lookup m = some s := Known.extends_put hl _ _ hm
    have hl' := Assoc.lookup_put_self l s.freeze k
    refine ⟨.learn .refl hl (.left hm), both hl' hm', fun _ => ⟨_, _, hl', hm', ?_⟩, by simp⟩
    simpa using Shape.same_refl (hk _ _ hm)
  · next s t hl hm =>
    split at hu
    · next hst =>
      cases hu
      exact ⟨.refl, both hl hm, fun _ => ⟨s, t, hl, hm, hst⟩, by simp⟩
    · cases hu
  · next hl hm =>
    cases hu
    refine ⟨.refl, fun p s hs => ?_, by simp, fun _ => rfl⟩
    cases hs with
    | right hs => simp only [hl] at hs; cases hs
    | left hs => simp only [hm] at hs; cases hs

/-- An attempt at a length takes an object without a shape for a sequence, and the length for a
whole number. -/
theorem attempt_length {o m : String} {k k' : Known} {b : Bool}
    (hu : unifyLength o m k = (b, k')) : (Bond.length o m).Attempt k b k' := by
  have closed : ∀ {k₁ : Known}, (k₁.lookup o).isSome → (k₁.lookup m).isSome →
      (Bond.length o m).ClosedIn k₁ := by
    intro k₁ ho hm p s hs
    cases hs with
    | lengthObject => exact ho
    | lengthMember => exact hm
  -- the second step, from what the first one leaves
  have second : ∀ {a k₁}, Known.Grows (.length o m) k k₁ → (k₁.lookup o).isSome →
      (a = false → k₁ = k) →
      (if Assoc.has m k₁ then (a, k₁) else (true, Assoc.put m Shape.i64.freeze k₁)) = (b, k') →
      (Bond.length o m).Attempt k b k' := by
    intro a k₁ hg ho ha hu
    split at hu
    · next hm =>
      cases hu
      exact ⟨hg, closed ho hm, fun _ => ⟨ho, hm⟩, ha⟩
    · next hm =>
      cases hu
      have hm' : k₁.lookup m = none := Option.not_isSome_iff_eq_none.mp hm
      have hne : m ≠ o := by
        rintro rfl
        rw [hm'] at ho
        cases ho
      have ho₂ := (Known.extends_put (s := Shape.i64.freeze) hm').isSome ho
      have hm₂ : ((Assoc.put m Shape.i64.freeze k₁).lookup m).isSome := by
        rw [Assoc.lookup_put_self]; rfl
      exact ⟨.learn hg hm' (.lengthMember hne), closed ho₂ hm₂, fun _ => ⟨ho₂, hm₂⟩, by simp⟩
  unfold unifyLength at hu
  cases ho : Assoc.has o k with
  | true =>
    refine second (a := false) .refl ho (fun _ => rfl) (Eq.trans ?_ hu)
    cases hm : Assoc.has m k <;> simp [ho, hm]
  | false =>
    have ho' : k.lookup o = none := by
      rw [← Option.not_isSome_iff_eq_none]
      exact Bool.eq_false_iff.mp ho
    have ho₁ : ((Assoc.put o anyVector.freeze k).lookup o).isSome := by
      rw [Assoc.lookup_put_self]; rfl
    refine second (a := true) (.learn .refl ho' (.lengthObject o m)) ho₁ (by simp) (Eq.trans ?_ hu)
    cases hm : Assoc.has m (Assoc.put o anyVector.freeze k) <;> simp [ho, hm]

/-- A key that is a whole number or a text tells its object. -/
def tellsObject (t : Shape) : Bool := t.flag Trait.integer || t.flag Trait.string

/-- A container tells its keys. -/
def tellsKey (t : Shape) : Bool := t.flag Trait.vector || (t.flag Trait.object || t.flag Trait.map)

/-- What is tried for the object and the key of a member before the member itself. -/
structure KeyTried (o key m : String) (k : Known) (b : Bool) (k' : Known) : Prop where
  grows : Known.Grows (.member o key m) k k'
  idle : b = false → k' = k
  object : b = true → (k'.lookup o).isSome
  /-- The object has a shape if the key tells it, and the key if the object tells it. -/
  told : ∀ t, k'.lookup key = some t → tellsObject t = true → (k'.lookup o).isSome
  toldKey : ∀ t, k'.lookup o = some t → tellsKey t = true → (k'.lookup key).isSome

/-- A suggested shape is learnt, after which the object and the key have one. -/
theorem KeyTried.learn {o key m p : String} {k : Known} {s : Shape} (hp : k.lookup p = none)
    (hs : Bond.Suggests (fun q => k.lookup q) (.member o key m) p s)
    (ho : ((Assoc.put p s.freeze k).lookup o).isSome)
    (hk : ((Assoc.put p s.freeze k).lookup key).isSome) :
    KeyTried o key m k true (Assoc.put p s.freeze k) :=
  ⟨.learn .refl hp hs, nofun, fun _ => ho, fun _ _ _ => ho, fun _ _ _ => hk⟩

theorem KeyTried.rest {o key m : String} {k : Known}
    (told : ∀ t, k.lookup key = some t → tellsObject t = true → (k.lookup o).isSome)
    (toldKey : ∀ t, k.lookup o = some t → tellsKey t = true → (k.lookup key).isSome) :
    KeyTried o key m k false k :=
  ⟨.refl, fun _ => rfl, nofun, told, toldKey⟩

/-- Trying the object and the key does as `KeyTried` says. -/
theorem keyTried_unifyKey {o key m : String} {k k' : Known} {b : Bool}
    (hu : unifyKey o key k = (b, k')) : KeyTried o key m k b k' := by
  unfold unifyKey at hu
  split at hu
  · next t ho hk =>
    -- the key has a shape, and the object has none
    have hne : key ≠ o := Known.ne_of_lookup ho hk
    split at hu
    · next hi =>
      cases hu
      exact .learn ho (.objectOfInteger hne hk hi) (by simp [Assoc.lookup_put_self])
        (by simp [Assoc.lookup_put_of_ne hne, hk])
    · next hi =>
      split at hu
      · next hs =>
        cases hu
        exact .learn ho (.objectOfString hne hk (by simpa using hi) hs)
          (by simp [Assoc.lookup_put_self]) (by simp [Assoc.lookup_put_of_ne hne, hk])
      · next hs =>
        cases hu
        refine .rest (fun t' ht' htells => ?_) (by simp [hk])
        rw [hk] at ht'
        cases ht'
        simp [tellsObject, hi, hs] at htells
  · next t ho hk =>
    -- the object has a shape, and the key has none
    have hne : key ≠ o := (Known.ne_of_lookup hk ho).symm
    split at hu
    · next hv =>
      cases hu
      exact .learn hk (.keyOfVector hne ho hv) (by simp [Assoc.lookup_put_of_ne hne.symm, ho])
        (by simp [Assoc.lookup_put_self])
    · next hv =>
      split at hu
      · next hom =>
        cases hu
        exact .learn hk (.keyOfObject hne ho (by simpa using hv) hom)
          (by simp [Assoc.lookup_put_of_ne hne.symm, ho]) (by simp [Assoc.lookup_put_self])
      · next hom =>
        cases hu
        refine .rest (by simp [ho]) fun t' ht' htells => ?_
        rw [ho] at ht'
        cases ht'
        simp [tellsKey, hv, hom] at htells
  · next hnot₁ hnot₂ =>
    -- both have a shape, or neither
    cases hu
    refine .rest (fun t ht _ => ?_) fun t ht _ => ?_
    · by_contra hnone
      exact hnot₁ t (Option.not_isSome_iff_eq_none.mp hnone) ht
    · by_contra hnone
      exact hnot₂ t ht (Option.not_isSome_iff_eq_none.mp hnone)

/-- A container that says what it holds tells its keys. -/
theorem tellsKey_of_elementOf? {t e : Shape} (h : elementOf? t = some e) : tellsKey t = true := by
  unfold elementOf? at h
  cases hv : t.flag Trait.vector with
  | true => simp [tellsKey, hv]
  | false =>
    cases hom : t.flag Trait.object || t.flag Trait.map with
    | true => simp [tellsKey, hom]
    | false => simp [hv, hom] at h

/-- A proper container says of what it holds that it is of a proper shape. -/
theorem proper_of_elementOf? {t e : Shape} (ht : t.Proper) (h : elementOf? t = some e) :
    e.Proper := by
  unfold elementOf? at h
  have he := (Option.filter_eq_some_iff.mp h).1
  split at he
  · exact ht.generics (List.mem_of_getElem? he)
  · split at he
    · exact ht.generics (List.mem_of_getElem? he)
    · cases he

/-- An attempt at a member goes by the object and the key first, and then gives the member the shape
that the object holds. -/
theorem attempt_member {o key m : String} {k k' : Known} {b : Bool}
    (hu : unifyMember o key m k = (b, k')) : (Bond.member o key m).Attempt k b k' := by
  obtain ⟨a, k₁, hk₁⟩ : ∃ a k₁, unifyKey o key k = (a, k₁) := ⟨_, _, rfl⟩
  have hkey : KeyTried o key m k a k₁ := keyTried_unifyKey hk₁
  -- the closing of the relation once the member has been looked at
  have closing : ∀ {k₂ : Known}, k₂.lookup o = k₁.lookup o → k₂.lookup key = k₁.lookup key →
      (∀ t e, k₂.lookup o = some t → elementOf? t = some e → (k₂.lookup m).isSome) →
      (Bond.member o key m).ClosedIn k₂ := by
    intro k₂ ho hk hm p s hs
    cases hs with
    | objectOfInteger _ hk' hi => exact ho ▸ hkey.told _ (hk ▸ hk') (by simp [tellsObject, hi])
    | objectOfString _ hk' _ hs => exact ho ▸ hkey.told _ (hk ▸ hk') (by simp [tellsObject, hs])
    | keyOfVector _ ho' hv => exact hk ▸ hkey.toldKey _ (ho ▸ ho') (by simp [tellsKey, hv])
    | keyOfObject _ ho' _ hom => exact hk ▸ hkey.toldKey _ (ho ▸ ho') (by simp [tellsKey, hom])
    | element _ _ ho' he => exact hm _ _ ho' he
  have finish : ∀ {b' k₂}, (b', k₂) = (b, k') → Known.Grows (.member o key m) k k₂ →
      (Bond.member o key m).ClosedIn k₂ → (b' = true → (k₂.lookup o).isSome) →
      (b' = false → k₂ = k) → (Bond.member o key m).Attempt k b k' := by
    rintro b' k₂ ⟨⟩ hg hc ho hi
    exact ⟨hg, hc, ho, hi⟩
  unfold unifyMember at hu
  simp only [hk₁] at hu
  split at hu
  · next hm =>
    exact finish hu hkey.grows (closing rfl rfl fun _ _ _ _ => hm) hkey.object hkey.idle
  · next hm =>
    have hm' : k₁.lookup m = none :=
      Option.not_isSome_iff_eq_none.mp (by simpa [Assoc.has] using hm)
    split at hu
    · next e he =>
      obtain ⟨t, ho, het⟩ := Option.bind_eq_some_iff.mp he
      have hne : m ≠ o := (Known.ne_of_lookup hm' ho).symm
      -- a container with an element has settled its key
      have hne' : m ≠ key := by
        rintro rfl
        have hsome := hkey.toldKey t ho (tellsKey_of_elementOf? het)
        rw [hm'] at hsome
        cases hsome
      have ho₂ : (Assoc.put m e.freeze k₁).lookup o = k₁.lookup o :=
        Assoc.lookup_put_of_ne hne.symm _ _
      refine finish hu (.learn hkey.grows hm' (.element hne hne' ho het)) (closing ho₂
        (Assoc.lookup_put_of_ne hne'.symm _ _) fun _ _ _ _ => ?_) (fun _ => ?_) (by simp)
      · rw [Assoc.lookup_put_self]; rfl
      · rw [ho₂, ho]; rfl
    · next he =>
      refine finish hu hkey.grows (closing rfl rfl fun t e ho het => ?_) hkey.object hkey.idle
      rw [ho, Option.bind_some, het] at he
      cases he

/-- What an attempt at a bond does if it comes off. -/
theorem States.attempt {r : Relation} {c : Bond} {k k' : Known} {b : Bool} (hr : r.States c)
    (hk : k.Proper) (hu : r.unify k = .ok (b, k')) : c.Attempt k b k' := by
  cases hr with
  | equal h => exact attempt_equal hk (unify_of_equates h k ▸ hu)
  | length o m => exact attempt_length (Except.ok.inj (unify_lengthRelation o m k ▸ hu))
  | member o key m => exact attempt_member (Except.ok.inj (unify_memberRelation o key m k ▸ hu))

/-- An attempt at a bond fails only where paths of one shape have different ones. -/
theorem States.attempt_fails {r : Relation} {c : Bond} {k : Known} {e : Error} (hr : r.States c)
    (hu : r.unify k = .error e) :
    ∃ l m s t, c = .equal l m ∧ k.lookup l = some s ∧ k.lookup m = some t ∧ s.same t = false ∧
      e = .conflict l s.text m t.text := by
  cases hr with
  | @equal _ l m h =>
    rw [unify_of_equates h, unifyEqual] at hu
    split at hu
    · cases hu
    · cases hu
    · next s t hl hm =>
      split at hu
      · cases hu
      · next hst =>
        cases hu
        exact ⟨l, m, s, t, rfl, hl, hm, by simpa using hst, rfl⟩
    · cases hu
  | length o m => cases (unify_lengthRelation o m k).symm.trans hu
  | member o key m => cases (unify_memberRelation o key m k).symm.trans hu

end Relation

end TypeSketch
