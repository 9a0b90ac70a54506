import Mathlib.Data.List.Forall2
import Mathlib.Data.List.Nodup
import Mathlib.Data.List.Perm.Subperm
import TypeSketch.Assoc

/-!
# Tables with distinct keys

`List.lookup` finds the first entry of a key.  When no key stands twice, it finds *the* entry
(`lookup_eq_some_iff_mem`), so a table is what its look-ups are: two tables of one length, the one
covered by the other, give related values under every key (`covers_iff`).

The statements come in three groups: lists whose items are related one by one; look-ups and what
writing (`put`, `putAll`), leaving out (`erase`) and renaming of keys do to them; and look-ups in
two tables that are related (`Option.Rel`), which is how two records or two shapes are compared.
What is said of `put` is said in full by `lookup_put` and `map_fst_put`: it changes what is found
under one key, and adds the key at the end if it was not there.
-/

namespace TypeSketch

variable {α β γ : Type}

/-! ### Lists item by item -/

/-- Related items are related otherwise. -/
theorem forall₂_imp_of_mem {R S : α → β → Prop} {xs : List α} {ys : List β}
    (h : List.Forall₂ R xs ys) (step : ∀ x ∈ xs, ∀ y ∈ ys, R x y → S x y) :
    List.Forall₂ S xs ys := by
  induction h with
  | nil => exact .nil
  | cons hr _ ih =>
    exact .cons (step _ List.mem_cons_self _ List.mem_cons_self hr)
      (ih fun x hx y hy => step x (List.mem_cons_of_mem _ hx) y (List.mem_cons_of_mem _ hy))

/-- Turn a relation between the items of two lists round. -/
theorem forall₂_symm_of_mem {R : α → β → Prop} {S : β → α → Prop} {xs : List α} {ys : List β}
    (h : List.Forall₂ R xs ys) (step : ∀ x ∈ xs, ∀ y ∈ ys, R x y → S y x) :
    List.Forall₂ S ys xs :=
  (forall₂_imp_of_mem (S := flip S) h step).flip

/-- Compose relations between the items of three lists. -/
theorem forall₂_trans_of_mem {R : α → β → Prop} {S : β → γ → Prop} {T : α → γ → Prop}
    {xs : List α} {ys : List β} {zs : List γ} (h : List.Forall₂ R xs ys)
    (h' : List.Forall₂ S ys zs)
    (step : ∀ x ∈ xs, ∀ y ∈ ys, ∀ z ∈ zs, R x y → S y z → T x z) : List.Forall₂ T xs zs := by
  induction h generalizing zs with
  | nil => cases h'; exact .nil
  | cons hr _ ih =>
    cases h' with
    | cons hs hss =>
      exact .cons (step _ List.mem_cons_self _ List.mem_cons_self _ List.mem_cons_self hr hs)
        (ih hss fun x hx y hy z hz => step x (List.mem_cons_of_mem _ hx) y
          (List.mem_cons_of_mem _ hy) z (List.mem_cons_of_mem _ hz))

/-- What is related to two lists put together comes apart where they do. -/
theorem exists_append_of_forall₂ {R : α → β → Prop} {xs xs' : List α} {ys : List β}
    (h : List.Forall₂ R (xs ++ xs') ys) :
    ∃ zs zs', ys = zs ++ zs' ∧ List.Forall₂ R xs zs ∧ List.Forall₂ R xs' zs' := by
  induction xs generalizing ys with
  | nil => exact ⟨[], ys, rfl, .nil, h⟩
  | cons x xs ih =>
    cases h with
    | @cons _ y _ _ hr h =>
      obtain ⟨zs, zs', rfl, hzs, hzs'⟩ := ih h
      exact ⟨y :: zs, zs', rfl, .cons hr hzs, hzs'⟩

/-- Lists related item by item are related at each place. -/
theorem rel_getElem?_of_forall₂ {R : α → β → Prop} {xs : List α} {ys : List β}
    (h : List.Forall₂ R xs ys) (i : Nat) : Option.Rel R xs[i]? ys[i]? := by
  induction h generalizing i with
  | nil => exact .none
  | cons hr _ ih =>
    cases i with
    | zero => exact .some hr
    | succ i => simpa using ih i

/-- Each item of the second list is related to one of the first. -/
theorem exists_of_forall₂ {R : α → β → Prop} {xs : List α} {ys : List β}
    (h : List.Forall₂ R xs ys) : ∀ y ∈ ys, ∃ x ∈ xs, R x y := by
  induction h with
  | nil => nofun
  | cons hr _ ih =>
    intro y hy
    rcases List.mem_cons.mp hy with rfl | hy
    · exact ⟨_, List.mem_cons_self, hr⟩
    · obtain ⟨x, hx, hxy⟩ := ih y hy
      exact ⟨x, List.mem_cons_of_mem _ hx, hxy⟩

/-- Going through a list and its image side by side, from states that one turns into the other. -/
theorem foldl_map_of {α' β' : Type} {f : β → α → β} {k : β' → α' → β'} {φ : α → α'}
    {g : β → β'} {P : β → Prop} {l : List α}
    (step : ∀ x ∈ l, ∀ b, P b → k (g b) (φ x) = g (f b x) ∧ P (f b x)) {b : β} (hb : P b) :
    (l.map φ).foldl k (g b) = g (l.foldl f b) ∧ P (l.foldl f b) := by
  induction l generalizing b with
  | nil => exact ⟨rfl, hb⟩
  | cons x l ih =>
    rw [List.forall_mem_cons] at step
    obtain ⟨heq, hx⟩ := step.1 b hb
    rw [List.map_cons, List.foldl_cons, List.foldl_cons, heq]
    exact ih step.2 hx

/-- Going through two lists whose related items change a state alike. -/
theorem foldl_eq_of_forall₂ {R : α → α → Prop} {f : β → α → β}
    (step : ∀ b x y, R x y → f b y = f b x) {xs ys : List α} (h : List.Forall₂ R xs ys) (b : β) :
    ys.foldl f b = xs.foldl f b := by
  induction h generalizing b with
  | nil => rfl
  | cons hr _ ih => rw [List.foldl_cons, List.foldl_cons, step _ _ _ hr, ih]

namespace Assoc

/-! ### Look-ups -/

theorem mem_of_lookup {t : List (String × α)} {k : String} {v : α} (h : t.lookup k = some v) :
    (k, v) ∈ t := by
  obtain ⟨l₁, l₂, rfl, -⟩ := List.lookup_eq_some_iff.mp h
  simp

/-- Something is found under a key exactly if it is a key of the table. -/
theorem lookup_isSome_iff {t : List (String × α)} {k : String} :
    (t.lookup k).isSome ↔ k ∈ t.map Prod.fst := by
  induction t with
  | nil => simp
  | cons e rest ih =>
    obtain ⟨k', v'⟩ := e
    by_cases hk : k = k'
    · subst hk; simp
    · have hk' : (k == k') = false := by simpa using hk
      rw [List.lookup_cons, hk']
      simp [ih, hk]

/-- Changing the keys of a table, none into another, and its values changes what is found. -/
theorem lookup_map {f : String → String} (hf : Function.Injective f) (g : α → β)
    (t : List (String × α)) (k : String) :
    (t.map fun e => (f e.1, g e.2)).lookup (f k) = (t.lookup k).map g := by
  induction t with
  | nil => rfl
  | cons e rest ih =>
    obtain ⟨k', v⟩ := e
    have hb : (f k == f k') = (k == k') := hf.beq_eq
    rw [List.map_cons, List.lookup_cons, List.lookup_cons, hb, ih]
    cases k == k' <;> rfl

theorem lookup_mapValues (g : α → β) (t : List (String × α)) (k : String) :
    (t.map fun e => (e.1, g e.2)).lookup k = (t.lookup k).map g :=
  lookup_map Function.injective_id g t k

theorem lookup_eq_none_iff {t : List (String × α)} {k : String} :
    t.lookup k = none ↔ k ∉ t.map Prod.fst := by
  rw [← lookup_isSome_iff, Bool.not_eq_true, Option.isSome_eq_false_iff, Option.isNone_iff_eq_none]

/-- A key that only comes behind a table is not in it. -/
theorem lookup_eq_none_of_nodup {k : String} {t : List (String × α)} {keys : List String}
    (h : (t.map Prod.fst ++ k :: keys).Nodup) : t.lookup k = none := by
  refine lookup_eq_none_iff.mpr fun hmem => ?_
  exact List.disjoint_of_nodup_append h hmem List.mem_cons_self

/-- The one entry of a key is the one that is found. -/
theorem lookup_eq_some_iff_mem {t : List (String × α)} (ht : (t.map Prod.fst).Nodup)
    {k : String} {v : α} : t.lookup k = some v ↔ (k, v) ∈ t := by
  refine ⟨mem_of_lookup, fun h => ?_⟩
  induction t with
  | nil => cases h
  | cons e rest ih =>
    obtain ⟨k', v'⟩ := e
    rw [List.map_cons, List.nodup_cons] at ht
    rcases List.mem_cons.mp h with he | h
    · cases he; simp
    · have hmem : k ∈ rest.map Prod.fst := List.mem_map_of_mem (f := Prod.fst) h
      have hk : k ≠ k' := fun e => ht.1 (e ▸ hmem)
      have hk' : (k == k') = false := by simpa using hk
      rw [List.lookup_cons, hk']
      exact ih ht.2 h

/-- Entries of other keys can go. -/
theorem lookup_filter {p : String × α → Bool} {k : String} (hp : ∀ v, p (k, v) = true)
    (t : List (String × α)) : (t.filter p).lookup k = t.lookup k := by
  induction t with
  | nil => rfl
  | cons e rest ih =>
    obtain ⟨k', v⟩ := e
    by_cases hk : k = k'
    · subst hk
      rw [List.filter_cons_of_pos (hp v), List.lookup_cons_self, List.lookup_cons_self]
    · have hk' : (k == k') = false := by simpa using hk
      rw [List.filter_cons]
      split <;> simp only [List.lookup_cons, hk', ih]

theorem lookup_put (k k' : String) (v : α) (t : List (String × α)) :
    (put k v t).lookup k' = if k' = k then some v else t.lookup k' := by
  split
  · next h => rw [h, lookup_put_self]
  · next h => exact lookup_put_of_ne h v t

/-- Changing the keys of a table, none into another, and its values after writing a key. -/
theorem put_map {f : String → String} (hf : Function.Injective f) (g : α → β) (k : String) (v : α)
    (t : List (String × α)) : put (f k) (g v) (t.map fun e => (f e.1, g e.2)) =
      (put k v t).map fun e => (f e.1, g e.2) := by
  induction t with
  | nil => rfl
  | cons e rest ih =>
    obtain ⟨k', v'⟩ := e
    have hb : (f k' == f k) = (k' == k) := hf.beq_eq
    rw [List.map_cons, put, put, hb, ih]
    cases k' == k <;> rfl

theorem put_mapValues (g : α → β) (k : String) (v : α) (t : List (String × α)) :
    put k (g v) (t.map fun e => (e.1, g e.2)) = (put k v t).map fun e => (e.1, g e.2) :=
  put_map Function.injective_id g k v t

/-- Keys and values can be changed before or after writing entries, if no two keys are changed into
one. -/
theorem putAll_map {f : String → String} (hf : Function.Injective f) (g : α → β)
    (es t : List (String × α)) :
    putAll (es.map fun e => (f e.1, g e.2)) (t.map fun e => (f e.1, g e.2)) =
      (putAll es t).map fun e => (f e.1, g e.2) := by
  induction es generalizing t with
  | nil => rfl
  | cons e es ih =>
    have hrest := ih (put e.1 e.2 t)
    rw [← put_map hf] at hrest
    exact hrest

/-- Leaving out a key leaves what is found under the others. -/
theorem lookup_erase_of_ne {k k' : String} (h : k' ≠ k) (t : List (String × α)) :
    (erase k t).lookup k' = t.lookup k' := by
  induction t with
  | nil => rfl
  | cons e rest ih =>
    obtain ⟨k₁, v⟩ := e
    by_cases hk : k₁ = k
    · have hne : (k' == k₁) = false := by simpa [hk] using h
      simpa [erase, hk, List.lookup_cons, hne, hk ▸ hne] using ih
    · have hkeep : erase k ((k₁, v) :: rest) = (k₁, v) :: erase k rest := by simp [erase, hk]
      rw [hkeep, List.lookup_cons, List.lookup_cons, ih]

/-- Leaving out a key that is not there changes nothing. -/
theorem erase_of_not_has {k : String} {t : List (String × α)} (h : has k t = false) :
    erase k t = t := by
  have hk : k ∉ t.map Prod.fst := fun hm => by
    rw [has, lookup_isSome_iff.mpr hm] at h
    cases h
  refine List.filter_eq_self.mpr fun e he => ?_
  have hne : e.1 ≠ k := fun h => hk (h ▸ List.mem_map_of_mem (f := Prod.fst) he)
  simpa using hne

/-- Writing a key keeps the keys, or adds the key at the end. -/
theorem map_fst_put (k : String) (v : α) (t : List (String × α)) :
    (put k v t).map Prod.fst =
      if k ∈ t.map Prod.fst then t.map Prod.fst else t.map Prod.fst ++ [k] := by
  induction t with
  | nil => rfl
  | cons e rest ih =>
    obtain ⟨k', v'⟩ := e
    by_cases hk : k' = k
    · subst hk; simp [put]
    · have hk' : ¬ k = k' := fun h => hk h.symm
      simp only [put, beq_iff_eq, hk, if_false, List.map_cons, ih, List.mem_cons, hk', false_or]
      split <;> simp

/-- Writing a key keeps the keys distinct. -/
theorem nodup_put (k : String) (v : α) {t : List (String × α)} (h : (t.map Prod.fst).Nodup) :
    ((put k v t).map Prod.fst).Nodup := by
  rw [map_fst_put]
  split
  · exact h
  · next hk => exact List.nodup_append.mpr ⟨h, by simp, fun a ha b hb e => hk (by simp_all)⟩

theorem nodup_putAll (es : List (String × α)) {t : List (String × α)}
    (h : (t.map Prod.fst).Nodup) : ((putAll es t).map Prod.fst).Nodup := by
  induction es generalizing t with
  | nil => exact h
  | cons e es ih => exact ih (nodup_put e.1 e.2 h)

theorem nodup_ofList (es : List (String × α)) : ((ofList es).map Prod.fst).Nodup :=
  nodup_putAll es List.nodup_nil

/-- An entry after writing a key is the written one or was there before. -/
theorem mem_of_mem_put {k : String} {v : α} {t : List (String × α)} {e : String × α}
    (h : e ∈ put k v t) : e = (k, v) ∨ e ∈ t := by
  induction t with
  | nil => exact .inl (by simpa [put] using h)
  | cons e' rest ih =>
    obtain ⟨k', v'⟩ := e'
    by_cases hk : k' = k
    · simp only [put, beq_iff_eq, hk, if_true] at h
      rcases List.mem_cons.mp h with h | h
      · exact .inl h
      · exact .inr (List.mem_cons_of_mem _ h)
    · simp only [put, beq_iff_eq, hk, if_false] at h
      rcases List.mem_cons.mp h with h | h
      · exact .inr (h ▸ List.mem_cons_self)
      · exact (ih h).imp_right (List.mem_cons_of_mem _)

/-- An entry after writing entries is one of them or was there before. -/
theorem mem_of_mem_putAll {es t : List (String × α)} {e : String × α} (h : e ∈ putAll es t) :
    e ∈ es ∨ e ∈ t := by
  induction es generalizing t with
  | nil => exact .inr h
  | cons e' es ih =>
    rcases ih h with h | h
    · exact .inl (List.mem_cons_of_mem _ h)
    · exact (mem_of_mem_put h).imp_left fun heq : e = e' => heq ▸ List.mem_cons_self

/-- A table has no entries but those that it was made of. -/
theorem mem_of_mem_ofList {es : List (String × α)} {e : String × α} (h : e ∈ ofList es) : e ∈ es :=
  (mem_of_mem_putAll h).resolve_right List.not_mem_nil

/-- Writing a key that is there changes only its entry. -/
theorem forall₂_put {k : String} (v : α) {t : List (String × α)} (h : k ∈ t.map Prod.fst) :
    List.Forall₂ (fun e e' => e'.1 = e.1 ∧ (e' = e ∨ e' = (k, v))) t (put k v t) := by
  induction t with
  | nil => cases h
  | cons e rest ih =>
    obtain ⟨k', v'⟩ := e
    by_cases hk : k' = k
    · simp only [put, beq_iff_eq, hk, if_true]
      exact .cons ⟨rfl, .inr rfl⟩ (List.forall₂_same.mpr fun e _ => ⟨rfl, .inl rfl⟩)
    · simp only [put, beq_iff_eq, hk, if_false]
      rw [List.map_cons, List.mem_cons] at h
      exact .cons ⟨rfl, .inl rfl⟩ (ih (h.resolve_left fun e => hk e.symm))

/-- A key is written where it is first, else at the end. -/
theorem put_append (k : String) (v : α) (t u : List (String × α)) :
    put k v (t ++ u) = if k ∈ t.map Prod.fst then put k v t ++ u else t ++ put k v u := by
  induction t with
  | nil => simp
  | cons e rest ih =>
    obtain ⟨k', v'⟩ := e
    by_cases hk : k' = k
    · simp [put, hk]
    · have hk' : ¬ k = k' := fun e => hk e.symm
      simp only [List.cons_append, put, beq_iff_eq, hk, if_false, ih, List.map_cons,
        List.mem_cons, hk', false_or]
      split <;> rfl

/-- Writing what is found under a key changes nothing. -/
theorem put_of_lookup {k : String} {v : α} {t : List (String × α)} (h : t.lookup k = some v) :
    put k v t = t := by
  induction t with
  | nil => cases h
  | cons e rest ih =>
    obtain ⟨k', v'⟩ := e
    by_cases hk : k' = k
    · subst hk
      simp_all [put]
    · have hk' : (k == k') = false := by simpa using fun e => hk e.symm
      rw [List.lookup_cons, hk'] at h
      simp [put, hk, ih h]

/-- The last value written to a key stays. -/
theorem put_put (k : String) (v w : α) (t : List (String × α)) :
    put k w (put k v t) = put k w t := by
  induction t with
  | nil => simp [put]
  | cons e rest ih =>
    obtain ⟨k', v'⟩ := e
    by_cases hk : k' = k
    · simp [put, hk]
    · simp [put, hk, ih]

/-- Where one of two keys has its place, the order of writing them does not matter. -/
theorem put_comm {k k' : String} (hne : k ≠ k') (v w : α) {t : List (String × α)}
    (h : k ∈ t.map Prod.fst) : put k' w (put k v t) = put k v (put k' w t) := by
  induction t with
  | nil => cases h
  | cons e rest ih =>
    obtain ⟨k'', u⟩ := e
    by_cases hk : k'' = k
    · subst hk
      simp [put, hne]
    · rw [List.map_cons, List.mem_cons] at h
      by_cases hk' : k'' = k'
      · subst hk'
        simp [put, hk]
      · simp [put, hk, hk', ih (h.resolve_left fun e => hk e.symm)]

theorem mem_put_self (k : String) (v : α) (t : List (String × α)) : (k, v) ∈ put k v t :=
  mem_of_lookup (lookup_put_self k v t)

/-- An entry stays after writing a key, unless it is the one that was found there. -/
theorem mem_put_of_mem (k : String) (v : α) {k' : String} {v' : α} {t : List (String × α)}
    (h : (k', v') ∈ t) : (k', v') ∈ put k v t ∨ k' = k ∧ t.lookup k' = some v' := by
  induction t with
  | nil => cases h
  | cons e rest ih =>
    obtain ⟨k'', v''⟩ := e
    by_cases hk : k'' = k
    · subst hk
      rcases List.mem_cons.mp h with he | h
      · cases he
        exact .inr ⟨rfl, by simp⟩
      · simp [put, h]
    · simp only [put, beq_iff_eq, hk, if_false]
      rcases List.mem_cons.mp h with he | h
      · exact .inl (he ▸ List.mem_cons_self)
      · rcases ih h with h | ⟨rfl, hl⟩
        · exact .inl (List.mem_cons_of_mem _ h)
        · have hne : (k' == k'') = false := beq_false_of_ne fun e => hk e.symm
          exact .inr ⟨rfl, by rw [List.lookup_cons, hne]; exact hl⟩

/-- Entries under keys that are all new stand behind those that were there. -/
theorem putAll_of_nodup {es t : List (String × α)} (h : ((t ++ es).map Prod.fst).Nodup) :
    putAll es t = t ++ es := by
  induction es generalizing t with
  | nil => exact (List.append_nil t).symm
  | cons e es ih =>
    rw [List.append_cons] at h
    have hnew : e.1 ∉ t.map Prod.fst := by
      rw [List.append_assoc, List.map_append] at h
      exact fun hmem => List.disjoint_of_nodup_append h hmem List.mem_cons_self
    have hput : put e.1 e.2 t = t ++ [e] := by
      have happend := put_append e.1 e.2 t []
      rwa [List.append_nil, if_neg hnew] at happend
    rw [List.append_cons, ← ih h, ← hput]
    rfl

theorem ofList_of_nodup {es : List (String × α)} (h : (es.map Prod.fst).Nodup) :
    ofList es = es :=
  putAll_of_nodup h

/-- Of several values for one key the last one stays. -/
theorem lookup_putAll (es t : List (String × α)) (k : String) :
    (putAll es t).lookup k = (es.reverse.lookup k).or (t.lookup k) := by
  induction es generalizing t with
  | nil => rfl
  | cons e es ih =>
    have hstep : putAll (e :: es) t = putAll es (put e.1 e.2 t) := rfl
    rw [hstep, ih, lookup_put, List.reverse_cons, List.lookup_append, Option.or_assoc]
    congr 1
    obtain ⟨key, v⟩ := e
    by_cases hk : k = key
    · subst hk
      simp
    · have hne : (k == key) = false := beq_false_of_ne hk
      simp [hk, List.lookup_cons, hne]

/-- What is found after writing some entries is one of them or was found before. -/
theorem mem_of_lookup_putAll {es t : List (String × α)} {k : String} {v : α}
    (h : (putAll es t).lookup k = some v) : (k, v) ∈ es ∨ t.lookup k = some v := by
  rw [lookup_putAll, Option.or_eq_some_iff] at h
  rcases h with h | ⟨-, h⟩
  · exact .inl (List.mem_reverse.mp (mem_of_lookup h))
  · exact .inr h

theorem isSome_putAll_of_mem {es t : List (String × α)} {k : String}
    (h : k ∈ es.map Prod.fst ∨ (t.lookup k).isSome) : ((putAll es t).lookup k).isSome := by
  rw [lookup_putAll, Option.isSome_or, Bool.or_eq_true, lookup_isSome_iff, List.map_reverse,
    List.mem_reverse]
  exact h

/-- A key that is not there goes behind the others. -/
theorem nodup_concat {t : List (String × α)} {k : String} (h : (t.map Prod.fst).Nodup)
    (hk : t.lookup k = none) (v : α) : ((t ++ [(k, v)]).map Prod.fst).Nodup := by
  rw [List.map_append]
  refine List.nodup_append.mpr ⟨h, List.nodup_singleton _, fun a ha b hb hab => ?_⟩
  obtain rfl : b = k := List.mem_singleton.mp hb
  exact lookup_eq_none_iff.mp hk (hab ▸ ha)

/-- What is found under a key hides another entry of it. -/
theorem lookup_or_of_lookup {t : List (String × α)} {k : String} {v : α}
    (h : t.lookup k = some v) (w : α) (k' : String) :
    (t.lookup k').or (List.lookup k' [(k, w)]) = t.lookup k' := by
  by_cases hk : k' = k
  · rw [hk, h, Option.some_or]
  · rw [List.lookup_cons, beq_false_of_ne hk]
    exact Option.or_none

/-- Tables of one length, each entry of the first with one of its key in the second: the look-ups
are related under every key, since no key of the second is left over. -/
theorem covers_iff {R : α → β → Prop} {t : List (String × α)} {u : List (String × β)}
    (ht : (t.map Prod.fst).Nodup) (hu : (u.map Prod.fst).Nodup) :
    (t.length = u.length ∧ ∀ e ∈ t, ∃ w, u.lookup e.1 = some w ∧ R e.2 w) ↔
      ∀ k, Option.Rel R (t.lookup k) (u.lookup k) := by
  constructor
  · rintro ⟨hlen, hcov⟩ k
    have hsub : t.map Prod.fst ⊆ u.map Prod.fst := by
      intro k' hk'
      obtain ⟨e, he, rfl⟩ := List.mem_map.mp hk'
      obtain ⟨w, hw, -⟩ := hcov e he
      exact List.mem_map_of_mem (f := Prod.fst) (mem_of_lookup hw)
    -- both have as many keys, so none of the second is left over
    have hperm : (t.map Prod.fst).Perm (u.map Prod.fst) :=
      (ht.subperm hsub).perm_of_length_le (by simp [hlen])
    cases hk : t.lookup k with
    | some v =>
      obtain ⟨w, hw, hr⟩ := hcov (k, v) (mem_of_lookup hk)
      rw [hw]
      exact .some hr
    | none =>
      have hnot : u.lookup k = none :=
        lookup_eq_none_iff.mpr fun h => lookup_eq_none_iff.mp hk (hperm.mem_iff.mpr h)
      rw [hnot]
      exact .none
  · intro h
    have hmem : ∀ k, k ∈ t.map Prod.fst ↔ k ∈ u.map Prod.fst := by
      intro k
      have hk := h k
      rw [← lookup_isSome_iff, ← lookup_isSome_iff]
      cases ht' : t.lookup k <;> cases hu' : u.lookup k <;> rw [ht', hu'] at hk <;> cases hk <;>
        simp
    refine ⟨?_, fun e he => ?_⟩
    · simpa using ((List.perm_ext_iff_of_nodup ht hu).mpr hmem).length_eq
    · have hk := h e.1
      rw [(lookup_eq_some_iff_mem ht).mpr he] at hk
      cases hw : u.lookup e.1 with
      | none => rw [hw] at hk; cases hk
      | some w =>
        rw [hw] at hk
        cases hk with
        | some hr => exact ⟨w, rfl, hr⟩

/-! ### Related look-ups -/

/-- Turn a relation between two look-ups round. -/
theorem rel_symm_of_mem {R : α → β → Prop} {S : β → α → Prop} {x : Option α} {y : Option β}
    (h : Option.Rel R x y) (step : ∀ v w, x = some v → y = some w → R v w → S w v) :
    Option.Rel S y x := by
  cases h with
  | none => exact .none
  | some hr => exact .some (step _ _ rfl rfl hr)

/-- Compose relations between three look-ups. -/
theorem rel_trans_of_mem {R : α → β → Prop} {S : β → γ → Prop} {T : α → γ → Prop}
    {x : Option α} {y : Option β} {z : Option γ} (h : Option.Rel R x y) (h' : Option.Rel S y z)
    (step : ∀ u v w, x = some u → y = some v → z = some w → R u v → S v w → T u w) :
    Option.Rel T x z := by
  cases h with
  | none => cases h'; exact .none
  | some hr =>
    cases h' with
    | some hs => exact .some (step _ _ _ rfl rfl rfl hr hs)

/-- Look-ups that fall back are related if both parts are. -/
theorem rel_or {R : α → β → Prop} {x x' : Option α} {y y' : Option β} (h : Option.Rel R x y)
    (h' : Option.Rel R x' y') : Option.Rel R (x.or x') (y.or y') := by
  cases h with
  | none => exact h'
  | some hr => exact .some hr

theorem rel_refl {R : α → α → Prop} (hR : ∀ v, R v v) (x : Option α) : Option.Rel R x x := by
  cases x with
  | none => exact .none
  | some v => exact .some (hR v)

/-- The same entries in another order, where entries of one key are related. -/
theorem rel_lookup_of_perm {R : α → α → Prop} {t u : List (String × α)} (h : t.Perm u)
    (hR : ∀ k v w, (k, v) ∈ t → (k, w) ∈ t → R v w) (k : String) :
    Option.Rel R (t.lookup k) (u.lookup k) := by
  cases ht : t.lookup k with
  | none =>
    have hu : u.lookup k = none := lookup_eq_none_iff.mpr fun hk =>
      lookup_eq_none_iff.mp ht ((h.map Prod.fst).mem_iff.mpr hk)
    rw [hu]
    exact .none
  | some v =>
    have hk : k ∈ u.map Prod.fst :=
      (h.map Prod.fst).mem_iff.mp (List.mem_map_of_mem (f := Prod.fst) (mem_of_lookup ht))
    obtain ⟨w, hw⟩ := Option.isSome_iff_exists.mp (lookup_isSome_iff.mpr hk)
    rw [hw]
    exact .some (hR k v w (mem_of_lookup ht) (h.mem_iff.mpr (mem_of_lookup hw)))

/-- What is read off related values is related. -/
theorem rel_bind {δ : Type} {R : α → β → Prop} {S : γ → δ → Prop} {x : Option α} {y : Option β}
    {f : α → Option γ} {g : β → Option δ} (h : Option.Rel R x y)
    (hfg : ∀ v w, R v w → Option.Rel S (f v) (g w)) : Option.Rel S (x.bind f) (y.bind g) := by
  cases h with
  | none => exact .none
  | some hr => exact hfg _ _ hr

theorem isSome_eq_of_rel {R : α → β → Prop} {x : Option α} {y : Option β}
    (h : Option.Rel R x y) : x.isSome = y.isSome := by
  cases h <;> rfl

/-- Look-ups that find equal values are equal. -/
theorem rel_eq_iff {x y : Option α} : Option.Rel (· = ·) x y ↔ x = y := by
  constructor
  · rintro (h | _)
    · rw [h]
    · rfl
  · rintro rfl
    cases x with
    | none => exact .none
    | some v => exact .some rfl

end Assoc

end TypeSketch
