import TypeSketch.Proofs.Number.Rounding
import TypeSketch.Proofs.Shape.Checked

/-!
# Shapes of samples — ambiguous points in time

The shape of a sample is refused for one reason: a whole number under a name that speaks of time
(`SpeaksOfTime`) counts seconds of the seventies or milliseconds that lost digits (`Ambiguous`).
The first such number in the order of the document is the one that is told (`sample_refused`).

The first such number is found by one induction over the value: a draft settles a question
(`Settles`) if with any numbers it fails where the question has an answer, and one draft after the
other settles the first question and then the second (`Settles.bind`). So the order in which numbers
are met is read off the order in which the shape is drafted.
-/

namespace TypeSketch

/-- The whole numbers whose shape counts, in the order of the document, each with the path of names
to it. Of an array the first element counts only. -/
def Json.integersBelow (path : String) : Json → List (String × Int)
  | .int n => [(path, n)]
  | .arr (x :: _) => x.integersBelow path
  | .obj members => ofMembers path members
  | _ => []
where
  /-- The whole numbers in members. -/
  ofMembers (path : String) : List (String × Json) → List (String × Int)
    | [] => []
    | (name, v) :: rest => v.integersBelow (Text.joinName path name) ++ ofMembers path rest

/-! ### Names that speak of time -/

/-- In snake case, the path holds `_ts`, `time` or `_at`. -/
def SpeaksOfTime (path : String) : Prop :=
  ∃ part ∈ ["_ts", "time", "_at"], part.toList <:+: (Text.snakeCase path).toList

theorem Shape.isTimeLike_iff {path : String} : isTimeLike path = true ↔ SpeaksOfTime path := by
  simp only [isTimeLike, SpeaksOfTime, Text.snakeCase, String.toList_ofList, Bool.or_eq_true,
    Text.occursIn_iff, List.mem_cons, List.not_mem_nil, or_false, exists_eq_or_imp, exists_eq_left,
    or_assoc]

/-- A whole number at a path that is refused. -/
def Ambiguous (q : String × Int) : Prop :=
  100000000 ≤ q.2 ∧ q.2 < 180000000 ∧ SpeaksOfTime q.1

instance : DecidablePred SpeaksOfTime := fun _ => decidable_of_iff _ Shape.isTimeLike_iff

instance : DecidablePred Ambiguous := fun _ => inferInstanceAs (Decidable (_ ∧ _ ∧ _))

/-! ### Units -/

namespace Timestamp

open Binary64

/-- A number below one in size is at least no positive whole number. -/
theorem not_atLeast_of_isTiny {x : Binary64} (h : isTiny x = true) {k : Int} (hk : 0 < k) :
    x.atLeast k = false := by
  cases x with
  | nan | infinite => cases h
  | finite negative m e =>
    have habs : units negative m e ≤ units false m e := by
      cases negative with
      | false => exact Int.le_refl _
      | true => exact Int.le_trans (units_true_nonpos m e) (Int.natCast_nonneg _)
    have hsmall : units false m e < 1 * unitsOfOne := by
      rw [isTiny, Bool.not_eq_true', atLeast_finite, decide_eq_false_iff_not] at h
      exact Int.not_le.mp h
    have hone : 1 * unitsOfOne ≤ k * unitsOfOne :=
      Int.mul_le_mul_of_nonneg_right hk (Int.le_of_lt unitsOfOne_pos)
    rw [atLeast_finite, decide_eq_false_iff_not]
    omega

/-- No unit is guessed for the whole numbers of a range. -/
theorem unitOf_of_mem {n : Int} (hlow : 100000000 ≤ n) (hhigh : n < 180000000) :
    unitOf (ofInt n) = .error (.ambiguousTimestamp (ofInt n)) := by
  have hleast : (ofInt n).atLeast 100000000 = true :=
    (atLeast_ofInt (by decide) (by decide) n).trans (decide_eq_true hlow)
  have hmost : (ofInt n).atLeast 180000000 = false :=
    (atLeast_ofInt (by decide) (by decide) n).trans (decide_eq_false (Int.not_le.mpr hhigh))
  have htiny : ¬ isTiny (ofInt n) = true := fun h => by
    rw [not_atLeast_of_isTiny h (by decide)] at hleast
    cases hleast
  rw [unitOf, if_neg htiny, hleast, hmost]
  rfl

/-- A unit is guessed for every other whole number. -/
theorem exists_unitOf {n : Int} (h : ¬ (100000000 ≤ n ∧ n < 180000000)) :
    ∃ unit, unitOf (ofInt n) = .ok unit := by
  have hrange : ¬ ((ofInt n).atLeast 100000000 && !(ofInt n).atLeast 180000000) = true := by
    rw [atLeast_ofInt (by decide) (by decide), atLeast_ofInt (by decide) (by decide)]
    simpa using h
  rw [unitOf, if_neg hrange]
  repeat' split
  all_goals exact ⟨_, rfl⟩

end Timestamp

namespace Shape

variable {α β : Type}

/-- An ambiguous whole number is told, or there is a result. -/
def Tells : Option (String × Int) → Except Error α → Prop
  | some q, x => x = .error (.ambiguousTimestamp (Binary64.ofInt q.2))
  | none, x => ∃ a, x = .ok a

/-- With any numbers, the draft fails at the ambiguous whole number, or comes off if there is
none. -/
def Settles (first? : Option (String × Int)) (d : Draft α) : Prop :=
  ∀ supply, Tells first? (d.outcome supply).1

variable {first? then? : Option (String × Int)}

theorem Settles.pure (a : α) : Settles none (pure a : Draft α) := fun _ => ⟨a, rfl⟩

theorem Settles.shapeNumber : Settles none Draft.shapeNumber := fun _ => ⟨_, rfl⟩

/-- One draft after the other settles the first question, and then the second. -/
theorem Settles.bind {d : Draft α} {f : α → Draft β} (hd : Settles first? d)
    (hf : ∀ a, Settles then? (f a)) : Settles (first?.or then?) (d >>= f) := by
  intro supply
  cases first? with
  | some q => exact congrArg Prod.fst (Draft.outcome_bind_error (Prod.ext (hd supply) rfl))
  | none =>
    obtain ⟨a, ha⟩ := hd supply
    rw [Draft.outcome_bind_ok (Prod.ext ha rfl), Option.none_or]
    exact hf a _

theorem Settles.map {d : Draft α} (hd : Settles first? d) (f : α → β) :
    Settles first? (do return f (← d)) := by
  rw [← Option.or_none (o := first?)]
  exact hd.bind fun a => .pure (f a)

/-- The shape of a whole number is refused just if it is ambiguous at its path. -/
theorem settles_ofInt (n : Int) (path : String) :
    Settles ([(path, n)].find? (Ambiguous ·)) (Draft.ofExcept (ofInt n path)) := by
  by_cases hamb : Ambiguous (path, n)
  · rw [List.find?_cons_of_pos (p := (Ambiguous ·)) (decide_eq_true hamb)]
    obtain ⟨hlow, hhigh, htime⟩ := hamb
    intro supply
    have hsmall : ¬ n > Json.maxInt := by
      unfold Json.maxInt
      omega
    have hlike : ¬ (!isTimeLike path) = true := by simp [isTimeLike_iff.mpr htime]
    rw [ofInt, if_neg hsmall, if_neg hlike, Timestamp.unitOf_of_mem hlow hhigh]
    rfl
  · rw [List.find?_cons_of_neg (p := (Ambiguous ·)) (by simpa using hamb), List.find?_nil]
    have hok : ∃ s, ofInt n path = .ok s := by
      rw [ofInt]
      split
      · exact ⟨_, rfl⟩
      · split
        · exact ⟨_, rfl⟩
        · next hlike =>
          have htime : SpeaksOfTime path := isTimeLike_iff.mp (by simpa using hlike)
          obtain ⟨unit, hunit⟩ := Timestamp.exists_unitOf (n := n) fun hrange =>
            hamb ⟨hrange.1, hrange.2, htime⟩
          rw [hunit]
          exact ⟨_, rfl⟩
    exact fun _ => hok

mutual

/-- The shape of a value is refused just if a whole number in it is ambiguous. -/
theorem settles_ofJson (path : String) :
    ∀ v : Json, Settles ((v.integersBelow path).find? (Ambiguous ·)) (ofJson path v)
  | .null | .bool _ | .str _ | .float _ | .arr [] => by
    rw [ofJson]
    exact .pure _
  | .int n => by
    rw [ofJson]
    exact settles_ofInt n path
  | .arr (x :: _) => by
    rw [ofJson, Json.integersBelow]
    exact (settles_ofJson path x).map vector
  | .obj members => by
    rw [ofJson, Json.integersBelow, ← Option.or_none (o := List.find? _ _)]
    exact (settles_ofMembers path members).bind fun fields =>
      Settles.shapeNumber.map fun n => struct ("struct_" ++ toString n) fields

/-- The entries of members are refused just if a whole number below them is ambiguous. -/
theorem settles_ofMembers (path : String) : ∀ members : List (String × Json),
    Settles ((Json.integersBelow.ofMembers path members).find? (Ambiguous ·))
      (ofMembers path members)
  | [] => by
    rw [ofMembers]
    exact .pure _
  | (name, v) :: rest => by
    rw [ofMembers, Json.integersBelow.ofMembers, List.find?_append]
    exact (settles_ofJson _ v).bind fun s =>
      (settles_ofMembers path rest).map (field name (nameAfter _ s) :: ·)

end

/-- The shape of a sample is refused exactly for an ambiguous whole number, and the first one in
the order of the document is told. -/
theorem sample_refused (sample : Json) (path : String) (supply : Supply) :
    Checked.ofSample sample path = ofSample sample path ∧
      ((∃ e, ((Checked.ofSample sample path).outcome supply).1 = .error e) ↔
        ∃ q ∈ sample.integersBelow path, Ambiguous q) ∧
      ∀ e, ((Checked.ofSample sample path).outcome supply).1 = .error e →
        ∃ before q after, sample.integersBelow path = before ++ q :: after ∧
          (∀ p ∈ before, ¬ Ambiguous p) ∧ Ambiguous q ∧
          e = .ambiguousTimestamp (Binary64.ofInt q.2) := by
  have hsettled : Settles ((sample.integersBelow path).find? (Ambiguous ·))
      (ofSample sample path) := (settles_ofJson path sample).map _
  rw [Checked.ofSample_eq]
  refine ⟨rfl, ?_⟩
  -- The question that is settled has an answer just if there is an ambiguous number.
  cases hfirst : (sample.integersBelow path).find? (Ambiguous ·) with
  | none =>
    rw [hfirst] at hsettled
    obtain ⟨s, hs⟩ := hsettled supply
    have hnone : ∀ q ∈ sample.integersBelow path, ¬ Ambiguous q := by
      simpa using List.find?_eq_none.mp hfirst
    rw [hs]
    exact ⟨⟨nofun, fun ⟨q, hq, hamb⟩ => absurd hamb (hnone q hq)⟩, nofun⟩
  | some q =>
    rw [hfirst] at hsettled
    obtain ⟨hamb, before, after, hsplit, hbefore⟩ := List.find?_eq_some_iff_append.mp hfirst
    rw [hsettled supply]
    refine ⟨⟨fun _ => ⟨q, List.mem_of_find?_eq_some hfirst, of_decide_eq_true hamb⟩,
      fun _ => ⟨_, rfl⟩⟩, fun e he => ?_⟩
    cases he
    exact ⟨before, q, after, hsplit, by simpa using hbefore, of_decide_eq_true hamb, rfl⟩

end Shape

end TypeSketch
