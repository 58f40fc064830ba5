/-
  EntityFormulas/Proofs/Evaluation/Units.lean
  ===========================================
  **Which dimension and unit a sum has.**

  A sum or difference takes its unit from the operand that has one, and its dimension
  from the first operand that has one, each without looking at the other.  With the
  operands exchanged there is a result as well, and it has the same unit
  (`arithmetic_swap`).  Its dimension is the same, and belongs to the unit, exactly
  when the operands are `Matched`: they have no two dimensions to choose from, and no
  dimension without a unit joins a unit that has another dimension or none.
-/
import EntityFormulas.Evaluation.Arithmetic
import EntityFormulas.Proofs.Decimal.Operands

namespace EntityFormulas

namespace Quantity

/-! ### Tags -/

/-- If the quantity carries a unit, its dimension is that of an operand with this unit. -/
def Coherent (q l r : Quantity) : Prop :=
  ∀ u, q.unit = some u →
    (l.unit = some u ∧ q.dimension = l.dimension) ∨ (r.unit = some u ∧ q.dimension = r.dimension)

/-- A quantity brings no dimension of its own to a unit: it has a unit itself, or the other one
    has none, or it has no dimension or the other's. -/
def Joins (l r : Quantity) : Prop :=
  l.unit = none → r.unit ≠ none → l.dimension = none ∨ l.dimension = r.dimension

/-- Operands whose sum has only one dimension to take. -/
structure Matched (l r : Quantity) : Prop where
  dimensions : l.dimension = none ∨ r.dimension = none ∨ l.dimension = r.dimension
  left : l.Joins r
  right : r.Joins l

/-- Units that do not conflict are one unit, or there is at most one. -/
theorem unit_cases {l r : Quantity} (h : l.conflicts r = false) :
    l.unit = none ∨ r.unit = none ∨ l.unit = r.unit := by
  unfold conflicts at h
  cases hl : l.unit with
  | none => exact .inl rfl
  | some u =>
    cases hr : r.unit with
    | none => exact .inr (.inl rfl)
    | some u' =>
      rw [hl, hr] at h
      simp only [bne_eq_false_iff_eq] at h
      rw [h]
      exact .inr (.inr rfl)

theorem conflicts_comm (l r : Quantity) : l.conflicts r = r.conflicts l := by
  unfold conflicts
  cases l.unit with
  | none => cases r.unit <;> rfl
  | some u =>
    cases r.unit with
    | none => rfl
    | some u' => exact bne_comm

/-! ### Sums -/

section Merge

variable {x : Float} {l r : Quantity}

theorem merge_unit_comm {y : Float} (h : l.conflicts r = false) :
    (merge y r l).unit = (merge x l r).unit := by
  unfold merge
  rcases unit_cases h with h | h | h
  · rw [h, Option.or_none, Option.none_or]
  · rw [h, Option.or_none, Option.none_or]
  · rw [h]

theorem merge_dimension_comm_iff {y : Float} :
    (merge y r l).dimension = (merge x l r).dimension ↔
      l.dimension = none ∨ r.dimension = none ∨ l.dimension = r.dimension := by
  unfold merge
  cases l.dimension with
  | none => simp
  | some a =>
    cases r.dimension with
    | none => simp
    | some b => simp [eq_comm]

theorem or_eq_left_iff {a b : Option String} (h : a = none ∨ b = none ∨ a = b) :
    a.or b = a ↔ b = none ∨ b = a := by
  cases a with
  | none => simp
  | some d =>
    cases b with
    | none => simp
    | some d' => simpa [eq_comm] using h

theorem or_eq_right_iff {a b : Option String} (h : a = none ∨ b = none ∨ a = b) :
    a.or b = b ↔ a = none ∨ a = b := by
  cases a with
  | none => simp
  | some d => simp

/-- Where there is only one dimension to take, it belongs to the unit unless it joins one. -/
theorem merge_coherent_iff (h : l.conflicts r = false)
    (hdimensions : l.dimension = none ∨ r.dimension = none ∨ l.dimension = r.dimension) :
    (merge x l r).Coherent l r ↔ l.Joins r ∧ r.Joins l := by
  have hleft := or_eq_left_iff hdimensions
  have hright := or_eq_right_iff hdimensions
  unfold Coherent Joins merge
  dsimp only
  cases hl : l.unit with
  | none =>
    cases hr : r.unit with
    | none => simp
    | some u => simpa using hright
  | some u =>
    cases hr : r.unit with
    | none => simpa using hleft
    | some u' =>
      obtain rfl : u = u' := by
        have hunits := unit_cases h
        rw [hl, hr] at hunits
        simpa using hunits
      -- Both carry the unit, and the dimension is one of theirs.
      simp only [Option.some_or, Option.some.injEq, reduceCtorEq, false_implies, and_self, iff_true]
      intro u' hu'
      cases hd : l.dimension with
      | none => exact .inr ⟨hu', rfl⟩
      | some d => exact .inl ⟨hu', rfl⟩

end Merge

/-- What is left to be found finite. -/
theorem raw_sum {op : BinaryOp} (hop : op = .add ∨ op = .sub) {l r q : Quantity}
    (h : raw op l r = .ok q) : l.conflicts r = false ∧ ∃ x, q = merge x l r ∧
      ∃ y, raw op r l = .ok (merge y r l) ∧ isFiniteNumber y = isFiniteNumber x := by
  have hconflicts : l.conflicts r = false := by
    by_contra hne
    rw [Bool.not_eq_false] at hne
    rcases hop with rfl | rfl <;> simp [raw, hne] at h
  have hswapped : r.conflicts l = false := by rwa [conflicts_comm]
  refine ⟨hconflicts, ?_⟩
  rcases hop with rfl | rfl
  · simp only [raw, hconflicts, Bool.false_eq_true, if_false, Except.ok.injEq] at h
    refine ⟨l.value + r.value, h.symm, r.value + l.value, ?_, ?_⟩
    · simp only [raw, hswapped, Bool.false_eq_true, if_false]
    · rw [float_add_comm]
  · simp only [raw, hconflicts, Bool.false_eq_true, if_false, Except.ok.injEq] at h
    refine ⟨l.value - r.value, h.symm, r.value - l.value, ?_, ?_⟩
    · simp only [raw, hswapped, Bool.false_eq_true, if_false]
    · rw [isFiniteNumber_sub_comm]

/-- A sum or difference merges the tags of its operands, and so does the one with the operands
    exchanged, which is there as well. -/
theorem arithmetic_swap {op : BinaryOp} (hop : op = .add ∨ op = .sub) {l r q : Quantity}
    (h : arithmetic op l r = .ok q) : l.conflicts r = false ∧ ∃ x y, q = merge x l r ∧
      arithmetic op r l = .ok (merge y r l) := by
  unfold arithmetic at h
  cases hraw : raw op l r with
  | error e =>
    rw [hraw] at h
    exact nomatch h
  | ok p =>
    rw [hraw] at h
    dsimp only at h
    split at h
    · rename_i hfinite
      cases h
      obtain ⟨hconflicts, x, rfl, y, hswapped, heq⟩ := raw_sum hop hraw
      refine ⟨hconflicts, x, y, rfl, ?_⟩
      have hfinite' : isFiniteNumber (merge y r l).value = true := heq.trans hfinite
      unfold arithmetic
      rw [hswapped]
      dsimp only
      rw [if_pos hfinite']
    · exact nomatch h

end Quantity

/-- A sum or difference of two numbers has the same unit with the operands exchanged.  It has the
    same dimension then, one that belongs to the unit, exactly when the operands are matched. -/
theorem Value.arithmetic_tags {op : BinaryOp} (hop : op = .add ∨ op = .sub) {l r : Quantity}
    {v : Value} (h : Value.arithmetic op (.number l) (.number r) = .ok v) :
    ∃ q w : Quantity, v = .number q ∧
      Value.arithmetic op (.number r) (.number l) = .ok (.number w) ∧ w.unit = q.unit ∧
      ((w.dimension = q.dimension ∧ q.Coherent l r) ↔ l.Matched r) := by
  obtain ⟨q, hq, rfl⟩ : ∃ q, Quantity.arithmetic op l r = .ok q ∧ Value.number q = v := by
    change (Quantity.arithmetic op l r).map Value.number = .ok v at h
    cases hq : Quantity.arithmetic op l r with
    | error e =>
      rw [hq] at h
      exact nomatch h
    | ok q =>
      rw [hq] at h
      exact ⟨q, rfl, Except.ok.inj h⟩
  obtain ⟨hconflicts, x, y, rfl, hswapped⟩ := Quantity.arithmetic_swap hop hq
  refine ⟨_, Quantity.merge y r l, rfl, ?_, Quantity.merge_unit_comm hconflicts, ?_⟩
  · change (Quantity.arithmetic op r l).map Value.number = _
    rw [hswapped]
    rfl
  · constructor
    · intro ⟨hdimension, hcoherent⟩
      have hdimensions := Quantity.merge_dimension_comm_iff.1 hdimension
      have hjoins := (Quantity.merge_coherent_iff hconflicts hdimensions).1 hcoherent
      exact ⟨hdimensions, hjoins.1, hjoins.2⟩
    · intro hmatched
      exact ⟨Quantity.merge_dimension_comm_iff.2 hmatched.dimensions,
        (Quantity.merge_coherent_iff hconflicts hmatched.dimensions).2
          ⟨hmatched.left, hmatched.right⟩⟩

/-- A length in metres and a plain number are matched. -/
theorem Value.length_plus_number_tags :
    ((BinaryOp.add = .add ∨ BinaryOp.add = .sub) ∧
      Value.arithmetic .add (.number ⟨2, some "length", some "m"⟩) (.number ⟨3, none, none⟩) =
        .ok (.number ⟨2 + 3, some "length", some "m"⟩)) ∧
    ∃ q w : Quantity, Value.number ⟨2 + 3, some "length", some "m"⟩ = .number q ∧
      Value.arithmetic .add (.number ⟨3, none, none⟩) (.number ⟨2, some "length", some "m"⟩) =
        .ok (.number w) ∧ w.unit = q.unit ∧
      ((w.dimension = q.dimension ∧
        q.Coherent ⟨2, some "length", some "m"⟩ ⟨3, none, none⟩) ↔
          Quantity.Matched ⟨2, some "length", some "m"⟩ ⟨3, none, none⟩) := by
  have hsum : Value.arithmetic .add (.number ⟨2, some "length", some "m"⟩)
      (.number ⟨3, none, none⟩) = .ok (.number ⟨2 + 3, some "length", some "m"⟩) := rfl
  exact ⟨⟨.inl rfl, hsum⟩, Value.arithmetic_tags (.inl rfl) hsum⟩

/-- A length without a unit plus a mass in kilograms is a length in kilograms, and with the
    operands exchanged a mass. -/
theorem Value.length_in_kilograms :
    ∃ q w : Quantity,
      Value.arithmetic .add (.number ⟨1, some "length", none⟩)
        (.number ⟨2, some "mass", some "kg"⟩) = .ok (.number q) ∧
      Value.arithmetic .add (.number ⟨2, some "mass", some "kg"⟩)
        (.number ⟨1, some "length", none⟩) = .ok (.number w) ∧
      w.dimension ≠ q.dimension ∧
      ¬q.Coherent ⟨1, some "length", none⟩ ⟨2, some "mass", some "kg"⟩ := by
  refine ⟨⟨1 + 2, some "length", some "kg"⟩, ⟨2 + 1, some "mass", some "kg"⟩, rfl, rfl, ?_, ?_⟩
  · decide
  · intro h
    have hkg := h "kg" rfl
    simp at hkg

end EntityFormulas
