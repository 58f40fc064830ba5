/-
  EntityFormulas/Proofs/Formula/Nesting.lean
  ==========================================
  **How high the trees are that are read.**

  A level is entered for each unary operand, each operator of a chain and each
  member access, and the levels of a chain are left when it ends.  So whatever
  stands to the right of an operator, under a unary one or inside a literal is
  charged for all that is above it: on the way from the root to a leaf there
  are fewer than `maxNesting` steps of these kinds (`rightHeight`).

  What stands first in a chain is read before the operators of the chain enter
  their levels, and the levels it entered itself are left by then.  The steps
  to the left (`leftHeight`) are therefore not bounded by the levels: with `n`
  of them left, a chain of each of the six precedences and one of member
  accesses may stand above a first operand that uses all of them again.  That
  makes `operandHeight`, and it is all that bounds the height.

  `Reads` says where a parser started at a depth ends; each parser keeps the
  depth, and what it reads is `Within` what the depth leaves.
-/
import EntityFormulas.Proofs.Formula.Reading
import Mathlib.Tactic.Ring

namespace EntityFormulas

/-! ### Two heights -/

namespace Expression

mutual

/-- The most steps to the right on a way from the root to a leaf; all steps are, except to the left
    operand of an operator and to the object of a member access. -/
def rightHeight : Expression → Nat
  | .literal _ | .selfProperty _ | .selfEntity | .entityRef _ => 0
  | .member object _ => rightHeight object
  | .unary _ operand => rightHeight operand + 1
  | .binary _ left right => max (rightHeight left) (rightHeight right + 1)
  | .call _ args => rightLevels args
  | .list items => rightLevels items
  | .record fields => rightLevelsOfFields fields

def rightLevels : List Expression → Nat
  | [] => 0
  | e :: rest => max (rightHeight e + 1) (rightLevels rest)

def rightLevelsOfFields : List (String × Expression) → Nat
  | [] => 0
  | (_, e) :: rest => max (rightHeight e + 1) (rightLevelsOfFields rest)

end

mutual

/-- The most steps to the left on a way from the root to a leaf. -/
def leftHeight : Expression → Nat
  | .literal _ | .selfProperty _ | .selfEntity | .entityRef _ => 0
  | .member object _ => leftHeight object + 1
  | .unary _ operand => leftHeight operand
  | .binary _ left right => max (leftHeight left + 1) (leftHeight right)
  | .call _ args => leftHeights args
  | .list items => leftHeights items
  | .record fields => leftHeightsOfFields fields

def leftHeights : List Expression → Nat
  | [] => 0
  | e :: rest => max (leftHeight e) (leftHeights rest)

def leftHeightsOfFields : List (String × Expression) → Nat
  | [] => 0
  | (_, e) :: rest => max (leftHeight e) (leftHeightsOfFields rest)

end

mutual

/-- Each step goes to the right or to the left. -/
theorem height_le : (e : Expression) → e.height ≤ e.rightHeight + e.leftHeight
  | .literal _ | .selfProperty _ | .selfEntity | .entityRef _ => Nat.le_refl 0
  | .member object _ => by
    have := height_le object
    unfold height rightHeight leftHeight
    omega
  | .unary _ operand => by
    have := height_le operand
    unfold height rightHeight leftHeight
    omega
  | .binary _ left right => by
    have hl := height_le left
    have hr := height_le right
    unfold height rightHeight leftHeight
    omega
  | .call _ args => levels_le args
  | .list items => levels_le items
  | .record fields => levelsOfFields_le fields

theorem levels_le : (es : List Expression) → levels es ≤ rightLevels es + leftHeights es
  | [] => Nat.le_refl 0
  | e :: rest => by
    have he := height_le e
    have hrest := levels_le rest
    unfold levels rightLevels leftHeights
    omega

theorem levelsOfFields_le : (fs : List (String × Expression)) →
    levelsOfFields fs ≤ rightLevelsOfFields fs + leftHeightsOfFields fs
  | [] => Nat.le_refl 0
  | (_, e) :: rest => by
    have he := height_le e
    have hrest := levelsOfFields_le rest
    unfold levelsOfFields rightLevelsOfFields leftHeightsOfFields
    omega

end

end Expression

namespace Parse

/-! ### From a depth -/

/-- A parser that succeeds from a depth ends with a result and a depth in a relation. -/
def Reads {α : Type} (d : Nat) (p : Parse α) (Q : α → Nat → Prop) : Prop :=
  ∀ s a s', s.depth = d → p.run s = .ok (a, s') → Q a s'.depth

namespace Reads

variable {α β : Type} {d : Nat} {p : Parse α} {f : α → Parse β} {Q : α → Nat → Prop}
  {R : β → Nat → Prop}

theorem mono {Q' : α → Nat → Prop} (h : Reads d p Q) (hQ : ∀ a d', Q a d' → Q' a d') :
    Reads d p Q' := fun s a s' hd hs => hQ a s'.depth (h s a s' hd hs)

theorem pure {a : α} (h : Q a d) : Reads d (pure a) Q := by
  intro s b s' hd hs
  cases hs
  rwa [hd]

theorem throw (e : ParseError) : Reads d (throw e : Parse α) Q := fun _ _ _ _ hs => nomatch hs

theorem failAt (position : Nat) (fault : ParseFault) : Reads d (failAt position fault : Parse α) Q :=
  throw _

theorem bind (hp : Reads d p Q) (hf : ∀ a d', Q a d' → Reads d' (f a) R) : Reads d (p >>= f) R := by
  intro s b s' hd hs
  rw [bind_run] at hs
  cases hr : p.run s with
  | error e =>
    rw [hr] at hs
    exact nomatch hs
  | ok x =>
    obtain ⟨a, s₁⟩ := x
    rw [hr] at hs
    exact hf a s₁.depth (hp s a s₁ hd hr) s₁ b s' rfl hs

/-- A step that keeps the depth. -/
theorem level (hp : Reads d p fun _ d' => d' = d) (hf : ∀ a, Reads d (f a) R) :
    Reads d (p >>= f) R :=
  bind hp fun a d' hd' => by
    subst hd'
    exact hf a

theorem get : Reads d (get : Parse Cursor) fun s d' => s.depth = d ∧ d' = d := by
  intro s a s' hd hs
  cases hs
  exact ⟨hd, hd⟩

theorem current : Reads d current fun _ d' => d' = d := level (get.mono fun _ _ h => h.2) fun _ => pure rfl

theorem peek : Reads d peek fun _ d' => d' = d := level current fun _ => pure rfl

theorem remaining : Reads d remaining fun _ d' => d' = d :=
  level (get.mono fun _ _ h => h.2) fun _ => pure rfl

theorem advance : Reads d advance fun _ d' => d' = d := by
  intro s a s' hd hs
  cases hs
  exact hd

theorem fail (fault : ParseFault) : Reads d (fail fault : Parse α) Q :=
  level current fun _ => failAt _ _

theorem unexpected (wanted : Expected) : Reads d (unexpected wanted : Parse α) Q :=
  level current fun _ => failAt _ _

theorem ite {c : Prop} [Decidable c] {q : Parse α} (hp : Reads d p Q) (hq : Reads d q Q) :
    Reads d (if c then p else q) Q := by
  split
  · exact hp
  · exact hq

theorem nest : Reads d nest fun _ d' => d < maxNesting ∧ d' = d + 1 := by
  intro s a s' hd hs
  rw [nest_run] at hs
  split at hs
  · exact nomatch hs
  · cases hs
    subst hd
    exact ⟨by omega, rfl⟩

theorem nested (hp : d < maxNesting → Reads (d + 1) p fun a d' => d' = d + 1 ∧ Q a d) :
    Reads d (nested p) Q := by
  refine bind nest fun _ d₁ hd₁ => ?_
  obtain ⟨hd, rfl⟩ := hd₁
  refine bind (hp hd) fun a d₂ ha => ?_
  obtain ⟨rfl, ha⟩ := ha
  intro s b s' hs hrun
  cases hrun
  change Q a (s.depth - 1)
  rwa [hs]

theorem keepDepth (hp : Reads d p fun a _ => Q a d) : Reads d (keepDepth p) Q := by
  refine bind get fun s d₁ hs => ?_
  obtain ⟨hs, rfl⟩ := hs
  refine bind hp fun a d₂ ha => ?_
  intro s₁ b s' hd hrun
  cases hrun
  change Q a s.depth
  rwa [hs]

end Reads

theorem expect_reads (d : Nat) (token : Token) (wanted : Expected) :
    Reads d (expect token wanted) fun _ d' => d' = d :=
  .level .peek fun _ => .ite .advance (.unexpected _)

theorem key_reads (d : Nat) (seen : List String) : Reads d (key seen) fun _ d' => d' = d := by
  refine .level .current fun t => ?_
  have hread (k : String) : Reads d (do
      advance
      if k ∈ seen then failAt t.position (.repeatedKey k) else return k) fun _ d' => d' = d :=
    .level .advance fun _ => .ite (.failAt _ _) (.pure rfl)
  split
  · exact hread _
  · exact hread _
  · exact .unexpected _

/-! ### What the levels leave -/

/-- The height of the highest operand without operators, with so many levels left for what is
    inside it: one literal around a formula, whose chains are six of operators and one of member
    accesses. -/
def operandHeight : Nat → Nat
  | 0 => 0
  | n + 1 => operandHeight n + 7 * n + 1

theorem operandHeight_succ (n : Nat) : operandHeight (n + 1) = operandHeight n + 7 * n + 1 := rfl

theorem operandHeight_mono {m n : Nat} (h : m ≤ n) : operandHeight m ≤ operandHeight n := by
  induction h with
  | refl => exact Nat.le_refl _
  | step _ ih =>
    rw [operandHeight_succ]
    omega

theorem two_mul_operandHeight (n : Nat) : 2 * operandHeight (n + 1) = (n + 1) * (7 * n + 2) := by
  induction n with
  | zero => rfl
  | succ n ih =>
    rw [operandHeight_succ, Nat.mul_add, Nat.mul_add, ih]
    ring

/-- What is read at a depth fits: its steps to the right into the levels that are left, its height
    below so many chains around the highest operand. -/
structure Within (chains d : Nat) (e : Expression) : Prop where
  right : e.rightHeight + d < maxNesting
  height : e.height ≤ chains * (maxNesting - (d + 1)) + operandHeight (maxNesting - (d + 1))

/-- A formula at a depth fits into an operand there. -/
theorem Within.lt_operandHeight {d : Nat} {e : Expression} (h : Within 7 d e) :
    e.height < operandHeight (maxNesting - d) := by
  have hr := h.right
  have hh := h.height
  obtain ⟨n, hn⟩ : ∃ n, maxNesting - d = n + 1 := ⟨maxNesting - d - 1, by omega⟩
  have hn' : maxNesting - (d + 1) = n := by omega
  rw [hn'] at hh
  rw [hn, operandHeight_succ]
  omega

/-! ### Chains -/

section Chains

variable {chains d : Nat} {operand : Parse Expression}

/-- Each operator adds a level to the height and enters one, so from depth `d'` a chain that began at
    depth `d` gets no higher than all levels allow. -/
theorem operators_reads (level : Level)
    (h : ∀ d, Reads d operand fun e d' => d' = d ∧ Within chains d e) (fuel : Nat) {d' bound : Nat}
    (hd : d ≤ d') (hd' : d' < maxNesting)
    (hbound : chains * (maxNesting - (d + 1)) + operandHeight (maxNesting - (d + 1)) ≤ bound)
    {l : Expression} (hright : l.rightHeight + d < maxNesting) (hheight : l.height + d ≤ bound + d') :
    Reads d' (operators level operand fuel l) fun e _ =>
      e.rightHeight + d < maxNesting ∧ e.height + d < bound + maxNesting := by
  induction fuel generalizing l d' with
  | zero => exact .fail _
  | succ fuel ih =>
    refine .level .peek fun t => ?_
    split
    · exact .pure ⟨hright, by omega⟩
    · refine .level .advance fun _ => .bind .nest fun _ d₁ hd₁ => ?_
      obtain ⟨-, rfl⟩ := hd₁
      refine .bind (h _) fun r d₂ hr => ?_
      obtain ⟨rfl, hr⟩ := hr
      have hrr := hr.right
      -- The right operand is no higher than one that the whole chain leaves room for.
      have hrh : r.height ≤ bound := by
        refine Nat.le_trans hr.height (Nat.le_trans (Nat.add_le_add ?_ ?_) hbound)
        · exact Nat.mul_le_mul_left _ (by omega)
        · exact operandHeight_mono (by omega)
      refine ih (by omega) (by omega) ?_ ?_
      · unfold Expression.rightHeight
        omega
      · unfold Expression.height
        omega

theorem chain_reads (level : Level)
    (h : ∀ d, Reads d operand fun e d' => d' = d ∧ Within chains d e) (d : Nat) :
    Reads d (chain level operand) fun e d' => d' = d ∧ Within (chains + 1) d e := by
  refine .keepDepth (.bind (h d) fun l d₁ hl => ?_)
  obtain ⟨rfl, hl⟩ := hl
  have hd := hl.right
  refine (operators_reads level h _ (Nat.le_refl _) (by omega) (Nat.le_refl _) hl.right
    (by have := hl.height; omega)).mono fun e _ he => ⟨rfl, he.1, ?_⟩
  rw [Nat.succ_mul]
  omega

theorem chains_reads (h : ∀ d, Reads d operand fun e d' => d' = d ∧ Within chains d e)
    (ls : List Level) (d : Nat) :
    Reads d (Parse.chains operand ls) fun e d' => d' = d ∧ Within (chains + ls.length) d e := by
  induction ls generalizing d with
  | nil => exact h d
  | cons level tighter ih => exact chain_reads level ih d

end Chains

/-! ### Operands -/

/-- What stands at a depth and has such heights fits into the levels that are left. -/
structure Fits (d right height : Nat) : Prop where
  right : right + d ≤ maxNesting
  height : height ≤ operandHeight (maxNesting - d)

theorem Fits.leaf {d : Nat} (hd : d ≤ maxNesting) : Fits d 0 0 where
  right := by omega
  height := Nat.zero_le _

theorem Fits.cons {d right height : Nat} {e : Expression} (he : Within 7 d e)
    (hrest : Fits d right height) :
    Fits d (max (e.rightHeight + 1) right) (max (e.height + 1) height) where
  right := by
    have := he.right
    have := hrest.right
    omega
  height := Nat.max_le.2 ⟨he.lt_operandHeight, hrest.height⟩

/-- One element alone. -/
theorem Fits.singleton {d : Nat} {e : Expression} (he : Within 7 d e) :
    Fits d (max (e.rightHeight + 1) 0) (max (e.height + 1) 0) :=
  .cons he (.leaf (by have := he.right; omega))

section Operands

open Expression

variable {d : Nat} (hd : d ≤ maxNesting) {element : Parse Expression}
  (h : ∀ d, Reads d element fun e d' => d' = d ∧ Within 7 d e)

include h

theorem arguments_reads (fuel : Nat) : Reads d (arguments element fuel) fun es d' =>
    d' = d ∧ Fits d (rightLevels es) (Expression.levels es) := by
  induction fuel with
  | zero => exact .unexpected _
  | succ fuel ih =>
    refine .bind (h d) fun e d₁ he => ?_
    obtain ⟨rfl, he⟩ := he
    refine .level .peek fun t => ?_
    split
    · refine .level .advance fun _ => .bind ih fun es d₂ hes => ?_
      obtain ⟨rfl, hes⟩ := hes
      exact .pure ⟨rfl, .cons he hes⟩
    · exact .level .advance fun _ => .pure ⟨rfl, .singleton he⟩
    · exact .unexpected _

include hd

theorem items_reads (fuel : Nat) : Reads d (items element fuel) fun es d' =>
    d' = d ∧ Fits d (rightLevels es) (Expression.levels es) := by
  induction fuel with
  | zero => exact .unexpected _
  | succ fuel ih =>
    refine .level .peek fun t => .ite (.level .advance fun _ => .pure ⟨rfl, .leaf hd⟩) ?_
    refine .bind (h d) fun e d₁ he => ?_
    obtain ⟨rfl, he⟩ := he
    refine .level .peek fun t => ?_
    split
    · refine .level .advance fun _ => .bind ih fun es d₂ hes => ?_
      obtain ⟨rfl, hes⟩ := hes
      exact .pure ⟨rfl, .cons he hes⟩
    · exact .level .advance fun _ => .pure ⟨rfl, .singleton he⟩
    · exact .unexpected _

theorem fields_reads (fuel : Nat) (seen : List String) : Reads d (fields element fuel seen) fun fs d' =>
    d' = d ∧ Fits d (rightLevelsOfFields fs) (levelsOfFields fs) := by
  induction fuel generalizing seen with
  | zero => exact .unexpected _
  | succ fuel ih =>
    refine .level .peek fun t => .ite (.level .advance fun _ => .pure ⟨rfl, .leaf hd⟩) ?_
    refine .level (key_reads d seen) fun k => .level (expect_reads d _ _) fun _ => ?_
    refine .bind (h d) fun e d₁ he => ?_
    obtain ⟨rfl, he⟩ := he
    refine .level .peek fun t => ?_
    split
    · refine .level .advance fun _ => .bind (ih _) fun fs d₂ hfs => ?_
      obtain ⟨rfl, hfs⟩ := hfs
      exact .pure ⟨rfl, .cons he hfs⟩
    · exact .level .advance fun _ => .pure ⟨rfl, .singleton he⟩
    · exact .unexpected _

theorem callArguments_reads : Reads d (callArguments element) fun es d' =>
    d' = d ∧ Fits d (rightLevels es) (Expression.levels es) :=
  .level .peek fun _ => .ite (.level .advance fun _ => .pure ⟨rfl, .leaf hd⟩)
    (.level .remaining fun k => arguments_reads h k)

theorem wordForm_reads (name : String) (position : Nat) :
    Reads d (wordForm element name position) fun e d' => d' = d ∧ Fits d e.rightHeight e.height := by
  have hleaf : Fits d 0 0 := .leaf hd
  refine .level .advance fun _ => .ite (.pure ⟨rfl, hleaf⟩) (.ite (.pure ⟨rfl, hleaf⟩)
    (.ite (.pure ⟨rfl, hleaf⟩) (.ite (.pure ⟨rfl, hleaf⟩) (.level .peek fun t => .ite ?_ (.failAt _ _)))))
  refine .level .advance fun _ => .bind (callArguments_reads hd h) fun es d₁ hes => ?_
  obtain ⟨rfl, hes⟩ := hes
  exact .pure ⟨rfl, hes⟩

theorem primary_reads :
    Reads d (primary element) fun e d' => d' = d ∧ Fits d e.rightHeight e.height := by
  have hleaf : Fits d 0 0 := .leaf hd
  refine .level .current fun t => ?_
  split
  · exact .level .advance fun _ => .pure ⟨rfl, hleaf⟩
  · exact .level .advance fun _ => .pure ⟨rfl, hleaf⟩
  · exact .level .advance fun _ => .pure ⟨rfl, hleaf⟩
  · exact .level .advance fun _ => .pure ⟨rfl, hleaf⟩
  · refine .level .advance fun _ => .level .peek fun t => ?_
    split
    · exact .ite (.unexpected _) (.level .advance fun _ => .pure ⟨rfl, hleaf⟩)
    · exact .unexpected _
  · refine .level .advance fun _ => .bind (h d) fun e d₁ he => ?_
    obtain ⟨rfl, he⟩ := he
    have hr := he.right
    exact .level (expect_reads _ _ _) fun _ =>
      .pure ⟨rfl, by omega, Nat.le_of_lt he.lt_operandHeight⟩
  · refine .level .advance fun _ => .level .remaining fun k => .bind (items_reads hd h k) fun es d₁ hes => ?_
    obtain ⟨rfl, hes⟩ := hes
    exact .pure ⟨rfl, hes⟩
  · refine .level .advance fun _ => .level .remaining fun k => .bind (fields_reads hd h k []) fun fs d₁ hfs => ?_
    obtain ⟨rfl, hfs⟩ := hfs
    exact .pure ⟨rfl, hfs⟩
  · exact wordForm_reads hd h _ _
  · exact .unexpected _

omit h hd in
theorem members_reads (fuel : Nat) {d' bound : Nat} (hd' : d' ≤ maxNesting) {o : Expression}
    (hright : o.rightHeight + d ≤ maxNesting) (hheight : o.height + d ≤ bound + d') :
    Reads d' (members fuel o) fun e _ =>
      e.rightHeight + d ≤ maxNesting ∧ e.height + d ≤ bound + maxNesting := by
  induction fuel generalizing o d' with
  | zero => exact .fail _
  | succ fuel ih =>
    refine .level .peek fun t => .ite ?_ (.pure ⟨hright, by omega⟩)
    refine .level .advance fun _ => .bind .nest fun _ d₁ hd₁ => ?_
    obtain ⟨hlt, rfl⟩ := hd₁
    refine .level .peek fun t => ?_
    split
    · refine .level .advance fun _ => ih (by omega) ?_ ?_
      · exact hright
      · unfold Expression.height
        omega
    · exact .unexpected _

theorem access_reads : Reads d (access element) fun e d' => d' = d ∧
    e.rightHeight + d ≤ maxNesting ∧ e.height ≤ (maxNesting - d) + operandHeight (maxNesting - d) := by
  refine .keepDepth (.bind (primary_reads hd h) fun o d₁ ho => ?_)
  obtain ⟨rfl, ho⟩ := ho
  have hheight : o.height + d₁ ≤ operandHeight (maxNesting - d₁) + d₁ := by
    have := ho.height
    omega
  refine (members_reads _ hd ho.right hheight).mono fun e _ he => ⟨rfl, he.1, ?_⟩
  have := he.2
  omega

omit hd in
theorem unary_reads (fuel d : Nat) :
    Reads d (unary element fuel) fun e d' => d' = d ∧ Within 1 d e := by
  induction fuel generalizing d with
  | zero => exact .fail _
  | succ fuel ih =>
    -- A unary operator goes one level down, where the operand has the height that this leaves.
    have hstep (op : UnaryOp) (hd : d < maxNesting) : Reads (d + 1) (do
        advance
        return .unary op (← unary element fuel)) fun e d' => d' = d + 1 ∧ d = d ∧ Within 1 d e := by
      refine .level .advance fun _ => .bind (ih (d + 1)) fun e d₁ he => ?_
      obtain ⟨rfl, he⟩ := he
      have hr := he.right
      have hh := he.height
      have hmono : operandHeight (maxNesting - (d + 1 + 1)) ≤ operandHeight (maxNesting - (d + 1)) :=
        operandHeight_mono (by omega)
      refine .pure ⟨rfl, rfl, ?_, ?_⟩
      · unfold Expression.rightHeight
        omega
      · unfold Expression.height
        omega
    refine .nested fun hd => .level .peek fun t => ?_
    split
    · exact hstep .not hd
    · exact hstep .neg hd
    · refine (access_reads (show d + 1 ≤ maxNesting from hd) h).mono fun e d₁ he => ⟨he.1, rfl, ?_, ?_⟩
      · have := he.2.1
        omega
      · have := he.2.2
        omega

end Operands

/-! ### Formulas -/

/-- A formula keeps the depth and fits into the levels that are left. -/
theorem expression_reads (fuel d : Nat) :
    Reads d (expression fuel) fun e d' => d' = d ∧ Within 7 d e := by
  induction fuel generalizing d with
  | zero => exact .fail _
  | succ fuel ih => exact chains_reads (unary_reads ih _) levels d

theorem whole_within {s s' : Cursor} {e : Expression} (hs : s.depth = 0)
    (h : whole.run s = .ok (e, s')) : Within 7 0 e := by
  have hwhole : Reads 0 whole fun e _ => Within 7 0 e := by
    refine .bind (expression_reads _ 0) fun e d he => ?_
    obtain ⟨rfl, he⟩ := he
    exact .level .current fun t => .ite (.pure he) (.failAt _ _)
  exact hwhole s e s' hs h

end Parse

/-- On a way from the root to a leaf there are fewer than `maxNesting` steps to the right, and only
    steps to the left come on top of these; with as many as reading lets through, no tree is higher
    than 228735. -/
theorem Expression.parse_height {source : String} {e : Expression}
    (h : Expression.parse source = .ok e) :
    e.rightHeight < maxNesting ∧ e.height < maxNesting + e.leftHeight ∧ e.height ≤ 228735 := by
  obtain ⟨ts, s, hr⟩ : ∃ ts s, Parse.whole.run { tokens := ts } = .ok (e, s) := by
    unfold Expression.parse at h
    cases hts : Token.tokens source with
    | error x =>
      rw [hts] at h
      exact nomatch h
    | ok ts =>
      rw [hts] at h
      change (Parse.whole.run { tokens := ts }).map (·.1) = .ok e at h
      cases hr : Parse.whole.run { tokens := ts } with
      | error x =>
        rw [hr] at h
        exact nomatch h
      | ok x =>
        rw [hr] at h
        cases h
        exact ⟨ts, x.2, hr⟩
  have hright := (Parse.whole_within rfl hr).right
  have hheight := (Parse.whole_within rfl hr).height
  have hsteps := e.height_le
  have hoperand := Parse.two_mul_operandHeight 254
  have hlevels : maxNesting - (0 + 1) = 254 + 1 := rfl
  rw [hlevels] at hheight
  exact ⟨hright, by omega, by omega⟩

/-- A difference with steps to the left on one side and steps to the right on the other. -/
theorem listedDifference_height :
    ∃ e, Expression.parse "[#a].b - (#c - -#d)" = .ok e ∧
      e.rightHeight < maxNesting ∧ e.height < maxNesting + e.leftHeight ∧ e.height ≤ 228735 := by
  have htokens : Token.tokens "[#a].b - (#c - -#d)" = .ok [⟨.leftBracket, 0⟩, ⟨.property "a", 1⟩,
      ⟨.rightBracket, 3⟩, ⟨.dot, 4⟩, ⟨.word "b", 5⟩, ⟨.minus, 7⟩, ⟨.leftParen, 9⟩, ⟨.property "c", 10⟩,
      ⟨.minus, 13⟩, ⟨.minus, 15⟩, ⟨.property "d", 16⟩, ⟨.rightParen, 18⟩, ⟨.eof, 19⟩] := by
    decide +kernel
  have hparse : Expression.parse "[#a].b - (#c - -#d)" = .ok (.binary .sub
      (.member (.list [.selfProperty "a"]) "b")
      (.binary .sub (.selfProperty "c") (.unary .neg (.selfProperty "d")))) := by
    unfold Expression.parse
    rw [htokens]
    rfl
  exact ⟨_, hparse, Expression.parse_height hparse⟩

/-- A sum whose first summand is negated as often as reading allows. -/
def negatedSum : String := .ofList (List.replicate 255 '-' ++ "#a + #a + #a".toList)

/-- The negations have left their levels when the sum enters its own. -/
theorem negatedSum_exceeds :
    ∃ e, Expression.parse negatedSum = .ok e ∧ e.height = maxNesting + 1 := by
  have h : (Expression.parse negatedSum).toOption.map Expression.height = some (maxNesting + 1) := by
    unfold Expression.parse Token.tokens negatedSum
    rw [String.toList_ofList]
    decide +kernel
  cases he : Expression.parse negatedSum with
  | error x =>
    rw [he] at h
    exact nomatch h
  | ok e =>
    rw [he] at h
    exact ⟨e, rfl, Option.some.inj h⟩

end EntityFormulas
