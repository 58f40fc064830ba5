/-
  EntityFormulas/Proofs/Evaluation/Budget.lean
  ============================================
  **What the recursion limit decides.**

  A higher limit takes away failures for want of levels and changes no other
  answer, so the limit decides whether there is an answer and never which one.

  Nesting is bounded without a limit as well.  On the way down from a formula a
  pending property is entered at most once, since a read of one under evaluation
  is a cycle and ends there.  What the pending properties not yet entered may
  still take is `openLevels`; it pays for every property that is entered.
-/
import EntityFormulas.Proofs.Evaluation.Restriction
import Mathlib

namespace EntityFormulas

open Evaluation

namespace EvaluationContext

variable (ctx : EvaluationContext)

/-! ### Levels of pending properties -/

/-- The levels that formulas of pending properties take that are not under evaluation. -/
def openLevels (names : List String) : Nat :=
  (ctx.pending.entries.map fun p => if p.1 ∈ names then 0 else p.2.height + 1).sum

theorem openLevels_nil :
    ctx.openLevels [] = (ctx.pending.values.map fun f => f.height + 1).sum := by
  simp [openLevels, Dict.values, Function.comp_def]

variable {ctx}

/-- A property that is entered gives up the levels of its formula. -/
theorem openLevels_push {names : List String} {name : String} {f : Expression}
    (hp : ctx.pending.get? name = some f) (h : name ∉ names) :
    f.height + 1 + ctx.openLevels (names ++ [name]) ≤ ctx.openLevels names := by
  have hmem := Entries.mem_of_find? hp
  unfold openLevels
  generalize ctx.pending.entries = entries at hmem
  have hle (p : String × Expression) : (if p.1 ∈ names ++ [name] then 0 else p.2.height + 1) ≤
      if p.1 ∈ names then 0 else p.2.height + 1 := by
    by_cases hnames : p.1 ∈ names
    · simp [hnames]
    · simp only [if_neg hnames]
      split <;> omega
  induction entries with
  | nil => exact absurd hmem List.not_mem_nil
  | cons p rest ih =>
    rw [List.map_cons, List.map_cons, List.sum_cons, List.sum_cons]
    rcases List.mem_cons.1 hmem with rfl | hrest
    · have hothers := List.sum_le_sum fun q (_ : q ∈ rest) => hle q
      rw [if_pos (by simp), if_neg h]
      dsimp only
      omega
    · have := hle p
      have := ih hrest
      omega

/-! ### Enough levels -/

/-- Computations that do not run out of levels while just these properties are under evaluation. -/
def sparing (names : List String) : Simulation Eval Eval where
  rel x _ := ∀ s : EvalState, s.Remembers (fun _ r => ¬ TooDeep r) → s.inProgress = names →
    ¬ TooDeep (x s).1 ∧ (x s).2.Remembers (fun _ r => ¬ TooDeep r) ∧ (x s).2.inProgress = names
  gives _ _ := True
  pure _ _ hs hp := ⟨id, hs, hp⟩
  throw e he _ hs hp := by
    refine ⟨fun h => ?_, hs, hp⟩
    cases e with
    | depthExceeded limit => exact he trivial
    | _ => exact h
  bind {α β x y f g} hx hf s hs hp := by
    obtain ⟨hdeep, hs', hp'⟩ := hx s hs hp
    rcases h : x s with ⟨r, s'⟩
    rw [h] at hdeep hs' hp'
    cases r with
    | ok a =>
      rw [Eval.bind_apply_ok h]
      exact hf a trivial s' hs' hp'
    | error e =>
      rw [Eval.bind_apply_error h]
      exact ⟨fun he => hdeep he.rethrown, hs', hp'⟩

theorem not_tooDeep_storedProperty (name : String) :
    ¬ TooDeep (storedProperty ctx name : EvalResult) := by
  unfold storedProperty Evaluation.missing
  split
  · exact id
  · split <;> exact id

theorem ownProperty_spares {names : List String} {left : Nat}
    (hev : ∀ names' f, f.height + 1 + ctx.openLevels names' ≤ left →
      (sparing names').rel (Eval.evaluateWithin ctx left f) (Eval.evaluateWithin ctx left f))
    (hleft : ctx.openLevels names ≤ left) (name : String) :
    (sparing names).rel (Eval.ownProperty (Eval.evaluateWithin ctx left) ctx name)
      (Eval.ownProperty (Eval.evaluateWithin ctx left) ctx name) := by
  intro s hs hp
  rcases Eval.ownProperty_cases (Eval.evaluateWithin ctx left) ctx name s with
    ⟨r, hr, heq⟩ | ⟨-, -, heq⟩ | ⟨-, -, -, heq⟩ | ⟨f, -, hmem, hf, heq⟩ <;> rw [heq]
  · exact ⟨hs name r hr, hs, hp⟩
  · exact ⟨id, hs, hp⟩
  · exact ⟨not_tooDeep_storedProperty name, hs, hp⟩
  · rw [hp] at hmem
    have hroom := Nat.le_trans (openLevels_push hf hmem) hleft
    obtain ⟨hdeep, hs', hp'⟩ := hev (names ++ [name]) f hroom
      { s with inProgress := s.inProgress ++ [name] } hs (congrArg (· ++ [name]) hp)
    refine ⟨hdeep, hs'.resolve hdeep _, (Eval.resolving_inProgress ?_).trans hp⟩
    rw [hp', hp]

/-- The levels of a formula and of the properties it may still enter are enough for it. -/
theorem evaluateWithin_spares {names : List String} {left : Nat} {e : Expression}
    (hleft : e.height + 1 + ctx.openLevels names ≤ left) :
    (sparing names).rel (Eval.evaluateWithin ctx left e) (Eval.evaluateWithin ctx left e) := by
  -- On the levels left.  What a level takes is paid by the formula's height below a formula, and
  -- by the property's share of the open levels below a read.
  induction left generalizing names e with
  | zero => omega
  | succ left ih =>
    intro s hs hp
    have hchildren (c) (hc : c ∈ e.children) := @ih names c <| by
      have := Expression.height_lt_of_child hc
      omega
    exact (sparing names).level_of_own ctx e hchildren
      (ownProperty_spares (fun names' f h => ih h) (by omega)) { s with depth := s.depth + 1 } hs hp

end EvaluationContext

/-! ### Limits -/

open EvaluationContext

/-- Evaluation with a higher limit ends alike where it does not run out of levels. -/
theorem Expression.evaluate_of_le (e : Expression) (ctx : EvaluationContext) {limit limit' : Nat}
    (hle : limit ≤ limit') (h : ¬ TooDeep (e.evaluate { ctx with recursionLimit := limit })) :
    e.evaluate { ctx with recursionLimit := limit' } =
      e.evaluate { ctx with recursionLimit := limit } := by
  have hd : SameData { ctx with recursionLimit := limit } { ctx with recursionLimit := limit' } :=
    ⟨rfl, rfl, rfl, rfl, rfl⟩
  have hc : (restricting (· = .depthExceeded limit)).Comparable
      { ctx with recursionLimit := limit } { ctx with recursionLimit := limit' } :=
    ⟨rfl, rfl, fun _ _ _ => .inl rfl⟩
  rcases evaluateWithin_restricts hd hc (.inr ⟨hle, rfl⟩) e {} with heq | ⟨_, he, rfl⟩
  · exact (congrArg Prod.fst heq).symm
  · refine absurd ?_ h
    rw [Expression.evaluate]
    exact he ▸ trivial

theorem Expression.evaluate_spares {e : Expression} {ctx : EvaluationContext}
    (h : e.height + 1 + (ctx.pending.values.map fun f => f.height + 1).sum ≤ ctx.recursionLimit) :
    ¬ TooDeep (e.evaluate ctx) := by
  rw [← openLevels_nil] at h
  exact (evaluateWithin_spares h {} (EvalState.remembers_start _) rfl).1

/-- The recursion limit decides whether a formula is answered and never what the answer is.  A
    formula that does not run out of levels has the same answer with every higher limit, and as
    many levels as it and all pending formulas have together are enough, also on cycles. -/
theorem Expression.evaluate_recursionLimit (e : Expression) (ctx : EvaluationContext) :
    (∀ limit limit', limit ≤ limit' →
      ¬ TooDeep (e.evaluate { ctx with recursionLimit := limit }) →
      e.evaluate { ctx with recursionLimit := limit' } =
        e.evaluate { ctx with recursionLimit := limit }) ∧
    ∀ limit, e.height + 1 + (ctx.pending.values.map fun f => f.height + 1).sum ≤ limit →
      ¬ TooDeep (e.evaluate { ctx with recursionLimit := limit }) :=
  ⟨fun _ _ hle h => e.evaluate_of_le ctx hle h, fun limit h =>
    @Expression.evaluate_spares e { ctx with recursionLimit := limit } h⟩

/-- Two properties that read each other, both about to be computed. -/
def entangled (recursionLimit : Nat) : EvaluationContext where
  entity := { id := "entity", typePath := "entity" }
  properties := .empty
  pending := (Dict.empty.insert "first" (.unary .not (.selfProperty "second"))).insert "second"
    (.unary .not (.selfProperty "first"))
  strict := false
  recursionLimit

/-- The cycle takes all levels of the three formulas, and is found with as many or more. -/
theorem entangled_recursionLimit :
    TooDeep ((Expression.selfProperty "first").evaluate (entangled 4)) ∧
      ∀ limit ≥ 5, (Expression.selfProperty "first").evaluate (entangled limit) =
        .error (.circular ["first", "second", "first"]) := by
  obtain ⟨hsame, henough⟩ := (Expression.selfProperty "first").evaluate_recursionLimit (entangled 0)
  refine ⟨trivial, fun limit hlimit => ?_⟩
  exact (hsame 5 limit hlimit (henough 5 (by decide +kernel))).trans (by rfl)

end EntityFormulas
