/-
  EntityFormulas/Proofs/Evaluation/Restriction.lean
  =================================================
  **What strictness decides.**

  No construct of formulas goes on after a failure.  So two evaluators that read
  the same data run in step until one of them fails alone, and then its whole
  evaluation ends with that failure: `restricting` relates an evaluator to one
  whose settings are less restrictive, where the restriction adds failures of
  one sort.

  Strict evaluation adds failures for what is missing, and nothing else
  (`Expression.evaluate_strict`).
-/
import EntityFormulas.Proofs.Evaluation.Soundness

namespace EntityFormulas

open Evaluation

/-! ### Evaluators that fail more often -/

/-- Computations that end alike unless the first one fails in a certain way. -/
def restricting (added : EvalError → Prop) : Simulation Eval Eval where
  rel x y := ∀ s, x s = y s ∨ ∃ e, (x s).1 = .error e ∧ added e
  gives _ _ := True
  pure _ _ := .inl rfl
  throw _ _ _ := .inl rfl
  bind {α β x y f g} hx hf s := by
    rcases hs : x s with ⟨r, s'⟩
    rcases hx s with heq | ⟨e, he, hadded⟩
    · cases r with
      | ok a =>
        rw [Eval.bind_apply_ok hs, Eval.bind_apply_ok (heq ▸ hs)]
        exact hf a trivial s'
      | error e =>
        rw [Eval.bind_apply_error hs, Eval.bind_apply_error (heq ▸ hs)]
        exact .inl rfl
    · rw [hs] at he
      cases he
      rw [Eval.bind_apply_error hs]
      exact .inr ⟨e, rfl, hadded⟩

namespace EvaluationContext

variable {added : EvalError → Prop} {ctx ctx' : EvaluationContext}

theorem ownProperty_restricts {ev ev' : Expression → Eval (Option Value)}
    (hev : ∀ e, (restricting added).rel (ev e) (ev' e)) (hd : ctx.SameData ctx')
    (hc : (restricting added).Comparable ctx ctx') (name : String) :
    (restricting added).rel (Eval.ownProperty ev ctx name) (Eval.ownProperty ev' ctx' name) := by
  intro s
  rcases Eval.ownProperty_cases ev ctx name s with
    ⟨r, hr, heq⟩ | ⟨hr, hmem, heq⟩ | ⟨hr, hmem, hp, heq⟩ | ⟨f, hr, hmem, hp, heq⟩ <;> rw [heq]
  · rw [Eval.ownProperty_resolved hr]
    exact .inl rfl
  · rw [Eval.ownProperty_inProgress hr hmem]
    exact .inl rfl
  · rw [Eval.ownProperty_stored hr hmem (hd.pending ▸ hp)]
    have hstored := (restricting added).storedProperty_of_sameData hd hc name s
    rwa [Eval.stateless.storedProperty name s, Eval.stateless.storedProperty name s] at hstored
  · rw [Eval.ownProperty_pending hr hmem (hd.pending ▸ hp)]
    unfold Eval.resolving
    rcases hev f { s with inProgress := s.inProgress ++ [name] } with hf | ⟨e, he, hadded⟩
    · rw [hf]
      exact .inl rfl
    · exact .inr ⟨e, he, hadded⟩

/-- In contexts that hold the same, an evaluator ends like the other one or in an added way.  With
    fewer levels than the other one it may also run out of them. -/
theorem evaluateWithin_restricts (hd : ctx.SameData ctx')
    (hc : (restricting added).Comparable ctx ctx') {left left' : Nat}
    (hlevels : left = left' ∧ ctx.recursionLimit = ctx'.recursionLimit ∨
      left ≤ left' ∧ added (.depthExceeded ctx.recursionLimit)) (e : Expression) :
    (restricting added).rel (Eval.evaluateWithin ctx left e)
      (Eval.evaluateWithin ctx' left' e) := by
  induction left generalizing left' e with
  | zero =>
    intro s
    rcases hlevels with ⟨rfl, hlimit⟩ | ⟨-, hadded⟩
    · refine .inl ?_
      unfold Eval.evaluateWithin
      rw [hlimit]
    · exact .inr ⟨_, rfl, hadded⟩
  | succ left ih =>
    cases left' with
    | zero => rcases hlevels with ⟨h, -⟩ | ⟨h, -⟩ <;> exact nomatch h
    | succ left' =>
      intro s
      have hev := @ih left'
        (hlevels.imp (And.imp_left Nat.succ.inj) (And.imp_left Nat.le_of_succ_le_succ))
      have hlevel := (restricting added).level_of_sameData hd hc e (fun c _ => hev c)
        (ownProperty_restricts hev hd hc) { s with depth := s.depth + 1 }
      rw [Eval.evaluateWithin_succ, Eval.evaluateWithin_succ]
      unfold Eval.nested
      rcases hlevel with heq | hadded
      · rw [heq]
        exact .inl rfl
      · exact .inr hadded

end EvaluationContext

/-! ### Strictness -/

open EvaluationContext

theorem missing_restricts (ctx : EvaluationContext) {e : EvalError} (he : e.Missing) :
    (restricting EvalError.Missing).rel (Evaluation.missing { ctx with strict := true } e : Eval _)
      (Evaluation.missing { ctx with strict := false } e) :=
  fun _ => .inr ⟨e, rfl, he⟩

/-- Strict evaluation gives what lenient evaluation gives, or fails for something missing. -/
theorem Expression.evaluate_strict_cases (e : Expression) (ctx : EvaluationContext) :
    e.evaluate { ctx with strict := true } = e.evaluate { ctx with strict := false } ∨
      ∃ x : EvalError, e.evaluate { ctx with strict := true } = .error x ∧ x.Missing := by
  have hd : SameData { ctx with strict := true } { ctx with strict := false } :=
    ⟨rfl, rfl, rfl, rfl, rfl⟩
  have hc : (restricting EvalError.Missing).Comparable { ctx with strict := true }
      { ctx with strict := false } := ⟨rfl, rfl, fun _ he => missing_restricts ctx he⟩
  have hrel := evaluateWithin_restricts hd hc (.inl ⟨@rfl _ ctx.recursionLimit, rfl⟩) e {}
  exact hrel.imp_left (congrArg Prod.fst)

/-- Strict evaluation only turns absent values into failures.  A value that it gives is the lenient
    one; where lenient evaluation gives a value, strict evaluation gives the same one or fails
    because a reference leads nowhere or a value has no members; and where lenient evaluation fails,
    strict evaluation fails as well. -/
theorem Expression.evaluate_strict (e : Expression) (ctx : EvaluationContext) :
    (∀ v, e.evaluate { ctx with strict := true } = .ok v →
      e.evaluate { ctx with strict := false } = .ok v) ∧
    (∀ v, e.evaluate { ctx with strict := false } = .ok v →
      e.evaluate { ctx with strict := true } = .ok v ∨
        ∃ x : EvalError, e.evaluate { ctx with strict := true } = .error x ∧
          (x.kind = .missingReference ∨ x.kind = .invalidAccess)) ∧
    ∀ x, e.evaluate { ctx with strict := false } = .error x →
      ∃ y, e.evaluate { ctx with strict := true } = .error y := by
  rcases e.evaluate_strict_cases ctx with heq | ⟨x, hx, hmissing⟩
  · rw [heq]
    exact ⟨fun _ h => h, fun _ h => .inl h, fun x h => ⟨x, h⟩⟩
  · rw [hx]
    exact ⟨nofun, fun _ _ => .inr ⟨x, rfl, hmissing⟩, fun _ _ => ⟨x, rfl⟩⟩

/-- An entity of which nothing is known. -/
def blank : EvaluationContext := .ofEntity {} { id := "entity", typePath := "entity" }

/-- Whether the entity has no value under a name. -/
def absenceTest : Expression := .binary .eq (.selfProperty "absent") (.literal .null)

/-- Lenient evaluation takes a property that does not exist for an absent value, strict evaluation
    fails for it. -/
theorem absenceTest_strict :
    absenceTest.evaluate { blank with strict := false } = .ok (some (.boolean true)) ∧
      ∃ x : EvalError, absenceTest.evaluate { blank with strict := true } = .error x ∧
        (x.kind = .missingReference ∨ x.kind = .invalidAccess) := by
  have hlenient : absenceTest.evaluate { blank with strict := false } =
      .ok (some (.boolean true)) := by rfl
  obtain ⟨-, hvalues, -⟩ := absenceTest.evaluate_strict blank
  refine ⟨hlenient, (hvalues _ hlenient).resolve_left fun h => ?_⟩
  exact nomatch h

end EntityFormulas
