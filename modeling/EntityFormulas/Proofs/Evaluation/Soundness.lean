/-
  EntityFormulas/Proofs/Evaluation/Soundness.lean
  ===============================================
  **Settled answers are meanings.**

  Whatever an evaluator remembers from earlier calls and whatever is under
  evaluation: as long as the settled answers it remembers are meanings, a
  settled answer it gives is the meaning of the formula, and it goes on
  remembering meanings only (`evaluateWithin_sound`).
-/
import EntityFormulas.Proofs.Evaluation.Meaning

namespace EntityFormulas

open Evaluation

/-! ### Computations of an evaluator -/

namespace Eval

theorem bind_apply {α β : Type} (x : Eval α) (f : α → Eval β) (s : EvalState) :
    (x >>= f) s = match x s with
      | (.ok a, s') => f a s'
      | (.error e, s') => (.error e, s') := by
  show (ExceptT.bindCont f (x s).1) (x s).2 = _
  rcases x s with ⟨a | e, s'⟩ <;> rfl

theorem bind_apply_ok {α β : Type} {x : Eval α} {f : α → Eval β} {s s' : EvalState} {a : α}
    (h : x s = (.ok a, s')) : (x >>= f) s = f a s' := by rw [bind_apply, h]

theorem bind_apply_error {α β : Type} {x : Eval α} {f : α → Eval β} {s s' : EvalState}
    {e : EvalError} (h : x s = (.error e, s')) : (x >>= f) s = (.error e, s') := by
  rw [bind_apply, h]

/-- Computations that neither read nor change the state. -/
def stateless : Simulation Eval (Except EvalError) where
  rel x y := ∀ s, x s = (y, s)
  gives _ _ := True
  pure _ _ := rfl
  throw _ _ _ := rfl
  bind {α β x y f g} hx hf s := by
    cases y with
    | ok a => rw [bind_apply_ok (hx s), hf a trivial s]; rfl
    | error e => rw [bind_apply_error (hx s)]; rfl

theorem evaluateWithin_succ (ctx : EvaluationContext) (left : Nat) (e : Expression) :
    evaluateWithin ctx (left + 1) e = nested (level (evaluateWithin ctx left)
      (contextReads (ownProperty (evaluateWithin ctx left) ctx) ctx) ctx e) := rfl

/-! ### Reading own properties -/

variable {ev : Expression → Eval (Option Value)} {ctx : EvaluationContext} {name : String}
  {s : EvalState}

theorem ownProperty_resolved {r : EvalResult} (h : s.resolved.get? name = some r) :
    ownProperty ev ctx name s = (r, s) := by
  have hs : ownProperty ev ctx name s = (liftExcept r : Eval _) s := by
    unfold ownProperty
    rw [bind_apply_ok (show (get : Eval EvalState) s = (.ok s, s) from rfl), h]
  rw [hs]
  cases r with
  | ok a => rfl
  | error e => rfl

/-- The names on the cycle that reading a property under evaluation closes. -/
theorem ownProperty_inProgress (hr : s.resolved.get? name = none) (h : name ∈ s.inProgress) :
    ownProperty ev ctx name s =
      (.error (.circular (s.inProgress.dropWhile (· ≠ name) ++ [name])), s) := by
  unfold ownProperty
  rw [bind_apply_ok (show (get : Eval EvalState) s = (.ok s, s) from rfl), hr]
  simp only [if_pos h]
  rfl

theorem ownProperty_pending {e : Expression} (hr : s.resolved.get? name = none)
    (h : name ∉ s.inProgress) (hp : ctx.pending.get? name = some e) :
    ownProperty ev ctx name s = resolving name (ev e) s := by
  unfold ownProperty
  rw [bind_apply_ok (show (get : Eval EvalState) s = (.ok s, s) from rfl), hr]
  simp only [if_neg h, hp]

theorem ownProperty_stored (hr : s.resolved.get? name = none) (h : name ∉ s.inProgress)
    (hp : ctx.pending.get? name = none) :
    ownProperty ev ctx name s = (storedProperty ctx name, s) := by
  have hs : ownProperty ev ctx name s = (storedProperty ctx name : Eval _) s := by
    unfold ownProperty
    rw [bind_apply_ok (show (get : Eval EvalState) s = (.ok s, s) from rfl), hr]
    simp only [if_neg h, hp]
  rw [hs]
  exact stateless.storedProperty name s

/-- How a read of an own property is answered. -/
theorem ownProperty_cases (ev : Expression → Eval (Option Value)) (ctx : EvaluationContext)
    (name : String) (s : EvalState) :
    (∃ r, s.resolved.get? name = some r ∧ ownProperty ev ctx name s = (r, s)) ∨
    (s.resolved.get? name = none ∧ name ∈ s.inProgress ∧ ownProperty ev ctx name s =
      (.error (.circular (s.inProgress.dropWhile (· ≠ name) ++ [name])), s)) ∨
    (s.resolved.get? name = none ∧ name ∉ s.inProgress ∧ ctx.pending.get? name = none ∧
      ownProperty ev ctx name s = (storedProperty ctx name, s)) ∨
    (∃ f, s.resolved.get? name = none ∧ name ∉ s.inProgress ∧ ctx.pending.get? name = some f ∧
      ownProperty ev ctx name s = resolving name (ev f) s) := by
  cases hr : s.resolved.get? name with
  | some r => exact .inl ⟨r, rfl, ownProperty_resolved hr⟩
  | none =>
    by_cases hmem : name ∈ s.inProgress
    · exact .inr (.inl ⟨rfl, hmem, ownProperty_inProgress hr hmem⟩)
    · cases hp : ctx.pending.get? name with
      | none => exact .inr (.inr (.inl ⟨rfl, hmem, rfl, ownProperty_stored hr hmem hp⟩))
      | some f => exact .inr (.inr (.inr ⟨f, rfl, hmem, rfl, ownProperty_pending hr hmem hp⟩))

/-- A pending property no longer counts as under evaluation once it has been evaluated. -/
theorem resolving_inProgress {m : Eval (Option Value)}
    (h : (m { s with inProgress := s.inProgress ++ [name] }).2.inProgress = s.inProgress ++ [name]) :
    (resolving name m s).2.inProgress = s.inProgress :=
  -- The name put last is the one that is taken away again.
  (congrArg List.dropLast h).trans List.dropLast_concat

/-- A read of a property is one with the levels that are left. -/
theorem property_eq : property ctx name s =
    ownProperty (evaluateWithin ctx (ctx.recursionLimit - s.depth)) ctx name s := by
  unfold property
  rcases ownProperty_cases (evaluateWithin ctx (ctx.recursionLimit - s.depth)) ctx name s with
    ⟨r, hr, heq⟩ | ⟨hr, h, heq⟩ | ⟨hr, h, hp, heq⟩ | ⟨f, hr, h, hp, heq⟩ <;> rw [heq]
  · exact ownProperty_resolved hr
  · exact ownProperty_inProgress hr h
  · exact ownProperty_stored hr h hp
  · exact ownProperty_pending hr h hp

end Eval

/-! ### What an evaluator remembers -/

/-- Every remembered answer meets a condition. -/
def EvalState.Remembers (K : String → EvalResult → Prop) (s : EvalState) : Prop :=
  ∀ name r, s.resolved.get? name = some r → K name r

theorem EvalState.remembers_start (K : String → EvalResult → Prop) : Remembers K {} :=
  fun _ _ h => nomatch h

theorem EvalState.Remembers.resolve {K : String → EvalResult → Prop} {s : EvalState}
    (hs : s.Remembers K) {name : String} {r : EvalResult} (h : K name r) (names : List String) :
    Remembers K { s with inProgress := names, resolved := s.resolved.insert name r } := by
  intro name' r' hr
  rw [Dict.get?_insert] at hr
  split at hr
  · rename_i heq
    cases heq
    cases hr
    exact h
  · exact hs name' r' hr

namespace EvaluationContext

variable (ctx : EvaluationContext)

/-- The answer of a property is its meaning if it is settled. -/
def Sound (name : String) (r : EvalResult) : Prop := Settled r → ctx.ownMeaning name = r

/-- Answers that are meanings as soon as they are settled, given that those remembered are. -/
def soundness : Simulation Eval (Except EvalError) where
  rel x y := ∀ s, s.Remembers ctx.Sound → (x s).2.Remembers ctx.Sound ∧ (Settled (x s).1 → y = (x s).1)
  gives _ _ := True
  pure _ _ hs := ⟨hs, fun _ => rfl⟩
  throw _ _ _ hs := ⟨hs, fun _ => rfl⟩
  bind {α β x y f g} hx hf s hs := by
    obtain ⟨hs', hy⟩ := hx s hs
    rcases h : x s with ⟨r, s'⟩
    rw [h] at hs' hy
    cases r with
    | ok a =>
      rw [Eval.bind_apply_ok h, hy trivial]
      exact hf a trivial s' hs'
    | error e =>
      rw [Eval.bind_apply_error h]
      refine ⟨hs', fun he => ?_⟩
      rw [hy he]
      rfl

variable {ctx}

theorem ownProperty_sound {ev : Expression → Eval (Option Value)}
    (hev : ∀ e, ctx.soundness.rel (ev e) (ctx.meaning e)) (name : String) :
    ctx.soundness.rel (Eval.ownProperty ev ctx name) (ctx.ownMeaning name) := by
  intro s hs
  rcases Eval.ownProperty_cases ev ctx name s with
    ⟨r, hr, heq⟩ | ⟨-, -, heq⟩ | ⟨-, -, hp, heq⟩ | ⟨f, -, -, hp, heq⟩ <;> rw [heq]
  · exact ⟨hs, hs name r hr⟩
  · exact ⟨hs, fun h => absurd trivial h⟩
  · refine ⟨hs, fun _ => ?_⟩
    exact ownMeaning_stored hp
  · have hown : ctx.ownMeaning name = ctx.meaning f := ownMeaning_pending hp
    obtain ⟨hs', hf⟩ := hev f { s with inProgress := s.inProgress ++ [name] } hs
    have hsound : ctx.Sound name (ev f { s with inProgress := s.inProgress ++ [name] }).1 :=
      fun h => hown.trans (hf h)
    exact ⟨hs'.resolve hsound _, hsound⟩

/-- A settled answer of an evaluator that remembers meanings is the meaning of the formula. -/
theorem evaluateWithin_sound (left : Nat) (e : Expression) :
    ctx.soundness.rel (Eval.evaluateWithin ctx left e) (ctx.meaning e) := by
  induction left generalizing e with
  | zero => exact fun s hs => ⟨hs, fun h => absurd trivial h⟩
  | succ left ih =>
    intro s hs
    have hrel := ctx.soundness.level_of_own ctx e (fun c _ => ih c) (ownProperty_sound ih)
    obtain ⟨hs', hlevel⟩ := hrel { s with depth := s.depth + 1 } hs
    refine ⟨hs', fun h => ?_⟩
    have hl := hlevel h
    rw [meaning_of_settled_level (hl ▸ h)]
    exact hl

/-- A settled answer to a read of a property is its meaning. -/
theorem property_sound {s : EvalState} (hs : s.Remembers ctx.Sound) (name : String) :
    (Eval.property ctx name s).2.Remembers ctx.Sound ∧
      ctx.Sound name (Eval.property ctx name s).1 := by
  rw [Eval.property_eq]
  exact ownProperty_sound (evaluateWithin_sound _) name s hs

/-- A settled answer of a fresh evaluator is the meaning of the formula. -/
theorem evaluate_sound {e : Expression} (h : Settled (e.evaluate ctx)) :
    ctx.meaning e = e.evaluate ctx :=
  (evaluateWithin_sound _ e {} (EvalState.remembers_start _)).2 h

end EvaluationContext

end EntityFormulas
