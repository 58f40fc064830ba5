/-
  EntityFormulas/Proofs/Evaluation/Meaning.lean
  =============================================
  **What a formula means.**

  `denote` evaluates a formula without remembering anything and without looking
  for cycles: it unfolds a pending property wherever it is read, `n` levels
  deep.  An answer that does not fail for want of levels stays the same with
  more of them (`denote_mono`), so a formula has at most one such answer, its
  `meaning`.

  The meaning of a formula is one level of evaluation over the meanings of the
  formulas below it and of the properties that it reads
  (`level_of_settled_meaning`, `meaning_of_settled_level`); what runs on a cycle
  of properties has none.
-/
import EntityFormulas.Proofs.Evaluation.Simulation

namespace EntityFormulas

/-! ### Evaluation without memory -/

/-- Answers that agree as soon as the first is settled. -/
def Simulation.refinement : Simulation (Except EvalError) (Except EvalError) where
  rel x y := Settled x → y = x
  gives y a := y = .ok a
  pure _ _ := rfl
  throw _ _ _ := rfl
  bind {α β x y f g} hx hf hs := by
    cases x with
    | ok a =>
      have hy : y = .ok a := hx trivial
      rw [hy]
      exact hf a hy hs
    | error e =>
      have hy : y = .error e := hx hs
      rw [hy]
      rfl

/-- The value of an own property, where `evaluate` evaluates the formula of a pending one. -/
def Evaluation.ownValue {m : Type → Type} [Monad m] [MonadExceptOf EvalError m]
    (evaluate : Expression → m (Option Value)) (ctx : EvaluationContext) (name : String) :
    m (Option Value) :=
  match ctx.pending.get? name with
  | some e => evaluate e
  | none => storedProperty ctx name

section OwnValue

variable {m : Type → Type} [Monad m] [MonadExceptOf EvalError m]
  {evaluate : Expression → m (Option Value)} {ctx : EvaluationContext} {name : String}

theorem Evaluation.ownValue_pending {f : Expression} (hf : ctx.pending.get? name = some f) :
    Evaluation.ownValue evaluate ctx name = evaluate f := by
  rw [Evaluation.ownValue, hf]

theorem Evaluation.ownValue_stored (hn : ctx.pending.get? name = none) :
    Evaluation.ownValue evaluate ctx name = storedProperty ctx name := by
  rw [Evaluation.ownValue, hn]

end OwnValue

theorem Simulation.ownValue {m n : Type → Type} [Monad m] [Monad n] [MonadExceptOf EvalError m]
    [MonadExceptOf EvalError n] (S : Simulation m n) {ctx : EvaluationContext}
    {ev : Expression → m (Option Value)} {ev' : Expression → n (Option Value)} (name : String)
    (h : ∀ e, ctx.pending.get? name = some e → S.rel (ev e) (ev' e)) :
    S.rel (Evaluation.ownValue ev ctx name) (Evaluation.ownValue ev' ctx name) := by
  unfold Evaluation.ownValue
  split
  · rename_i e he
    exact h e he
  · exact S.storedProperty name

namespace EvaluationContext

open Evaluation

variable (ctx : EvaluationContext)

/-- The answer of a formula when pending properties are unfolded wherever they are read and
    evaluation nests at most `n` levels deep. -/
def denote : (n : Nat) → Expression → EvalResult
  | 0, _ => .error (.depthExceeded ctx.recursionLimit)
  | n + 1, e => level (denote n) (contextReads (ownValue (denote n) ctx) ctx) ctx e

variable {ctx}

theorem not_settled_denote_zero (e : Expression) : ¬ Settled (ctx.denote 0 e) :=
  not_settled_depthExceeded _

theorem denote_succ {n : Nat} {e : Expression} (h : Settled (ctx.denote n e)) :
    ctx.denote (n + 1) e = ctx.denote n e := by
  induction n generalizing e with
  | zero => exact absurd h (not_settled_denote_zero e)
  | succ n ih =>
    have hrel : Simulation.refinement.rel (ctx.denote (n + 1) e) (ctx.denote (n + 2) e) :=
      Simulation.refinement.level_of_own ctx e (fun c _ hc => ih hc) fun name =>
        Simulation.refinement.ownValue name fun f _ hf => ih hf
    exact hrel h

/-- A settled answer stays the same with more levels. -/
theorem denote_mono {n k : Nat} (hk : n ≤ k) {e : Expression} (h : Settled (ctx.denote n e)) :
    ctx.denote k e = ctx.denote n e := by
  induction hk with
  | refl => rfl
  | step _ ih => rw [denote_succ (ih ▸ h), ih]

theorem ownValue_denote_mono {n k : Nat} (hk : n ≤ k) {name : String}
    (h : Settled (ownValue (ctx.denote n) ctx name)) :
    ownValue (ctx.denote k) ctx name = ownValue (ctx.denote n) ctx name :=
  Simulation.refinement.ownValue name (fun _ _ he => denote_mono hk he) h

/-! ### Meanings -/

variable (ctx)

open Classical in
/-- The settled answer of a formula; a formula without one runs out of levels. -/
noncomputable def meaning (e : Expression) : EvalResult :=
  if h : ∃ n, Settled (ctx.denote n e) then ctx.denote h.choose e
  else .error (.depthExceeded ctx.recursionLimit)

/-- The meaning of an own property. -/
noncomputable def ownMeaning (name : String) : EvalResult := ownValue ctx.meaning ctx name

variable {ctx}

theorem meaning_eq_denote {n : Nat} {e : Expression} (h : Settled (ctx.denote n e)) :
    ctx.meaning e = ctx.denote n e := by
  have hex : ∃ n, Settled (ctx.denote n e) := ⟨n, h⟩
  rw [meaning, dif_pos hex]
  rcases Nat.le_total n hex.choose with hle | hle
  · exact denote_mono hle h
  · exact (denote_mono hle hex.choose_spec).symm

theorem exists_denote_eq {e : Expression} (h : Settled (ctx.meaning e)) :
    ∃ n, ctx.denote n e = ctx.meaning e := by
  by_cases hex : ∃ n, Settled (ctx.denote n e)
  · obtain ⟨n, hn⟩ := hex
    exact ⟨n, (meaning_eq_denote hn).symm⟩
  · rw [meaning, dif_neg hex] at h
    exact absurd h (not_settled_depthExceeded _)

theorem ownMeaning_eq_denote {n : Nat} {name : String}
    (h : Settled (ownValue (ctx.denote n) ctx name)) :
    ctx.ownMeaning name = ownValue (ctx.denote n) ctx name :=
  Simulation.refinement.ownValue name (fun _ _ he => meaning_eq_denote he) h

theorem ownMeaning_pending {name : String} {f : Expression} (hf : ctx.pending.get? name = some f) :
    ctx.ownMeaning name = ctx.meaning f := ownValue_pending hf

theorem ownMeaning_stored {name : String} (hn : ctx.pending.get? name = none) :
    ctx.ownMeaning name = storedProperty ctx name := ownValue_stored hn

theorem exists_ownDenote_eq {name : String} (h : Settled (ctx.ownMeaning name)) :
    ∃ n, ownValue (ctx.denote n) ctx name = ctx.ownMeaning name := by
  cases hp : ctx.pending.get? name with
  | some f =>
    rw [ownMeaning_pending hp] at h ⊢
    simp only [ownValue_pending hp]
    exact exists_denote_eq h
  | none => exact ⟨0, (ownValue_stored hp).trans (ownMeaning_stored hp).symm⟩

/-! ### The meaning as a fixed point -/

/-- Computations with ever more levels whose answers end up at a settled one. -/
private def approach : Simulation (ReaderT Nat (Except EvalError)) (Except EvalError) where
  rel x y := Settled y → ∃ N, ∀ k, N ≤ k → x.run k = y
  gives _ _ := True
  pure _ _ := ⟨0, fun _ _ => rfl⟩
  throw _ _ _ := ⟨0, fun _ _ => rfl⟩
  bind {α β x y f g} hx hf hs := by
    cases y with
    | ok a =>
      obtain ⟨N, hN⟩ := hx trivial
      obtain ⟨M, hM⟩ := hf a trivial hs
      refine ⟨max N M, fun k hk => ?_⟩
      have hxk : x.run k = .ok a := hN k (Nat.le_trans (Nat.le_max_left ..) hk)
      rw [ReaderT.run_bind, hxk]
      exact hM k (Nat.le_trans (Nat.le_max_right ..) hk)
    | error e =>
      obtain ⟨N, hN⟩ := hx hs
      refine ⟨N, fun k hk => ?_⟩
      rw [ReaderT.run_bind, hN k hk]
      rfl

/-- A computation in all numbers of levels at one of them. -/
private def atLevels (k : Nat) : Simulation (ReaderT Nat (Except EvalError)) (Except EvalError) where
  rel x y := x.run k = y
  gives _ _ := True
  pure _ := rfl
  throw _ _ := rfl
  bind {α β x y f g} hx hf := by
    rw [ReaderT.run_bind, hx]
    cases y with
    | ok a => exact hf a trivial
    | error e => rfl

theorem meaning_of_settled_level {e : Expression}
    (h : Settled (level ctx.meaning (contextReads ctx.ownMeaning ctx) ctx e)) :
    ctx.meaning e = level ctx.meaning (contextReads ctx.ownMeaning ctx) ctx e := by
  let ev : Expression → ReaderT Nat (Except EvalError) (Option Value) := fun c k => ctx.denote k c
  have hrun (k : Nat) : (level ev (contextReads (ownValue ev ctx) ctx) ctx e).run k =
      ctx.denote (k + 1) e :=
    (atLevels k).level_of_own ctx e (fun c _ => rfl) fun name => (atLevels k).ownValue name fun _ _ => rfl
  have hev (c : Expression) : approach.rel (ev c) (ctx.meaning c) := by
    intro hc
    obtain ⟨N, hN⟩ := exists_denote_eq hc
    exact ⟨N, fun k hk => (denote_mono hk (hN ▸ hc)).trans hN⟩
  have hlim : approach.rel (level ev (contextReads (ownValue ev ctx) ctx) ctx e)
      (level ctx.meaning (contextReads ctx.ownMeaning ctx) ctx e) :=
    approach.level_of_own ctx e (fun c _ => hev c) fun name => approach.ownValue name fun f _ => hev f
  obtain ⟨N, hN⟩ := hlim h
  have hd : ctx.denote (N + 1) e = level ctx.meaning (contextReads ctx.ownMeaning ctx) ctx e := by
    rw [← hrun N]
    exact hN N (Nat.le_refl N)
  rw [meaning_eq_denote (hd ▸ h), hd]

theorem level_of_settled_meaning {e : Expression} (h : Settled (ctx.meaning e)) :
    level ctx.meaning (contextReads ctx.ownMeaning ctx) ctx e = ctx.meaning e := by
  obtain ⟨n, hn⟩ := exists_denote_eq h
  cases n with
  | zero => exact absurd (hn ▸ h) (not_settled_denote_zero e)
  | succ n =>
    have hrel : Simulation.refinement.rel (ctx.denote (n + 1) e)
        (level ctx.meaning (contextReads ctx.ownMeaning ctx) ctx e) :=
      Simulation.refinement.level_of_own ctx e (fun c _ hc => meaning_eq_denote hc) fun name =>
        Simulation.refinement.ownValue name fun f _ hf => meaning_eq_denote hf
    rw [hrel (hn ▸ h), hn]

end EvaluationContext

end EntityFormulas
