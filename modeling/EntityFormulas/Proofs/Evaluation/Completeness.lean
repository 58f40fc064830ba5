/-
  EntityFormulas/Proofs/Evaluation/Completeness.lean
  ==================================================
  **Meanings are found.**

  A property that has a meaning is answered with it, unless evaluation runs out
  of levels (`property_complete`).  Properties on a cycle that were read before
  do not get in the way.

  The argument is by the number of levels that the meaning takes.  A property
  under evaluation takes at least as many levels as what is read for it, so a
  read that takes fewer never comes upon one (`Clear`), and no cycle is found
  where there is none.
-/
import EntityFormulas.Proofs.Evaluation.Soundness
import Mathlib.Data.Nat.Find

namespace EntityFormulas

open Evaluation

namespace EvaluationContext

variable (ctx : EvaluationContext)

/-- The answer is the meaning of the property, if it has one and evaluation does not run out of
    levels. -/
def Found (name : String) (r : EvalResult) : Prop :=
  Settled (ctx.ownMeaning name) → r = ctx.ownMeaning name ∨ TooDeep r

/-- A condition on answers that says at least that meanings are found, and that is met wherever
    they are. -/
structure Admissible (K : String → EvalResult → Prop) : Prop where
  found : ∀ name r, K name r → ctx.Found name r
  admits : ∀ name r, Settled (ctx.ownMeaning name) → ctx.Found name r → K name r

/-- No property under evaluation has a meaning that takes less than `n` levels. -/
def Clear (n : Nat) (s : EvalState) : Prop :=
  ∀ name ∈ s.inProgress, ∀ k < n, ¬ Settled (ownValue (ctx.denote k) ctx name)

/-- No property under evaluation has a meaning. -/
def Blocked (s : EvalState) : Prop := ∀ name ∈ s.inProgress, ¬ Settled (ctx.ownMeaning name)

/-- Answers that are found wherever the pure answer is settled and nothing under evaluation takes
    fewer than `n` levels. -/
def completeness (K : String → EvalResult → Prop) (n : Nat) :
    Simulation Eval (Except EvalError) where
  rel x y := Settled y → ∀ s : EvalState, s.Remembers K → ctx.Clear n s →
    ((x s).1 = y ∨ TooDeep (x s).1) ∧ (x s).2.Remembers K ∧ (x s).2.inProgress = s.inProgress
  gives _ _ := True
  pure _ _ _ hs _ := ⟨.inl rfl, hs, rfl⟩
  throw _ _ _ _ hs _ := ⟨.inl rfl, hs, rfl⟩
  bind {α β x y f g} hx hf hy s hs hn := by
    have hyx : Settled y := by
      cases y with
      | ok a => trivial
      | error e => exact hy
    obtain ⟨hans, hs', hp⟩ := hx hyx s hs hn
    rcases h : x s with ⟨r, s'⟩
    rw [h] at hans hs' hp
    cases r with
    | ok a =>
      have hya : y = .ok a := by
        rcases hans with hans | hans
        · exact hans.symm
        · exact absurd hans id
      have hn' : ctx.Clear n s' := by
        intro name hname
        exact hn name (hp ▸ hname)
      rw [Eval.bind_apply_ok h]
      rw [hya] at hy ⊢
      obtain ⟨hans', hs'', hp'⟩ := hf a trivial hy s' hs' hn'
      exact ⟨hans', hs'', hp'.trans hp⟩
    | error e =>
      rw [Eval.bind_apply_error h]
      refine ⟨?_, hs', hp⟩
      rcases hans with hans | hans
      · have hye : y = .error e := hans.symm
        rw [hye]
        exact .inl rfl
      · cases e with
        | depthExceeded limit => exact .inr trivial
        | _ => exact absurd hans id

variable {ctx}

theorem Blocked.clear {s : EvalState} (h : ctx.Blocked s) (n : Nat) : ctx.Clear n s := by
  intro name hname k _ hk
  have hown := ownMeaning_eq_denote hk
  exact h name hname (hown ▸ hk)

/-- A property without a meaning may join those under evaluation. -/
theorem Blocked.push {s : EvalState} (h : ctx.Blocked s) {name : String}
    (hm : ¬ Settled (ctx.ownMeaning name)) :
    ctx.Blocked { s with inProgress := s.inProgress ++ [name] } := by
  intro q hq
  rcases List.mem_append.1 hq with hq | hq
  · exact h q hq
  · rw [List.mem_singleton.1 hq]
    exact hm

/-- The least number of levels at which a formula is settled. -/
theorem exists_least_denote {n : Nat} {e : Expression} (h : Settled (ctx.denote n e)) :
    ∃ k ≤ n, Settled (ctx.denote k e) ∧ ∀ j < k, ¬ Settled (ctx.denote j e) := by
  classical
  have hex : ∃ k, Settled (ctx.denote k e) := ⟨n, h⟩
  exact ⟨Nat.find hex, Nat.find_min' hex h, Nat.find_spec hex, fun j hj => Nat.find_min hex hj⟩

section Levels

variable {K : String → EvalResult → Prop} (hK : ctx.Admissible K)
include hK

/-- A property whose formula is settled after `n` levels is found, given that all formulas that
    are settled after at most `n` levels are. -/
theorem ownProperty_complete (n : Nat) {ev : Expression → Eval (Option Value)}
    (hev : ∀ k ≤ n, ∀ e, (ctx.completeness K k).rel (ev e) (ctx.denote k e)) (name : String) :
    (ctx.completeness K (n + 1)).rel (Eval.ownProperty ev ctx name)
      (ownValue (ctx.denote n) ctx name) := by
  intro hy s hs hn
  have hown := ownMeaning_eq_denote hy
  rcases Eval.ownProperty_cases ev ctx name s with
    ⟨r, hr, heq⟩ | ⟨-, hmem, -⟩ | ⟨-, -, hp, heq⟩ | ⟨f, -, -, hp, heq⟩
  · rw [heq]
    have hfound := hK.found name r (hs name r hr) (hown ▸ hy)
    exact ⟨hown ▸ hfound, hs, rfl⟩
  · exact absurd hy (hn name hmem n (Nat.lt_succ_self n))
  · rw [heq]
    refine ⟨.inl ?_, hs, rfl⟩
    rw [ownValue_stored hp]
  · rw [heq]
    have hval (k : Nat) : ownValue (ctx.denote k) ctx name = ctx.denote k f := ownValue_pending hp
    rw [hval] at hy hown ⊢
    obtain ⟨k, hkn, hk, hleast⟩ := exists_least_denote hy
    -- Whatever is under evaluation takes at least `n` levels, and the property itself takes `k`.
    have hclear : ctx.Clear k { s with inProgress := s.inProgress ++ [name] } := by
      intro q hq j hj
      rcases List.mem_append.1 hq with hq | hq
      · exact hn q hq j (by omega)
      · rw [List.mem_singleton.1 hq, hval]
        exact hleast j hj
    obtain ⟨hans, hs', hp'⟩ := hev k hkn f hk { s with inProgress := s.inProgress ++ [name] } hs
      hclear
    rw [← denote_mono hkn hk] at hans
    have hadm : K name (ev f { s with inProgress := s.inProgress ++ [name] }).1 :=
      hK.admits name _ (hown ▸ hy) fun _ => hown ▸ hans
    exact ⟨hans, hs'.resolve hadm _, Eval.resolving_inProgress hp'⟩

/-- Whatever an evaluator has left, it finds the answers that are settled after `n` levels or runs
    out of levels. -/
theorem evaluateWithin_complete (n left : Nat) (e : Expression) :
    (ctx.completeness K n).rel (Eval.evaluateWithin ctx left e) (ctx.denote n e) := by
  -- On the levels that the meaning takes.  A pending property is found by the hypothesis at the
  -- least number of levels it takes, which no property above it can take as well.
  induction n using Nat.strongRecOn generalizing left e with
  | ind n ih =>
    intro hy s hs hn
    cases left with
    | zero => exact ⟨.inr trivial, hs, rfl⟩
    | succ left =>
      cases n with
      | zero => exact absurd hy (not_settled_denote_zero e)
      | succ n =>
        have hev (k : Nat) (hk : k ≤ n) (c : Expression) := ih k (by omega) left c
        have hrel := (ctx.completeness K (n + 1)).level_of_own ctx e
          (fun c _ hc s hs hn => hev n (Nat.le_refl n) c hc s hs fun q hq j hj => hn q hq j (by omega))
          (ownProperty_complete hK n hev)
        exact hrel hy { s with depth := s.depth + 1 } hs hn

theorem ownProperty_found {name : String} (hm : Settled (ctx.ownMeaning name)) (left : Nat)
    {s : EvalState} (hs : s.Remembers K) (hb : ctx.Blocked s) :
    ((Eval.ownProperty (Eval.evaluateWithin ctx left) ctx name s).1 = ctx.ownMeaning name ∨
      TooDeep (Eval.ownProperty (Eval.evaluateWithin ctx left) ctx name s).1) ∧
    (Eval.ownProperty (Eval.evaluateWithin ctx left) ctx name s).2.Remembers K ∧
    (Eval.ownProperty (Eval.evaluateWithin ctx left) ctx name s).2.inProgress = s.inProgress := by
  obtain ⟨n, hn⟩ := exists_ownDenote_eq hm
  have hrel := ownProperty_complete hK n (fun k _ e => evaluateWithin_complete hK k left e) name
  rw [← hn] at hm ⊢
  exact hrel hm s hs (hb.clear (n + 1))

end Levels

/-! ### Reads of any property -/

theorem admissible_found (ctx : EvaluationContext) : ctx.Admissible ctx.Found := ⟨fun _ _ h => h, fun _ _ _ h => h⟩

/-- Evaluation with nothing meaningful under way spoils nothing that is remembered. -/
def stability (ctx : EvaluationContext) : Simulation Eval Eval where
  rel x _ := ∀ s : EvalState, s.Remembers ctx.Found → ctx.Blocked s →
    (x s).2.Remembers ctx.Found ∧ (x s).2.inProgress = s.inProgress
  gives _ _ := True
  pure _ _ hs _ := ⟨hs, rfl⟩
  throw _ _ _ hs _ := ⟨hs, rfl⟩
  bind {α β x y f g} hx hf s hs hb := by
    obtain ⟨hs', hp⟩ := hx s hs hb
    rcases h : x s with ⟨r, s'⟩
    rw [h] at hs' hp
    cases r with
    | ok a =>
      rw [Eval.bind_apply_ok h]
      have hb' : ctx.Blocked s' := by
        intro q hq
        exact hb q (hp ▸ hq)
      obtain ⟨hs'', hp'⟩ := hf a trivial s' hs' hb'
      exact ⟨hs'', hp'.trans hp⟩
    | error e =>
      rw [Eval.bind_apply_error h]
      exact ⟨hs', hp⟩

theorem ownProperty_stable {left : Nat}
    (hev : ∀ e, ctx.stability.rel (Eval.evaluateWithin ctx left e) (Eval.evaluateWithin ctx left e))
    (name : String) :
    ctx.stability.rel (Eval.ownProperty (Eval.evaluateWithin ctx left) ctx name)
      (Eval.ownProperty (Eval.evaluateWithin ctx left) ctx name) := by
  intro s hs hb
  by_cases hm : Settled (ctx.ownMeaning name)
  · exact (ownProperty_found ctx.admissible_found hm left hs hb).2
  · rcases Eval.ownProperty_cases (Eval.evaluateWithin ctx left) ctx name s with
      ⟨r, -, heq⟩ | ⟨-, -, heq⟩ | ⟨-, -, -, heq⟩ | ⟨f, -, -, -, heq⟩ <;> rw [heq]
    · exact ⟨hs, rfl⟩
    · exact ⟨hs, rfl⟩
    · exact ⟨hs, rfl⟩
    · obtain ⟨hs', hp'⟩ := hev f { s with inProgress := s.inProgress ++ [name] } hs (hb.push hm)
      exact ⟨hs'.resolve (fun h => absurd h hm) _, Eval.resolving_inProgress hp'⟩

theorem evaluateWithin_stable (left : Nat) (e : Expression) :
    ctx.stability.rel (Eval.evaluateWithin ctx left e) (Eval.evaluateWithin ctx left e) := by
  induction left generalizing e with
  | zero => exact fun s hs _ => ⟨hs, rfl⟩
  | succ left ih =>
    intro s hs hb
    exact ctx.stability.level_of_own ctx e (fun c _ => ih c) (ownProperty_stable ih)
      { s with depth := s.depth + 1 } hs hb

/-- A read of a property outside of any evaluation finds its meaning or runs out of levels, and
    later reads find theirs as well. -/
theorem property_complete {s : EvalState} (hs : s.Remembers ctx.Found) (hp : s.inProgress = [])
    (name : String) :
    ctx.Found name (Eval.property ctx name s).1 ∧
      (Eval.property ctx name s).2.Remembers ctx.Found ∧
      (Eval.property ctx name s).2.inProgress = [] := by
  have hb : ctx.Blocked s := by
    intro q hq
    rw [hp] at hq
    exact absurd hq List.not_mem_nil
  rw [Eval.property_eq, ← hp]
  refine ⟨fun hm => (ownProperty_found ctx.admissible_found hm _ hs hb).1, ?_⟩
  exact ownProperty_stable (evaluateWithin_stable _) name s hs hb

/-- A fresh evaluator finds the meaning of a formula or runs out of levels. -/
theorem evaluate_complete {e : Expression} (h : Settled (ctx.meaning e)) :
    e.evaluate ctx = ctx.meaning e ∨ TooDeep (e.evaluate ctx) := by
  obtain ⟨n, hn⟩ := exists_denote_eq h
  have hrel := evaluateWithin_complete ctx.admissible_found n ctx.recursionLimit e
  rw [← hn] at h ⊢
  exact (hrel h {} (EvalState.remembers_start _) fun q hq => absurd hq List.not_mem_nil).1

end EvaluationContext

end EntityFormulas
