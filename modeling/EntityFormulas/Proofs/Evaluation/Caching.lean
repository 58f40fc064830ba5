/-
  EntityFormulas/Proofs/Evaluation/Caching.lean
  =============================================
  **Reading caches instead of evaluating.**

  A property that is pending in one context may be stored in another.  As long
  as the stored value is what evaluation gives, formulas keep the meanings that
  they have (`Caches.meaning`).
-/
import EntityFormulas.Proofs.Evaluation.Agreement

namespace EntityFormulas

open Evaluation

namespace EvaluationContext

/-- The second context stores own properties that have to be evaluated in the first one, with the
    values that evaluation gives.  Everything else is read alike. -/
structure Caches (ctx ctx' : EvaluationContext) : Prop where
  alike : ctx.Alike ctx'
  entities : ctx.entities = ctx'.entities
  relationships : ctx.relationships = ctx'.relationships
  has : ∀ name, ctx.hasOwnProperty name = ctx'.hasOwnProperty name
  pending : ∀ name f, ctx'.pending.get? name = some f → ctx.pending.get? name = some f
  stored : ∀ name, ctx'.pending.get? name = none → Settled (ctx.ownMeaning name) →
    storedProperty ctx' name = ctx.ownMeaning name

variable {ctx ctx' : EvaluationContext} (h : ctx.Caches ctx')
include h

theorem Caches.denote {n : Nat} {e : Expression} (hs : Settled (ctx.denote n e)) :
    ctx'.meaning e = ctx.denote n e := by
  induction n generalizing e with
  | zero => exact absurd hs (not_settled_denote_zero e)
  | succ n ih =>
    have hown (name : String) : Simulation.refinement.rel (ownValue (ctx.denote n) ctx name)
        (ctx'.ownMeaning name) := by
      intro hs
      cases hp : ctx'.pending.get? name with
      | some f =>
        rw [ownValue_pending (h.pending name f hp)] at hs ⊢
        rw [ownMeaning_pending hp]
        exact ih hs
      | none =>
        have hmeaning := ownMeaning_eq_denote hs
        rw [← hmeaning, ← h.stored name hp (hmeaning ▸ hs)]
        exact ownMeaning_stored hp
    have hrel : Simulation.refinement.rel (ctx.denote (n + 1) e)
        (level ctx'.meaning (contextReads ctx'.ownMeaning ctx') ctx' e) := by
      refine Simulation.refinement.level h.alike e (fun c _ => ih) (fun name _ => hown name)
        (fun id _ => ?_) (fun o name _ v _ id _ => ?_)
      · show Simulation.refinement.rel (Evaluation.entityRef ctx id) (Evaluation.entityRef ctx' id)
        rw [entityRef_of_same h.alike h.entities h.relationships]
        exact Simulation.refinement.entityRef id
      · show Simulation.refinement.rel (entityMember _ ctx id name) (entityMember _ ctx' id name)
        rw [entityMember_congr h.alike _ (h.has name) (servesMember_of_same h.entities h.relationships id name)]
        exact Simulation.refinement.entityMember id name (hown name)
    have heq := hrel hs
    rw [meaning_of_settled_level (heq ▸ hs)]
    exact heq

/-- What has a meaning where it is evaluated has the same one where properties are stored. -/
theorem Caches.meaning {e : Expression} (hs : Settled (ctx.meaning e)) :
    ctx'.meaning e = ctx.meaning e := by
  obtain ⟨n, hn⟩ := exists_denote_eq hs
  rw [← hn] at hs ⊢
  exact h.denote hs

theorem Caches.ownMeaning {name : String} (hs : Settled (ctx.ownMeaning name)) :
    ctx'.ownMeaning name = ctx.ownMeaning name := by
  cases hp : ctx'.pending.get? name with
  | some f =>
    rw [ownMeaning_pending (h.pending name f hp)] at hs ⊢
    rw [ownMeaning_pending hp]
    exact h.meaning hs
  | none =>
    rw [← h.stored name hp hs]
    exact ownMeaning_stored hp

end EvaluationContext

end EntityFormulas
