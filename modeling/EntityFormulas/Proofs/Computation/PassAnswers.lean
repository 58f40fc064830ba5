/-
  EntityFormulas/Proofs/Computation/PassAnswers.lean
  ==================================================
  **The answers behind a pass.**

  The evaluator of a pass goes from property to property and remembers what it
  has found.  Between two of them nothing is under evaluation and what it
  remembers is sound and traced, so every verdict comes from an answer that is.
-/
import EntityFormulas.Proofs.Computation.Outcome
import EntityFormulas.Proofs.Evaluation.Cycles

namespace EntityFormulas

/-- What an evaluator remembers between the properties of a pass. -/
structure EvaluationContext.Between (ctx : EvaluationContext) (s : EvalState) : Prop where
  traced : s.Remembers ctx.Traced
  sound : s.Remembers ctx.Sound
  idle : s.inProgress = []

theorem EvaluationContext.Between.property {ctx : EvaluationContext} {s : EvalState}
    (h : ctx.Between s) (name : String) : ctx.Between (Eval.property ctx name s).2 := by
  obtain ⟨_, htraced, hidle⟩ := property_traced h.traced h.idle name
  exact ⟨htraced, (property_sound h.sound name).1, hidle⟩

theorem EvaluationContext.between_start (ctx : EvaluationContext) : ctx.Between {} :=
  ⟨EvalState.remembers_start _, EvalState.remembers_start _, rfl⟩

/-- The verdict on an answer for want of levels says so. -/
theorem Verdict.ranOut_of_tooDeep {p q : ComputedProperty} (h : p.status ≠ .circular)
    {now name : String} {r : EvalResult} (hr : TooDeep r)
    (hq : (ofAnswer now name r).applied (.computed p) = .computed q) : q.RanOut := by
  cases r with
  | ok v => exact absurd hr id
  | error err =>
    cases err with
    | depthExceeded limit =>
      have herror := ofAnswer_applied_error h now name (.depthExceeded limit)
      rw [hq] at herror
      exact ⟨limit, herror⟩
    | _ => exact absurd hr id

namespace Selection

variable {e : Entity} (h : e.NamesAgree) (now : String) (scope : Scope) {ctx : EvaluationContext}
  (hctx : ctx.properties = e.properties)
include h hctx

/-- A selected property moves by an answer that is traced and sound. -/
theorem compute_answer {name : String} {p : ComputedProperty} {f : Expression}
    (hp : e.properties.get? name = some (.computed p)) (hsel : scope.selects p.status = true)
    (hf : Expression.parse p.expression = .ok f) :
    ∃ r, ((ofEntity scope e).passContext now ctx).Traced name r ∧
      ((ofEntity scope e).passContext now ctx).Sound name r ∧
      ((ofEntity scope e).compute now ctx ⟨e.properties, []⟩).properties.get? name =
        some ((Verdict.ofAnswer now name r).applied (.computed p)) := by
  obtain ⟨s, hs, hget⟩ := compute_computed h now scope hctx
    (P := ((ofEntity scope e).passContext now ctx).Between) (fun name s hs => hs.property name)
    (EvaluationContext.between_start _) hp hsel hf
  exact ⟨_, (EvaluationContext.property_traced hs.traced hs.idle name).1,
    (EvaluationContext.property_sound hs.sound name).2, hget⟩

end Selection

end EntityFormulas
