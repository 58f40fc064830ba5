/-
  EntityFormulas/Proofs/Evaluation/Calls.lean
  ===========================================
  **Sequences of calls of one evaluator.**

  An evaluator lives through calls for formulas, properties and templates, and
  what it remembers of one serves the next.  Each settled answer is nevertheless
  derivable by rules that know of no memory, and every call, failed or not,
  leaves nothing under evaluation (`Eval.Call.answer_derivable`).
-/
import EntityFormulas.Proofs.Evaluation.Derivation
import EntityFormulas.Proofs.Evaluation.Soundness
import Mathlib.Data.List.Induction

namespace EntityFormulas

open Evaluation

/-! ### Calls -/

/-- What an evaluator is asked for. -/
inductive Eval.Call where
  | evaluate (e : Expression)
  | property (name : String)
  | render (t : Template)

namespace Eval.Call

/-- What an answer without failure is. -/
abbrev Result : Call → Type
  | .evaluate _ | .property _ => Option Value
  | .render _ => String

/-- The answer of an evaluator. -/
def run (ctx : EvaluationContext) : (c : Call) → Eval c.Result
  | .evaluate e => Eval.expression ctx e
  | .property name => Eval.property ctx name
  | .render t => Eval.render ctx t

/-- What a fresh evaluator remembers after a sequence of calls. -/
def after (ctx : EvaluationContext) (calls : List Call) : EvalState :=
  calls.foldl (fun s c => (c.run ctx s).2) {}

theorem after_concat (ctx : EvaluationContext) (calls : List Call) (c : Call) :
    after ctx (calls ++ [c]) = (c.run ctx (after ctx calls)).2 := by
  simp [after]

end Eval.Call

/-! ### Texts -/

/-- The text of the parts of a template: absent values leave no text. -/
inductive EvaluationContext.Renders (ctx : EvaluationContext) :
    List TemplatePart → Except EvalError String → Prop
  | nil : Renders ctx [] (.ok "")
  | text {content : String} {rest : List TemplatePart} {r : Except EvalError String}
      (others : Renders ctx rest r) : Renders ctx (.text content :: rest) (r.map (content ++ ·))
  | value {source : String} {e : Expression} {v : Value} {rest : List TemplatePart}
      {r : Except EvalError String} (value : ctx.Derives e (.ok (some v)))
      (others : Renders ctx rest r) :
      Renders ctx (.interpolation source e :: rest) (r.map (v.displayText ++ ·))
  | absent {source : String} {e : Expression} {rest : List TemplatePart}
      {r : Except EvalError String} (absent : ctx.Derives e (.ok none))
      (others : Renders ctx rest r) : Renders ctx (.interpolation source e :: rest) r
  | failure {source : String} {e : Expression} {rest : List TemplatePart} {x : EvalError}
      (fails : ctx.Derives e (.error x)) :
      Renders ctx (.interpolation source e :: rest) (.error x)

namespace EvaluationContext

variable {ctx : EvaluationContext}

/-- The text of a part when its formula has its meaning. -/
noncomputable def partMeaning (ctx : EvaluationContext) : TemplatePart → Except EvalError String
  | .text content => .ok content
  | .interpolation _ e => do
    return ((← ctx.meaning e).map Value.displayText).getD ""

/-- The text of a template when its formulas have their meanings. -/
noncomputable def textMeaning (ctx : EvaluationContext) (parts : List TemplatePart) :
    Except EvalError String := do
  return String.join (← parts.mapM ctx.partMeaning)

theorem map_empty_append (r : Except EvalError String) : r.map ("" ++ ·) = r := by
  cases r with
  | ok s => exact congrArg Except.ok String.empty_append
  | error x => rfl

theorem textMeaning_cons (part : TemplatePart) (rest : List TemplatePart) :
    ctx.textMeaning (part :: rest) =
      ctx.partMeaning part >>= fun s => (ctx.textMeaning rest).map (s ++ ·) := by
  unfold textMeaning
  rw [List.mapM_cons]
  cases ctx.partMeaning part with
  | error x => rfl
  | ok s =>
    cases rest.mapM ctx.partMeaning with
    | error x => rfl
    | ok texts => exact congrArg Except.ok (by simp)

theorem renders_textMeaning (parts : List TemplatePart) (h : Settled (ctx.textMeaning parts)) :
    ctx.Renders parts (ctx.textMeaning parts) := by
  induction parts with
  | nil => exact .nil
  | cons part rest ih =>
    rw [textMeaning_cons] at h ⊢
    cases part with
    | text content => exact .text (ih (Settled.of_map h))
    | interpolation source e =>
      have he : ctx.Derives e (ctx.meaning e) :=
        derives_meaning (Settled.of_bind (Settled.of_bind h))
      cases hv : ctx.meaning e with
      | error x =>
        rw [partMeaning, hv]
        exact .failure (hv ▸ he)
      | ok v =>
        rw [partMeaning, hv] at h ⊢
        rw [hv] at he
        have hrest : ctx.Renders rest (ctx.textMeaning rest) := ih (Settled.of_map h)
        cases v with
        | none =>
          change ctx.Renders _ ((ctx.textMeaning rest).map ("" ++ ·))
          rw [map_empty_append]
          exact .absent he hrest
        | some v => exact .value he hrest

/-- A text by rules is settled, and what the meanings of the formulas give. -/
theorem Renders.textMeaning {parts : List TemplatePart} {r : Except EvalError String}
    (h : ctx.Renders parts r) : Settled r ∧ ctx.textMeaning parts = r := by
  induction h with
  | nil => exact ⟨trivial, rfl⟩
  | text others ih =>
    obtain ⟨hs, rfl⟩ := ih
    rw [textMeaning_cons]
    exact ⟨hs.map _, rfl⟩
  | value value others ih =>
    obtain ⟨hs, rfl⟩ := ih
    rw [textMeaning_cons, partMeaning, value.meaning.2]
    exact ⟨hs.map _, rfl⟩
  | absent absent others ih =>
    obtain ⟨hs, rfl⟩ := ih
    rw [textMeaning_cons, partMeaning, absent.meaning.2]
    exact ⟨hs, map_empty_append _⟩
  | failure fails =>
    rw [textMeaning_cons, partMeaning, fails.meaning.2]
    exact ⟨fails.meaning.1, rfl⟩

end EvaluationContext

/-! ### What a call leaves behind -/

/-- Computations that leave nesting and the properties under evaluation as they were. -/
def tidiness : Simulation Eval Eval where
  rel x _ := ∀ s : EvalState, (x s).2.depth = s.depth ∧ (x s).2.inProgress = s.inProgress
  gives _ _ := True
  pure _ _ := ⟨rfl, rfl⟩
  throw _ _ _ := ⟨rfl, rfl⟩
  bind {α β x y f g} hx hf s := by
    obtain ⟨hd, hp⟩ := hx s
    rcases h : x s with ⟨r, s'⟩
    rw [h] at hd hp
    cases r with
    | ok a =>
      rw [Eval.bind_apply_ok h]
      obtain ⟨hd', hp'⟩ := hf a trivial s'
      exact ⟨hd'.trans hd, hp'.trans hp⟩
    | error e =>
      rw [Eval.bind_apply_error h]
      exact ⟨hd, hp⟩

section Tidiness

variable {ctx : EvaluationContext}

theorem ownProperty_tidy {ev : Expression → Eval (Option Value)}
    (hev : ∀ e, tidiness.rel (ev e) (ev e)) (name : String) :
    tidiness.rel (Eval.ownProperty ev ctx name) (Eval.ownProperty ev ctx name) := by
  intro s
  rcases Eval.ownProperty_cases ev ctx name s with
    ⟨r, -, h⟩ | ⟨-, -, h⟩ | ⟨-, -, -, h⟩ | ⟨f, -, -, -, h⟩ <;> rw [h]
  · exact ⟨rfl, rfl⟩
  · exact ⟨rfl, rfl⟩
  · exact ⟨rfl, rfl⟩
  · obtain ⟨hd, hi⟩ := hev f { s with inProgress := s.inProgress ++ [name] }
    exact ⟨hd, Eval.resolving_inProgress hi⟩

theorem evaluateWithin_tidy (left : Nat) (e : Expression) :
    tidiness.rel (Eval.evaluateWithin ctx left e) (Eval.evaluateWithin ctx left e) := by
  induction left generalizing e with
  | zero => exact fun s => ⟨rfl, rfl⟩
  | succ left ih =>
    intro s
    obtain ⟨hd, hp⟩ := tidiness.level_of_own ctx e (fun c _ => ih c) (ownProperty_tidy ih)
      { s with depth := s.depth + 1 }
    exact ⟨congrArg (· - 1) hd, hp⟩

theorem expression_tidy (e : Expression) :
    tidiness.rel (Eval.expression ctx e) (Eval.expression ctx e) :=
  fun s => evaluateWithin_tidy (ctx.recursionLimit - s.depth) e s

theorem renderPart_tidy (part : TemplatePart) :
    tidiness.rel (Eval.renderPart ctx part) (Eval.renderPart ctx part) := by
  cases part with
  | text content => exact tidiness.pure content
  | interpolation source e => exact tidiness.bind (expression_tidy e) fun v _ => tidiness.pure _

theorem Eval.Call.run_tidy (c : Call) : tidiness.rel (c.run ctx) (c.run ctx) := by
  cases c with
  | evaluate e => exact expression_tidy e
  | property name => exact ownProperty_tidy expression_tidy name
  | render t =>
    exact tidiness.bind (tidiness.mapM fun part _ => renderPart_tidy part) fun texts _ =>
      tidiness.pure _

/-- Between calls nothing is under evaluation. -/
theorem Eval.Call.after_idle (calls : List Call) :
    (after ctx calls).depth = 0 ∧ (after ctx calls).inProgress = [] := by
  induction calls using List.reverseRecOn with
  | nil => exact ⟨rfl, rfl⟩
  | append_singleton calls c ih =>
    obtain ⟨hd, hp⟩ := c.run_tidy (after ctx calls)
    rw [after_concat]
    exact ⟨hd.trans ih.1, hp.trans ih.2⟩

end Tidiness

/-! ### Answers -/

namespace Eval.Call

/-- The answers of a call by rules. -/
def Derivable (ctx : EvaluationContext) : (c : Call) → Except EvalError c.Result → Prop
  | .evaluate e => ctx.Derives e
  | .property name => ctx.DerivesOwn name
  | .render t => ctx.Renders t.parts

/-- The answer of a call when formulas and properties have their meanings. -/
noncomputable def meaning (ctx : EvaluationContext) : (c : Call) → Except EvalError c.Result
  | .evaluate e => ctx.meaning e
  | .property name => ctx.ownMeaning name
  | .render t => ctx.textMeaning t.parts

variable {ctx : EvaluationContext}

theorem derivable_meaning (c : Call) (h : Settled (c.meaning ctx)) :
    c.Derivable ctx (c.meaning ctx) := by
  cases c with
  | evaluate e => exact EvaluationContext.derives_meaning h
  | property name => exact EvaluationContext.derivesOwn_ownMeaning h
  | render t => exact EvaluationContext.renders_textMeaning t.parts h

theorem meaning_of_derivable {c : Call} {r : Except EvalError c.Result}
    (h : c.Derivable ctx r) : c.meaning ctx = r := by
  cases c with
  | evaluate e => exact (EvaluationContext.Derives.meaning h).2
  | property name => exact (EvaluationContext.DerivesOwn.ownMeaning h).2
  | render t => exact (EvaluationContext.Renders.textMeaning h).2

theorem renderPart_sound (part : TemplatePart) :
    ctx.soundness.rel (Eval.renderPart ctx part) (ctx.partMeaning part) := by
  cases part with
  | text content => exact ctx.soundness.pure content
  | interpolation source e =>
    exact ctx.soundness.bind (fun s => EvaluationContext.evaluateWithin_sound _ e s) fun v _ =>
      ctx.soundness.pure _

theorem run_sound (c : Call) : ctx.soundness.rel (c.run ctx) (c.meaning ctx) := by
  cases c with
  | evaluate e => exact fun s => EvaluationContext.evaluateWithin_sound _ e s
  | property name => exact fun s hs => EvaluationContext.property_sound hs name
  | render t =>
    exact ctx.soundness.bind (ctx.soundness.mapM fun part _ => renderPart_sound part) fun texts _ =>
      ctx.soundness.pure _

theorem after_remembers (calls : List Call) : (after ctx calls).Remembers ctx.Sound := by
  induction calls using List.reverseRecOn with
  | nil => exact EvalState.remembers_start _
  | append_singleton calls c ih =>
    rw [after_concat]
    exact (run_sound c _ ih).1

/-- Whatever an evaluator was asked before: an answer that is no incidental failure is the one
    derivable answer of the call, and the call leaves nothing under evaluation. -/
theorem answer_derivable (ctx : EvaluationContext) (calls : List Call) (c : Call) :
    (Settled (c.run ctx (after ctx calls)).1 →
      ∀ r, c.Derivable ctx r ↔ r = (c.run ctx (after ctx calls)).1) ∧
    (c.run ctx (after ctx calls)).2.depth = 0 ∧
    (c.run ctx (after ctx calls)).2.inProgress = [] := by
  refine ⟨fun h r => ?_, after_concat ctx calls c ▸ after_idle (calls ++ [c])⟩
  have hm := (run_sound c _ (after_remembers calls)).2 h
  constructor
  · intro hr
    rw [← hm, meaning_of_derivable hr]
  · rintro rfl
    rw [← hm] at h ⊢
    exact derivable_meaning c h

end Eval.Call

/-- A property that reads another one, two levels down. -/
def negatedText (recursionLimit : Nat) : EvaluationContext where
  entity := { id := "entity", typePath := "entity" }
  properties := .empty
  pending := (Dict.empty.insert "negated" (.unary .not (.selfProperty "text"))).insert "text"
    (.literal (.text "X"))
  strict := false
  recursionLimit

/-- The text is remembered from the evaluation of the property that reads it. -/
theorem negatedText_answer :
    (∀ r, Eval.Call.Derivable (negatedText 3) (.property "text") r ↔ r = .ok (some (.text "X"))) ∧
      (Eval.Call.after (negatedText 3) [.property "negated"]).resolved.contains "text" = true := by
  have hrun : ((Eval.Call.property "text").run (negatedText 3)
      (Eval.Call.after (negatedText 3) [.property "negated"])).1 = .ok (some (.text "X")) := by rfl
  obtain ⟨hanswer, -, -⟩ :=
    Eval.Call.answer_derivable (negatedText 3) [.property "negated"] (.property "text")
  rw [hrun] at hanswer
  exact ⟨hanswer trivial, by decide +kernel⟩

end EntityFormulas
