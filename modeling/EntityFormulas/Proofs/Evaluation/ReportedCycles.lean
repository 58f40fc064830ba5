/-
  EntityFormulas/Proofs/Evaluation/ReportedCycles.lean
  ====================================================
  **Reported cycles are cycles of formulas.**

  A circular failure carries names that were cut out of the properties under
  evaluation, and it is remembered and passed on to readers that have nothing to
  do with them.  `Cycles.lean` says which cycle is reported where evaluation does
  not run out of levels; that says nothing about an evaluator that has run out of
  them in an earlier call.

  Here nothing is assumed.  Each property under evaluation was read by the
  formula of the one before, so that formula mentions it, as an own property or
  as a member of something (`Chained`).  A name is put last only if it is not
  there yet, so what a repeated name cuts off goes round once (`Circuit`).
-/
import EntityFormulas.Proofs.Evaluation.Calls
import EntityFormulas.Proofs.Evaluation.Cycles
import Mathlib.Data.List.Nodup

namespace EntityFormulas

open Evaluation

/-! ### What a formula mentions -/

/-- Whether a formula contains a read of an own property of that name, or of a member of that name
    of anything. -/
def Expression.Mentions (e : Expression) (name : String) : Prop :=
  .selfProperty name ∈ e.parts ∨ ∃ object, .member object name ∈ e.parts

theorem Expression.Mentions.of_child {c e : Expression} (hc : c ∈ e.children) {name : String}
    (h : c.Mentions name) : e.Mentions name := by
  rcases h with h | ⟨object, h⟩
  · exact .inl (parts_subset_of_child hc h)
  · exact .inr ⟨object, parts_subset_of_child hc h⟩

/-- Whether the pending formula of a property mentions another one. -/
def EvaluationContext.Calls (ctx : EvaluationContext) (x y : String) : Prop :=
  ∃ f, ctx.pending.get? x = some f ∧ f.Mentions y

/-! ### Going round once -/

/-- A path that ends where it starts and comes through nothing else twice. -/
structure Circuit {α : Type} (r : α → α → Prop) (path : List α) : Prop where
  two : 2 ≤ path.length
  closed : path.head? = path.getLast?
  once : path.dropLast.Nodup
  chain : path.IsChain r

namespace Circuit

variable {α : Type} {r : α → α → Prop} {path : List α}

theorem mono {r' : α → α → Prop} (h : Circuit r path) (hr : ∀ x y, r x y → r' x y) :
    Circuit r' path :=
  ⟨h.two, h.closed, h.once, h.chain.imp hr⟩

/-- The relation leads on from everything on the path. -/
theorem exists_next (h : Circuit r path) {x : α} (hx : x ∈ path) : ∃ y, r x y := by
  obtain ⟨htwo, hclosed, -, hchain⟩ := h
  cases path with
  | nil => exact absurd hx List.not_mem_nil
  | cons a l =>
    -- Whatever is not last has a successor, and the last one is the first one.
    have hnext : ∀ {z : α} {m : List α}, (z :: m).IsChain r → ∀ {x : α}, x ∈ z :: m →
        (∃ y, r x y) ∨ (z :: m).getLast? = some x := by
      intro z m
      induction m generalizing z with
      | nil =>
        intro _ x hx
        rw [List.mem_singleton.1 hx]
        exact .inr rfl
      | cons b rest ih =>
        intro hc x hx
        obtain ⟨hzb, hrest⟩ := List.isChain_cons_cons.1 hc
        rcases List.mem_cons.1 hx with rfl | hx
        · exact .inl ⟨b, hzb⟩
        · rw [List.getLast?_cons_cons]
          exact ih hrest hx
    rcases hnext hchain hx with hy | hlast
    · exact hy
    · rw [hlast] at hclosed
      cases hclosed
      cases l with
      | nil => exact absurd htwo (by simp)
      | cons b rest => exact ⟨b, (List.isChain_cons_cons.1 hchain).1⟩

/-- A name that comes again after a path without repetition goes round what follows its first
    occurrence. -/
theorem of_dropWhile {r : String → String → Prop} {l : List String} {name : String}
    (hmem : name ∈ l) (hnodup : l.Nodup) (hchain : (l ++ [name]).IsChain r) :
    Circuit r (l.dropWhile (· ≠ name) ++ [name]) := by
  obtain ⟨before, rest, hsplit, hdrop⟩ := EvaluationContext.exists_dropWhile_eq hmem
  rw [hdrop]
  rw [hsplit] at hnodup hchain
  constructor
  · simp
  · rw [List.getLast?_concat]
    rfl
  · rw [List.dropLast_concat]
    exact (List.nodup_append.1 hnodup).2.1
  · rw [List.append_assoc] at hchain
    exact (List.isChain_append.1 hchain).2.1

end Circuit

namespace EvaluationContext

variable {ctx : EvaluationContext}

/-- What an answer reports as a cycle is one of the pending formulas. -/
def Genuine (ctx : EvaluationContext) {α : Type} (r : Except EvalError α) : Prop :=
  ∀ path, r = .error (.circular path) → Circuit ctx.Calls path

/-- A failure that is passed on reports what it did. -/
theorem Genuine.rethrown {α β : Type} {e : EvalError}
    (h : ctx.Genuine (.error e : Except EvalError α)) :
    ctx.Genuine (.error e : Except EvalError β) := by
  intro path hp
  cases hp
  exact h path rfl

theorem genuine_of_settled {α : Type} {r : Except EvalError α} (h : Settled r) :
    ctx.Genuine r := by
  rintro path rfl
  exact absurd trivial h

/-! ### What evaluation keeps -/

/-- Each property under evaluation is mentioned by the one before it, none is there twice, and what
    is remembered reports cycles only. -/
structure Chained (ctx : EvaluationContext) (s : EvalState) : Prop where
  remembers : s.Remembers fun _ r => ctx.Genuine r
  nodup : s.inProgress.Nodup
  chain : s.inProgress.IsChain ctx.Calls

/-- Evaluation within the last property under evaluation, if there is one, of a part of its formula
    that mentions no more than `names`. -/
def reporting (ctx : EvaluationContext) (names : String → Prop) : Simulation Eval Eval where
  rel x _ := ∀ s : EvalState, ctx.Chained s →
    (∀ top ∈ s.inProgress.getLast?, ∀ name, names name → ctx.Calls top name) →
    ctx.Chained (x s).2 ∧ (x s).2.inProgress = s.inProgress ∧ ctx.Genuine (x s).1
  gives _ _ := True
  pure _ _ hs _ := ⟨hs, rfl, genuine_of_settled trivial⟩
  throw _ he _ hs _ := ⟨hs, rfl, genuine_of_settled he⟩
  bind {α β x y f g} hx hf s hs htop := by
    obtain ⟨hs', hp, hr⟩ := hx s hs htop
    rcases hxs : x s with ⟨r, s'⟩
    rw [hxs] at hs' hp hr
    cases r with
    | error e =>
      rw [Eval.bind_apply_error hxs]
      exact ⟨hs', hp, hr.rethrown⟩
    | ok a =>
      rw [Eval.bind_apply_ok hxs]
      obtain ⟨hs'', hp', hr'⟩ := hf a trivial s' hs' (by rw [hp]; exact htop)
      exact ⟨hs'', hp'.trans hp, hr'⟩

theorem Chained.concat {s : EvalState} (hs : ctx.Chained s) {name : String}
    (htop : ∀ top ∈ s.inProgress.getLast?, ctx.Calls top name) :
    (s.inProgress ++ [name]).IsChain ctx.Calls := by
  refine List.isChain_append.2 ⟨hs.chain, List.isChain_singleton name, ?_⟩
  intro top hlast q hq
  cases hq
  exact htop top hlast

/-- What a property that is being evaluated mentions may be read next. -/
theorem Chained.push {s : EvalState} (hs : ctx.Chained s) {name : String}
    (hname : name ∉ s.inProgress) (htop : ∀ top ∈ s.inProgress.getLast?, ctx.Calls top name) :
    ctx.Chained { s with inProgress := s.inProgress ++ [name] } := by
  refine ⟨hs.remembers, ?_, hs.concat htop⟩
  apply List.nodup_append_comm.2
  exact List.nodup_cons.2 ⟨hname, hs.nodup⟩

variable {names : String → Prop}

/-- A read of a property that the last one under evaluation mentions. -/
theorem ownProperty_reporting {ev : Expression → Eval (Option Value)}
    (hev : ∀ f, (ctx.reporting f.Mentions).rel (ev f) (ev f)) {name : String} (hname : names name) :
    (ctx.reporting names).rel (Eval.ownProperty ev ctx name) (Eval.ownProperty ev ctx name) := by
  intro s hs htop
  have htop : ∀ top ∈ s.inProgress.getLast?, ctx.Calls top name :=
    fun top hlast => htop top hlast name hname
  rcases Eval.ownProperty_cases ev ctx name s with
    ⟨r, hr, heq⟩ | ⟨-, hmem, heq⟩ | ⟨-, -, -, heq⟩ | ⟨f, -, hmem, hf, heq⟩ <;> rw [heq]
  · exact ⟨hs, rfl, hs.remembers name r hr⟩
  · refine ⟨hs, rfl, ?_⟩
    intro path hpath
    cases hpath
    exact .of_dropWhile hmem hs.nodup (hs.concat htop)
  · refine ⟨hs, rfl, genuine_of_settled ?_⟩
    unfold storedProperty
    split
    · trivial
    · unfold Evaluation.missing
      split
      · exact id
      · trivial
  · obtain ⟨hs', hp, hr⟩ := hev f _ (hs.push hmem htop) (by
      intro top hlast q hq
      rw [List.getLast?_concat] at hlast
      cases hlast
      exact ⟨f, hf, hq⟩)
    have hprogress := Eval.resolving_inProgress hp
    refine ⟨⟨hs'.remembers.resolve hr _, ?_, ?_⟩, hprogress, hr⟩
    · rw [hprogress]
      exact hs.nodup
    · rw [hprogress]
      exact hs.chain

/-- A formula reads own properties that it mentions only. -/
theorem level_reporting {ev : Expression → Eval (Option Value)} {e : Expression}
    (hc : ∀ c ∈ e.children, (ctx.reporting names).rel (ev c) (ev c))
    (ho : ∀ name, e.Mentions name → (ctx.reporting names).rel (Eval.ownProperty ev ctx name)
      (Eval.ownProperty ev ctx name)) :
    (ctx.reporting names).rel (level ev (contextReads (Eval.ownProperty ev ctx) ctx) ctx e)
      (level ev (contextReads (Eval.ownProperty ev ctx) ctx) ctx e) := by
  apply (ctx.reporting names).level (.refl ctx) e hc
  · rintro name rfl
    exact ho name (.inl (Expression.mem_parts_self _))
  · intro id _
    exact (ctx.reporting names).entityRef id
  · rintro object name rfl v - id -
    exact (ctx.reporting names).entityMember id name
      (ho name (.inr ⟨object, Expression.mem_parts_self _⟩))

theorem evaluateWithin_reporting (left : Nat) (e : Expression)
    (he : ∀ name, e.Mentions name → names name) :
    (ctx.reporting names).rel (Eval.evaluateWithin ctx left e) (Eval.evaluateWithin ctx left e) := by
  induction left generalizing e names with
  | zero =>
    intro s hs _
    refine ⟨hs, rfl, ?_⟩
    intro path hpath
    exact nomatch hpath
  | succ left ih =>
    intro s hs htop
    have hchildren : ∀ c ∈ e.children, (ctx.reporting names).rel (Eval.evaluateWithin ctx left c)
        (Eval.evaluateWithin ctx left c) :=
      fun c hc => ih c fun name hname => he name (hname.of_child hc)
    obtain ⟨hs', hp, hr⟩ := level_reporting hchildren
      (fun name hname => ownProperty_reporting (fun f => ih f fun _ h => h) (he name hname))
      { s with depth := s.depth + 1 } ⟨hs.remembers, hs.nodup, hs.chain⟩ htop
    exact ⟨⟨hs'.remembers, hs'.nodup, hs'.chain⟩, hp, hr⟩

end EvaluationContext

/-! ### Sequences of calls -/

namespace Eval.Call

variable {ctx : EvaluationContext}

/-- Outside of any evaluation there is no restriction on what is mentioned. -/
theorem run_reporting (c : Call) :
    (ctx.reporting fun _ => True).rel (c.run ctx) (c.run ctx) := by
  have hexpression (e : Expression) :
      (ctx.reporting fun _ => True).rel (Eval.expression ctx e) (Eval.expression ctx e) :=
    fun s => EvaluationContext.evaluateWithin_reporting _ e (fun _ _ => trivial) s
  cases c with
  | evaluate e => exact hexpression e
  | property name =>
    intro s
    simp only [run, Eval.property_eq]
    apply EvaluationContext.ownProperty_reporting
    · exact fun f => EvaluationContext.evaluateWithin_reporting _ f fun _ h => h
    · trivial
  | render t =>
    refine (ctx.reporting _).bind ((ctx.reporting _).mapM fun part _ => ?_) fun texts _ =>
      (ctx.reporting _).pure _
    cases part with
    | text content => exact (ctx.reporting _).pure content
    | interpolation source e =>
      exact (ctx.reporting _).bind (hexpression e) fun v _ => (ctx.reporting _).pure _

/-- One call between others. -/
theorem run_genuine (c : Call) {s : EvalState} (hs : ctx.Chained s) (hp : s.inProgress = []) :
    ctx.Chained (c.run ctx s).2 ∧ (c.run ctx s).2.inProgress = [] ∧ ctx.Genuine (c.run ctx s).1 := by
  obtain ⟨hs', hp', hr⟩ := c.run_reporting s hs (by rw [hp]; exact fun _ h => nomatch h)
  exact ⟨hs', hp'.trans hp, hr⟩

/-- Whatever calls came before, the evaluator remembers cycles only. -/
theorem after_chained (calls : List Call) : ctx.Chained (after ctx calls) := by
  induction calls using List.reverseRecOn with
  | nil => exact ⟨EvalState.remembers_start _, List.nodup_nil, List.isChain_nil⟩
  | append_singleton calls c ih =>
    rw [after_concat]
    exact (c.run_genuine ih (after_idle calls).2).1

/-- Whatever calls came before, a cycle that a call reports goes round pending formulas. -/
theorem answer_genuine (calls : List Call) (c : Call) :
    ctx.Genuine (c.run ctx (after ctx calls)).1 :=
  (c.run_genuine (after_chained calls) (after_idle calls).2).2.2

end Eval.Call

end EntityFormulas
