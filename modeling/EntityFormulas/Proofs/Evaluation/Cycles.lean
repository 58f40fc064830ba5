/-
  EntityFormulas/Proofs/Evaluation/Cycles.lean
  ============================================
  **The cycles that an evaluator reports.**

  A property without a meaning is stuck at the first read, in the order of
  evaluation, of another one without a meaning.  `Leads` says which one that is,
  so from every property there is a single path along it.  Whatever was read
  before and whatever is remembered, the cycle that an evaluator reports for a
  property is the one that this path ends in (`property_traced`).  The property
  is thus reported as a member of a cycle exactly when the path comes back to it
  (`Arrives.mem_iff`).
-/
import EntityFormulas.Proofs.Evaluation.Completeness
import Mathlib.Data.List.Chain
import Mathlib.Logic.Relation

namespace EntityFormulas

open Evaluation

/-! ### Closed paths -/

section Paths

variable {α : Type} {r : α → α → Prop}

/-- A path along the relation that ends where it starts, at something reached from `a`. -/
def Arrives (r : α → α → Prop) (a : α) (path : List α) : Prop :=
  path.IsChain r ∧ ∃ x l, path = x :: (l ++ [x]) ∧ Relation.ReflTransGen r a x

theorem Arrives.head {a b : α} {path : List α} (hab : r a b) (h : Arrives r b path) :
    Arrives r a path := by
  obtain ⟨hchain, x, l, hpath, hbx⟩ := h
  exact ⟨hchain, x, l, hpath, hbx.head hab⟩

/-- What a path comes to is reached from what it starts with. -/
theorem reaches_of_isChain {x y : α} {l : List α} (h : (x :: l).IsChain r) (hy : y ∈ x :: l) :
    Relation.ReflTransGen r x y := by
  induction l generalizing x with
  | nil =>
    rw [List.mem_singleton.1 hy]
  | cons z rest ih =>
    obtain ⟨hxz, hrest⟩ := List.isChain_cons_cons.1 h
    rcases List.mem_cons.1 hy with rfl | hy
    · exact .refl
    · exact (ih hrest hy).head hxz

/-- The end of a path is reached from all of it. -/
theorem reaches_end_of_isChain {x y : α} {l : List α} (h : (l ++ [y]).IsChain r)
    (hx : x ∈ l ++ [y]) : Relation.ReflTransGen r x y := by
  induction l with
  | nil =>
    rw [List.mem_singleton.1 hx]
  | cons z rest ih =>
    have hz : Relation.ReflTransGen r z y :=
      reaches_of_isChain h (List.mem_cons_of_mem z (List.mem_append_right rest List.mem_cons_self))
    rcases List.mem_cons.1 hx with rfl | hx
    · exact hz
    · exact ih (List.isChain_cons.1 h).2 hx

/-- Along a relation with single successors, a path that comes back goes through everything that
    is reached from where it starts. -/
theorem mem_of_reaches (hu : Relator.RightUnique r) {x y : α} {l : List α}
    (h : (x :: (l ++ [x])).IsChain r) (hxy : Relation.ReflTransGen r x y) :
    y ∈ x :: (l ++ [x]) := by
  induction hxy with
  | refl => exact List.mem_cons_self
  | @tail y z _ hyz ih =>
    -- the member that has `z` next is not the last one, or it is `x`, which is also the first
    have hnext : ∀ {u : α} {m : List α}, (u :: (m ++ [x])).IsChain r → y ∈ u :: m →
        z ∈ u :: (m ++ [x]) := by
      intro u m
      induction m generalizing u with
      | nil =>
        intro hc hy
        rw [List.mem_singleton.1 hy] at hyz
        rw [hu hyz (List.isChain_cons_cons.1 hc).1]
        exact List.mem_cons_of_mem _ List.mem_cons_self
      | cons v rest ih' =>
        intro hc hy
        obtain ⟨huv, hrest⟩ := List.isChain_cons_cons.1 hc
        rcases List.mem_cons.1 hy with rfl | hy
        · rw [hu hyz huv]
          exact List.mem_cons_of_mem _ List.mem_cons_self
        · exact List.mem_cons_of_mem _ (ih' hrest hy)
    refine hnext h ?_
    rcases List.mem_cons.1 ih with rfl | hy
    · exact List.mem_cons_self
    · rcases List.mem_append.1 hy with hy | hy
      · exact List.mem_cons_of_mem _ hy
      · rw [List.mem_singleton.1 hy]
        exact List.mem_cons_self

/-- Whatever is reached from a member of a cycle reaches it, where successors are single. -/
theorem reaches_back (hu : Relator.RightUnique r) {a x : α}
    (ha : Relation.TransGen r a a) (hax : Relation.ReflTransGen r a x) :
    Relation.ReflTransGen r x a := by
  induction hax with
  | refl => exact .refl
  | @tail y z _ hyz ih =>
    rcases ih.cases_head with rfl | ⟨w, hyw, hwa⟩
    · obtain ⟨w, haw, hwa⟩ := Relation.TransGen.head'_iff.1 ha
      rw [hu hyz haw]
      exact hwa
    · rw [hu hyz hyw]
      exact hwa

/-- A closed path that is reached goes through those on cycles only, and through the starting
    point if that is on one. -/
theorem Arrives.mem_iff (hu : Relator.RightUnique r) {a : α} {path : List α}
    (h : Arrives r a path) : a ∈ path ↔ Relation.TransGen r a a := by
  obtain ⟨hchain, x, l, rfl, hax⟩ := h
  constructor
  · intro hmem
    have hxa : Relation.ReflTransGen r x a := reaches_of_isChain hchain hmem
    have hxx : Relation.TransGen r x x := by
      cases l with
      | nil => exact .single (List.isChain_cons_cons.1 hchain).1
      | cons y rest =>
        obtain ⟨hxy, hrest⟩ := List.isChain_cons_cons.1 hchain
        have hyx : Relation.ReflTransGen r y x :=
          reaches_end_of_isChain (l := y :: rest) hrest List.mem_cons_self
        exact .head' hxy hyx
    exact (Relation.TransGen.trans_right hax hxx).trans_left hxa
  · intro ha
    exact mem_of_reaches hu hchain (reaches_back hu ha hax)

end Paths

/-! ### Evaluation with given reads -/

namespace Evaluation

variable {m : Type → Type} [Monad m] [MonadExceptOf EvalError m]

/-- The answer of a formula that is at most `n` levels high. -/
def unfolded (reads : Reads m) (ctx : EvaluationContext) : (n : Nat) → Expression → m (Option Value)
  | 0, _ => throw (.depthExceeded ctx.recursionLimit)
  | n + 1, e => level (unfolded reads ctx n) reads ctx e

/-- The answer of a formula with given reads. -/
def answer (reads : Reads m) (ctx : EvaluationContext) (e : Expression) : m (Option Value) :=
  unfolded reads ctx (e.height + 1) e

variable [LawfulMonad m]

theorem level_congr {ev ev' : Expression → m (Option Value)} (reads : Reads m)
    (ctx : EvaluationContext) {e : Expression} (h : ∀ c ∈ e.children, ev c = ev' c) :
    level ev reads ctx e = level ev' reads ctx e :=
  (Simulation.equality m).level (.refl ctx) e h (fun _ _ => rfl) (fun _ _ => rfl)
    fun _ _ _ _ _ _ _ => rfl

theorem unfolded_eq (reads : Reads m) (ctx : EvaluationContext) {n k : Nat} {e : Expression}
    (hn : e.height < n) (hk : e.height < k) : unfolded reads ctx n e = unfolded reads ctx k e := by
  induction n generalizing k e with
  | zero => exact absurd hn (Nat.not_lt_zero _)
  | succ n ih =>
    cases k with
    | zero => exact absurd hk (Nat.not_lt_zero _)
    | succ k =>
      refine level_congr reads ctx fun c hc => ?_
      have hlt := Expression.height_lt_of_child hc
      exact ih (by omega) (by omega)

theorem answer_eq (reads : Reads m) (ctx : EvaluationContext) (e : Expression) :
    answer reads ctx e = level (answer reads ctx) reads ctx e := by
  refine level_congr reads ctx fun c hc => ?_
  exact unfolded_eq reads ctx (Expression.height_lt_of_child hc) (Nat.lt_succ_self _)

end Evaluation

/-! ### Where evaluation gets stuck -/

/-- Evaluations that a read may stop for good; what is left is the name of the property. -/
abbrev Probe := ExceptT EvalError (Except String)

namespace Probe

/-- Stops at the read of a property. -/
def stop {α : Type} (name : String) : Probe α := ExceptT.mk (.error name)

open Classical in
/-- Answers a read that has a settled answer and stops at any other. -/
noncomputable def read (own : String → EvalResult) (name : String) : Probe (Option Value) :=
  if Settled (own name) then ExceptT.mk (.ok (own name)) else stop name

theorem read_of_settled {own : String → EvalResult} {name : String} (h : Settled (own name)) :
    (read own name).run = .ok (own name) := by
  rw [read, if_pos h]
  rfl

theorem read_of_not_settled {own : String → EvalResult} {name : String} (h : ¬ Settled (own name)) :
    (read own name).run = .error name := by
  rw [read, if_neg h]
  rfl

variable {α β : Type} {x : Probe α} {f : α → Probe β}

theorem run_bind_ok {a : α} (h : x.run = .ok (.ok a)) : (x >>= f).run = (f a).run := by
  rw [ExceptT.run_bind, h]
  rfl

theorem run_bind_error {e : EvalError} (h : x.run = .ok (.error e)) :
    (x >>= f).run = .ok (.error e) := by
  rw [ExceptT.run_bind, h]
  rfl

theorem run_bind_stop {name : String} (h : x.run = .error name) : (x >>= f).run = .error name := by
  rw [ExceptT.run_bind, h]
  rfl

end Probe

namespace EvaluationContext

variable (ctx : EvaluationContext)

/-- The answer of a formula, as far as reads of own properties have settled answers. -/
noncomputable def probe (own : String → EvalResult) (e : Expression) : Probe (Option Value) :=
  answer (contextReads (Probe.read own) ctx) ctx e

/-- A pending property gets stuck at the read of another one. -/
def Leads (p q : String) : Prop :=
  ∃ f, ctx.pending.get? p = some f ∧ (ctx.probe ctx.ownMeaning f).run = .error q

variable {ctx}

theorem leads_unique : Relator.RightUnique ctx.Leads := by
  intro p q q' ⟨f, hf, hq⟩ ⟨f', hf', hq'⟩
  rw [hf] at hf'
  cases hf'
  rw [hq] at hq'
  exact Except.error.inj hq'

/-- Answers that are known where evaluation gets through, and are not settled where it stops. -/
def probing : Simulation (Except EvalError) Probe where
  rel x y := (∀ r, y.run = .ok r → x = r ∧ Settled r) ∧ ∀ q, y.run = .error q → ¬ Settled x
  gives _ _ := True
  pure a := ⟨fun r hr => by cases hr; exact ⟨rfl, trivial⟩, fun q hq => nomatch hq⟩
  throw e he := ⟨fun r hr => by cases hr; exact ⟨rfl, he⟩, fun q hq => nomatch hq⟩
  bind {α β x y f g} hx hf := by
    rcases hy : y.run with q | e | a
    · have hno := hx.2 q hy
      refine ⟨fun r hr => ?_, fun q' _ hs => ?_⟩
      · rw [Probe.run_bind_stop hy] at hr
        exact nomatch hr
      · cases x with
        | ok a => exact hno trivial
        | error e => exact hno hs
    · obtain ⟨rfl, he⟩ := hx.1 _ hy
      rw [Probe.run_bind_error hy]
      refine ⟨fun r hr => ?_, fun q hq => nomatch hq⟩
      cases hr
      exact ⟨rfl, he⟩
    · obtain ⟨rfl, _⟩ := hx.1 _ hy
      rw [Probe.run_bind_ok hy]
      exact hf a trivial

/-- A formula has a meaning exactly when evaluation gets through. -/
theorem probe_spec (e : Expression) : probing.rel (ctx.meaning e) (ctx.probe ctx.ownMeaning e) := by
  induction e using Expression.induct with
  | h e ih =>
    have hown (name : String) :
        probing.rel (ctx.ownMeaning name) (Probe.read ctx.ownMeaning name) := by
      by_cases hs : Settled (ctx.ownMeaning name)
      · unfold probing
        dsimp only
        rw [Probe.read_of_settled hs]
        refine ⟨fun r hr => ?_, fun q hq => nomatch hq⟩
        cases hr
        exact ⟨rfl, hs⟩
      · unfold probing
        dsimp only
        rw [Probe.read_of_not_settled hs]
        exact ⟨fun r hr => (nomatch hr), fun q _ => hs⟩
    have hlevel : probing.rel (level ctx.meaning (contextReads ctx.ownMeaning ctx) ctx e)
        (ctx.probe ctx.ownMeaning e) := by
      unfold probe
      rw [answer_eq]
      exact probing.level_of_own ctx e ih hown
    constructor
    · intro r hr
      obtain ⟨heq, hs⟩ := hlevel.1 r hr
      rw [meaning_of_settled_level (heq ▸ hs)]
      exact ⟨heq, hs⟩
    · intro q hq hs
      refine hlevel.2 q hq ?_
      rw [level_of_settled_meaning hs]
      exact hs

/-- A pending property without a meaning leads to another property. -/
theorem exists_leads {p : String} {f : Expression} (hf : ctx.pending.get? p = some f)
    (hs : ¬ Settled (ctx.ownMeaning p)) : ∃ q, ctx.Leads p q := by
  rw [ownMeaning_pending hf] at hs
  cases hp : (ctx.probe ctx.ownMeaning f).run with
  | error q => exact ⟨q, f, hf, hp⟩
  | ok r =>
    obtain ⟨hr, hset⟩ := (probe_spec f).1 r hp
    exact absurd (hr ▸ hset) hs

theorem not_settled_of_leads {p q : String} (h : ctx.Leads p q) : ¬ Settled (ctx.ownMeaning p) := by
  obtain ⟨f, hf, hq⟩ := h
  rw [ownMeaning_pending hf]
  exact (probe_spec f).2 q hq

theorem pending_of_not_settled {p : String} (hs : ¬ Settled (ctx.ownMeaning p)) :
    ∃ f, ctx.pending.get? p = some f := by
  cases hp : ctx.pending.get? p with
  | some f => exact ⟨f, rfl⟩
  | none =>
    refine absurd ?_ hs
    rw [ownMeaning_stored hp]
    unfold storedProperty
    split
    · trivial
    · unfold Evaluation.missing
      split
      · exact id
      · trivial

/-! ### What evaluators report -/

/-- A failure that reports the cycle which the path from a property ends in. -/
def Reports (ctx : EvaluationContext) {α : Type} (q : String) (r : Except EvalError α) : Prop :=
  ∃ path, r = .error (.circular path) ∧ Arrives ctx.Leads q path

/-- The answers of properties that an evaluator gives as long as it does not run out of levels:
    meanings, and cycles where there is none. -/
def Traced (ctx : EvaluationContext) (name : String) (r : EvalResult) : Prop :=
  ctx.Found name r ∧ (¬ Settled (ctx.ownMeaning name) → TooDeep r ∨ ctx.Reports name r)

theorem admissible_traced (ctx : EvaluationContext) : ctx.Admissible ctx.Traced :=
  ⟨fun _ _ h => h.1, fun _ _ hs h => ⟨h, fun hno => absurd hs hno⟩⟩

/-- Every property under evaluation is stuck at the next one, and what is remembered is traced. -/
structure Stacked (ctx : EvaluationContext) (s : EvalState) : Prop where
  remembers : s.Remembers ctx.Traced
  blocked : ctx.Blocked s
  chain : s.inProgress.IsChain ctx.Leads

/-- What the last property under evaluation is stuck at, if the probe stops. -/
def Continues (ctx : EvaluationContext) {α : Type} (s : EvalState) (y : Probe α) : Prop :=
  ∀ q, y.run = .error q → ∀ top ∈ s.inProgress.getLast?, ctx.Leads top q

/-- The answer is the probe's, or reports the cycle that it is stuck at. -/
structure Follows (ctx : EvaluationContext) {α : Type} (x : Except EvalError α) (y : Probe α) :
    Prop where
  through : ∀ r, y.run = .ok r → x = r ∨ TooDeep x
  stopped : ∀ q, y.run = .error q → TooDeep x ∨ ctx.Reports q x

theorem Follows.of_through {α : Type} {x : Except EvalError α} {y : Probe α} (h : y.run = .ok x) :
    ctx.Follows x y := by
  constructor
  · intro r hr
    rw [h] at hr
    exact .inl (Except.ok.inj hr)
  · intro q hq
    rw [h] at hq
    exact nomatch hq

theorem Follows.of_tooDeep {α : Type} {x : Except EvalError α} {y : Probe α} (h : TooDeep x) :
    ctx.Follows x y := ⟨fun _ _ => .inr h, fun _ _ => .inl h⟩

theorem Follows.of_stopped {α : Type} {x : Except EvalError α} {y : Probe α} {q : String}
    (hy : y.run = .error q) (h : TooDeep x ∨ ctx.Reports q x) : ctx.Follows x y := by
  constructor
  · intro r hr
    rw [hy] at hr
    exact nomatch hr
  · intro q' hq
    rw [hy] at hq
    cases hq
    exact h

theorem Follows.of_run_eq {α : Type} {x : Except EvalError α} {y y' : Probe α}
    (h : ctx.Follows x y) (heq : y'.run = y.run) : ctx.Follows x y' :=
  ⟨fun r hr => h.through r (heq ▸ hr), fun q hq => h.stopped q (heq ▸ hq)⟩

/-- An answer with a value is the probe's. -/
theorem Follows.run_eq_ok {α : Type} {a : α} {y : Probe α} (h : ctx.Follows (.ok a) y) :
    y.run = .ok (.ok a) := by
  cases hy : y.run with
  | ok r =>
    rcases h.through r hy with heq | hd
    · rw [heq]
    · exact absurd hd id
  | error q =>
    rcases h.stopped q hy with hd | ⟨path, heq, _⟩
    · exact absurd hd id
    · exact nomatch heq

/-- A failure that follows the first of two steps follows both. -/
theorem Follows.bind_error {α β : Type} {e : EvalError} {y : Probe α} {g : α → Probe β}
    (h : ctx.Follows (.error e : Except EvalError α) y) :
    ctx.Follows (.error e : Except EvalError β) (y >>= g) := by
  rcases hy : y.run with q | e' | a
  · constructor
    · intro r hr
      rw [Probe.run_bind_stop hy] at hr
      exact nomatch hr
    · intro q' hq
      rw [Probe.run_bind_stop hy] at hq
      cases hq
      rcases h.stopped q hy with hd | ⟨path, he, harr⟩
      · exact .inl hd.rethrown
      · cases he
        exact .inr ⟨path, rfl, harr⟩
  · rcases h.through _ hy with he | hd
    · cases he
      exact .of_through (Probe.run_bind_error hy)
    · exact .of_tooDeep hd.rethrown
  · rcases h.through _ hy with he | hd
    · exact nomatch he
    · exact .of_tooDeep hd.rethrown

/-- Evaluation inside of properties that are stuck. -/
def tracing (ctx : EvaluationContext) : Simulation Eval Probe where
  rel x y := ∀ s : EvalState, ctx.Stacked s → ctx.Continues s y →
    (x s).2.Remembers ctx.Traced ∧ (x s).2.inProgress = s.inProgress ∧ ctx.Follows (x s).1 y
  gives _ _ := True
  pure _ _ hs _ := ⟨hs.remembers, rfl, .of_through rfl⟩
  throw _ _ _ hs _ := ⟨hs.remembers, rfl, .of_through rfl⟩
  bind {α β x y f g} hx hf s hs htop := by
    obtain ⟨hrem, hp, hfollows⟩ := hx s hs fun q hq => htop q (Probe.run_bind_stop hq)
    rcases hxs : x s with ⟨r, s'⟩
    rw [hxs] at hrem hp hfollows
    cases r with
    | error e =>
      rw [Eval.bind_apply_error hxs]
      exact ⟨hrem, hp, hfollows.bind_error⟩
    | ok a =>
      rw [Eval.bind_apply_ok hxs]
      have hy : y.run = .ok (.ok a) := hfollows.run_eq_ok
      have hs' : ctx.Stacked s' := ⟨hrem, fun q hq => hs.blocked q (hp ▸ hq), hp ▸ hs.chain⟩
      obtain ⟨hrem', hp', hfollows'⟩ := hf a trivial s' hs' fun q hq => by
        rw [hp]
        exact htop q ((Probe.run_bind_ok hy).trans hq)
      refine ⟨hrem', hp'.trans hp, ?_⟩
      exact hfollows'.of_run_eq (Probe.run_bind_ok hy)

theorem Reports.of_leads {p q : String} {α : Type} {r : Except EvalError α} (hpq : ctx.Leads p q)
    (h : ctx.Reports q r) : ctx.Reports p r := by
  obtain ⟨path, hr, harr⟩ := h
  exact ⟨path, hr, harr.head hpq⟩

/-- What is left of a list from the first occurrence of a member on. -/
theorem exists_dropWhile_eq {name : String} {l : List String} (h : name ∈ l) :
    ∃ before rest, l = before ++ name :: rest ∧ l.dropWhile (· ≠ name) = name :: rest := by
  induction l with
  | nil => exact absurd h List.not_mem_nil
  | cons q l ih =>
    by_cases hq : q = name
    · subst hq
      exact ⟨[], l, rfl, List.dropWhile_cons_of_neg (by simp)⟩
    · rcases List.mem_cons.1 h with rfl | h
      · exact absurd rfl hq
      · obtain ⟨before, rest, hl, hdrop⟩ := ih h
        refine ⟨q :: before, rest, by rw [hl]; rfl, ?_⟩
        rw [List.dropWhile_cons_of_pos (by simpa using hq)]
        exact hdrop

namespace Stacked

variable {s : EvalState} (hs : ctx.Stacked s) {name : String}
include hs

theorem chain_concat (htop : ∀ top ∈ s.inProgress.getLast?, ctx.Leads top name) :
    (s.inProgress ++ [name]).IsChain ctx.Leads := by
  refine List.isChain_append.2 ⟨hs.chain, List.isChain_singleton name, fun top hlast q hq => ?_⟩
  cases hq
  exact htop top hlast

/-- Reading a property under evaluation closes the path from there. -/
theorem arrives (hmem : name ∈ s.inProgress)
    (htop : ∀ top ∈ s.inProgress.getLast?, ctx.Leads top name) :
    Arrives ctx.Leads name (s.inProgress.dropWhile (· ≠ name) ++ [name]) := by
  obtain ⟨before, rest, hsplit, hdrop⟩ := exists_dropWhile_eq hmem
  have hchain := hs.chain_concat htop
  rw [hsplit, List.append_assoc] at hchain
  rw [hdrop]
  exact ⟨(List.isChain_append.1 hchain).2.1, name, rest, rfl, .refl⟩

/-- A property that another one is stuck at joins those under evaluation. -/
theorem push (hm : ¬ Settled (ctx.ownMeaning name))
    (htop : ∀ top ∈ s.inProgress.getLast?, ctx.Leads top name) :
    ctx.Stacked { s with inProgress := s.inProgress ++ [name] } :=
  ⟨hs.remembers, hs.blocked.push hm, hs.chain_concat htop⟩

end Stacked

theorem ownProperty_traced {left : Nat}
    (hev : ∀ e, ctx.tracing.rel (Eval.evaluateWithin ctx left e) (ctx.probe ctx.ownMeaning e))
    (name : String) :
    ctx.tracing.rel (Eval.ownProperty (Eval.evaluateWithin ctx left) ctx name)
      (Probe.read ctx.ownMeaning name) := by
  intro s hs htop
  -- A property that has a meaning stops nothing, one without is pending and stuck at another one.
  by_cases hm : Settled (ctx.ownMeaning name)
  · obtain ⟨hans, hrem, hp⟩ :=
      ownProperty_found ctx.admissible_traced hm left hs.remembers hs.blocked
    refine ⟨hrem, hp, ?_⟩
    rcases hans with hans | hd
    · rw [hans]
      exact .of_through (Probe.read_of_settled hm)
    · exact .of_tooDeep hd
  · have hread := Probe.read_of_not_settled hm
    have htop := htop name hread
    rcases Eval.ownProperty_cases (Eval.evaluateWithin ctx left) ctx name s with
      ⟨r, hr, heq⟩ | ⟨-, hmem, heq⟩ | ⟨-, -, hf, -⟩ | ⟨f, -, -, hf, heq⟩
    · rw [heq]
      exact ⟨hs.remembers, rfl, .of_stopped hread ((hs.remembers name r hr).2 hm)⟩
    · rw [heq]
      exact ⟨hs.remembers, rfl, .of_stopped hread (.inr ⟨_, rfl, hs.arrives hmem htop⟩)⟩
    · obtain ⟨f, hf'⟩ := pending_of_not_settled hm
      rw [hf] at hf'
      cases hf'
    · rw [heq]
      obtain ⟨hrem, hp, hfollows⟩ := hev f _ (hs.push hm htop) fun q hq top hlast => by
        rw [List.getLast?_concat] at hlast
        cases hlast
        exact ⟨f, hf, hq⟩
      have htraced : TooDeep (Eval.evaluateWithin ctx left f
            { s with inProgress := s.inProgress ++ [name] }).1 ∨
          ctx.Reports name (Eval.evaluateWithin ctx left f
            { s with inProgress := s.inProgress ++ [name] }).1 := by
        obtain ⟨q, hleads⟩ := exists_leads hf hm
        obtain ⟨f', hf', hq⟩ := hleads
        rw [hf] at hf'
        cases hf'
        exact (hfollows.stopped q hq).imp_right (Reports.of_leads ⟨f, hf, hq⟩)
      exact ⟨hrem.resolve ⟨fun h => absurd h hm, fun _ => htraced⟩ _, Eval.resolving_inProgress hp,
        .of_stopped hread htraced⟩

/-- Whatever an evaluator has left, it follows the probe. -/
theorem evaluateWithin_traced (left : Nat) (e : Expression) :
    ctx.tracing.rel (Eval.evaluateWithin ctx left e) (ctx.probe ctx.ownMeaning e) := by
  induction left generalizing e with
  | zero => exact fun s hs _ => ⟨hs.remembers, rfl, .of_tooDeep trivial⟩
  | succ left ih =>
    intro s hs htop
    have hrel := ctx.tracing.level_of_own ctx e (fun c _ => ih c) (ownProperty_traced ih)
    unfold probe at htop ⊢
    rw [answer_eq] at htop ⊢
    exact hrel { s with depth := s.depth + 1 } ⟨hs.remembers, hs.blocked, hs.chain⟩ htop

/-- A read of a property outside of any evaluation finds its meaning, or reports the cycle that
    the path from it ends in, or runs out of levels. -/
theorem property_traced {s : EvalState} (hs : s.Remembers ctx.Traced) (hp : s.inProgress = [])
    (name : String) :
    ctx.Traced name (Eval.property ctx name s).1 ∧
      (Eval.property ctx name s).2.Remembers ctx.Traced ∧
      (Eval.property ctx name s).2.inProgress = [] := by
  have hstacked : ctx.Stacked s := by
    refine ⟨hs, ?_, ?_⟩
    · intro q hq
      rw [hp] at hq
      exact absurd hq List.not_mem_nil
    · rw [hp]
      exact List.isChain_nil
  have htop : ctx.Continues s (Probe.read ctx.ownMeaning name) := by
    intro q _ top hlast
    rw [hp] at hlast
    exact nomatch hlast
  obtain ⟨hrem, hp', hfollows⟩ :=
    ownProperty_traced (evaluateWithin_traced (ctx.recursionLimit - s.depth)) name s hstacked htop
  rw [Eval.property_eq]
  refine ⟨⟨fun hm => ?_, fun hm => ?_⟩, hrem, hp'.trans hp⟩
  · exact hfollows.through _ (Probe.read_of_settled hm)
  · exact hfollows.stopped _ (Probe.read_of_not_settled hm)

/-- A property is reported as a member of a cycle exactly when the path from it comes back. -/
theorem Traced.isCycleMember_iff {name : String} {r : EvalResult} (h : ctx.Traced name r)
    (hd : ¬ TooDeep r) :
    (∃ e, r = .error e ∧ e.isCycleMember name = true) ↔ Relation.TransGen ctx.Leads name name := by
  by_cases hm : Settled (ctx.ownMeaning name)
  · have hr := (h.1 hm).resolve_right hd
    constructor
    · rintro ⟨e, he, hmem⟩
      rw [← hr, he] at hm
      cases e with
      | circular path => exact absurd trivial hm
      | _ => exact nomatch hmem
    · intro hcycle
      obtain ⟨q, hq, _⟩ := Relation.TransGen.head'_iff.1 hcycle
      exact absurd hm (not_settled_of_leads hq)
  · obtain ⟨path, hr, harr⟩ := (h.2 hm).resolve_left hd
    rw [← harr.mem_iff leads_unique]
    constructor
    · rintro ⟨e, he, hmem⟩
      rw [hr] at he
      cases he
      exact of_decide_eq_true hmem
    · intro hmem
      exact ⟨_, hr, decide_eq_true hmem⟩

end EvaluationContext

end EntityFormulas
