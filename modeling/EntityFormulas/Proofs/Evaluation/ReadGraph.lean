/-
  EntityFormulas/Proofs/Evaluation/ReadGraph.lean
  ===============================================
  **Cycles in the graph of reads.**

  Formulas that evaluate all of their parts read the same own properties in
  every run, so which properties get stuck can be read off the formulas.  A
  property has no meaning exactly when its reads reach a cycle
  (`not_settled_iff_doomed`), and it is stuck at the first of its reads that
  reach one (`leads_iff_firstDoomed`); reads after that one are never made.
-/
import EntityFormulas.Proofs.Evaluation.Cycles
import Mathlib.Data.Fintype.Pigeonhole
import Mathlib.Data.Set.Finite.Basic
import Mathlib.Order.Monotone.Basic

namespace EntityFormulas

open Evaluation

/-! ### Reads of a formula -/

namespace Expression

/-- The own property that a formula is. -/
def ownName? : Expression → Option String
  | .selfProperty name => some name
  | _ => none

/-- The own properties that a formula reads by name, in the order of evaluation. -/
def reads (e : Expression) : List String := e.parts.filterMap ownName?

theorem reads_eq (e : Expression) : e.reads = e.ownName?.toList ++ e.children.flatMap reads := by
  unfold reads
  rw [parts_eq, List.filterMap_cons, List.filterMap_flatMap]
  cases e.ownName? <;> rfl

theorem reads_of_ownName?_eq_none {e : Expression} (h : e.ownName? = none) :
    e.reads = e.children.flatMap reads := by
  rw [reads_eq, h]
  rfl

/-- Whether a formula, not counting those inside it, always evaluates all formulas one level below
    it. -/
def evaluatesAll : Expression → Bool
  | .binary .and _ _ | .binary .or _ _ => false
  | .call name _ => (Function.ofName? name).any (· ≠ .choose)
  | _ => true

/-- Neither logical operators nor conditional calls. -/
def Unconditional (e : Expression) : Prop := ∀ d ∈ e.parts, d.evaluatesAll = true

theorem Unconditional.child {c e : Expression} (h : e.Unconditional) (hc : c ∈ e.children) :
    c.Unconditional := fun d hd => h d (parts_subset_of_child hc hd)

end Expression

/-! ### Evaluation with given values -/

namespace EvaluationContext

variable (ctx : EvaluationContext)

/-- A read of an own property that fails for pending ones. -/
def storedOnly (name : String) : EvalResult :=
  if ctx.pending.contains name then .error (.circular [name]) else storedProperty ctx name

/-- Reads that take the values of pending properties as given, where they are read by name.  As
    members of the entity they cannot be read. -/
def valueReads (values : String → Option Value) : Reads (Except EvalError) where
  own name := if ctx.pending.contains name then .ok (values name) else storedProperty ctx name
  entity := entityRef ctx
  member := entityMember ctx.storedOnly ctx

/-- With these values of pending properties a formula has a value, and it reads pending properties
    by name only. -/
def Faultless (values : String → Option Value) (e : Expression) : Prop :=
  ∃ v, answer (ctx.valueReads values) ctx e = .ok v

variable {ctx}

/-- Values that a probe comes to as well. -/
def success : Simulation (Except EvalError) Probe where
  rel x y := ∀ a, x = .ok a → y.run = .ok (.ok a)
  gives _ _ := True
  pure a b hb := by
    cases hb
    rfl
  throw _ _ _ h := nomatch h
  bind {α β x y f g} hx hf b hb := by
    cases x with
    | error e => exact nomatch hb
    | ok a =>
      rw [Probe.run_bind_ok (hx a rfl)]
      exact hf a trivial b hb

/-- What the reads of a probe are to the given values: those with answers have these values. -/
structure Agrees (ctx : EvaluationContext) (own : String → EvalResult)
    (values : String → Option Value) : Prop where
  pending : ∀ name, ctx.pending.contains name = true → Settled (own name) →
    own name = .ok (values name)
  stored : ∀ name, ctx.pending.contains name = false → own name = storedProperty ctx name

section Probing

variable {own : String → EvalResult} {values : String → Option Value} (h : ctx.Agrees own values)
include h

theorem Agrees.readOwn {name : String} (hs : Settled (own name)) :
    success.rel ((ctx.valueReads values).own name) (Probe.read own name) := by
  intro a ha
  rw [Probe.read_of_settled hs, ← ha]
  show Except.ok (own name) = Except.ok (if ctx.pending.contains name then _ else _)
  split
  · rename_i hp
    rw [h.pending name hp hs]
  · rename_i hp
    rw [h.stored name (by simpa using hp)]

theorem Agrees.readMember (id name : String) :
    success.rel ((ctx.valueReads values).member id name)
      (entityMember (Probe.read own) ctx id name) := by
  have hread : success.rel (ctx.storedOnly name) (Probe.read own name) := by
    intro a ha
    unfold storedOnly at ha
    split at ha
    · exact nomatch ha
    · rename_i hp
      rw [← h.stored name (by simpa using hp)] at ha
      rw [Probe.read_of_settled (by rw [ha]; trivial), ha]
  exact success.entityMember id name hread

/-- A formula whose reads have answers has the same value as with those given. -/
theorem probe_of_settled {e : Expression} (hs : ∀ name ∈ e.reads, Settled (own name)) :
    success.rel (answer (ctx.valueReads values) ctx e) (ctx.probe own e) := by
  induction e using Expression.induct with
  | h e ih =>
    unfold probe
    rw [answer_eq, answer_eq]
    rw [Expression.reads_eq] at hs
    refine success.level (.refl ctx) e (fun c hc => ih c hc fun name hname => ?_) ?_
      (fun id _ => success.entityRef id) fun _ name _ _ _ id _ => h.readMember id name
    · exact hs name (List.mem_append_right _ (List.mem_flatMap.2 ⟨c, hc, hname⟩))
    · rintro name rfl
      exact h.readOwn (hs name (List.mem_append_left _ List.mem_cons_self))

end Probing

/-! ### Formulas that evaluate all formulas below them -/

theorem exists_of_bind_eq_ok {α β : Type} {x : Except EvalError α} {f : α → Except EvalError β}
    {b : β} (h : x >>= f = .ok b) : ∃ a, x = .ok a ∧ f a = .ok b := by
  cases x with
  | ok a => exact ⟨a, rfl, h⟩
  | error e => exact nomatch h

theorem exists_of_mapM_eq_ok {α β : Type} {f : α → Except EvalError β} {xs : List α} {ys : List β}
    (h : xs.mapM f = .ok ys) : ∀ x ∈ xs, ∃ y, f x = .ok y := by
  induction xs generalizing ys with
  | nil => exact fun x hx => absurd hx List.not_mem_nil
  | cons x rest ih =>
    rw [List.mapM_cons] at h
    obtain ⟨y, hy, h⟩ := exists_of_bind_eq_ok h
    obtain ⟨zs, hzs, _⟩ := exists_of_bind_eq_ok h
    intro z hz
    rcases List.mem_cons.1 hz with rfl | hz
    · exact ⟨y, hy⟩
    · exact ih hzs z hz

section Operators

variable {m : Type → Type} [Monad m] [MonadExceptOf EvalError m] {ev : Expression → m (Option Value)}

theorem binary_of_evaluatesAll {op : BinaryOp} {l r : Expression}
    (h : (Expression.binary op l r).evaluatesAll = true) :
    binary ev op l r =
      ev l >>= fun a => ev r >>= fun b => liftExcept (strictBinary op a b) := by
  cases op with
  | and | or => exact nomatch h
  | _ => rfl

theorem call_of_evaluatesAll {name : String} {args : List Expression}
    (h : (Expression.call name args).evaluatesAll = true) :
    ∃ f : Function, call ev name args =
      args.mapM ev >>= fun values => liftExcept (f.invoke values) := by
  have h : (Function.ofName? name).any (· ≠ .choose) = true := h
  unfold call
  cases hname : Function.ofName? name with
  | none =>
    rw [hname] at h
    exact nomatch h
  | some f =>
    rw [hname] at h
    cases f with
    | choose => exact nomatch h
    | _ => exact ⟨_, rfl⟩

end Operators

/-- A value comes from values of all formulas one level below. -/
theorem children_of_level_eq_ok {ev : Expression → EvalResult} {reads : Reads (Except EvalError)}
    {e : Expression} (he : e.evaluatesAll = true) {v : Option Value}
    (h : level ev reads ctx e = .ok v) : ∀ c ∈ e.children, ∃ w, ev c = .ok w := by
  cases e with
  | member o name =>
    obtain ⟨w, hw, _⟩ := exists_of_bind_eq_ok h
    intro c hc
    rw [List.mem_singleton.1 hc]
    exact ⟨w, hw⟩
  | unary op o =>
    obtain ⟨w, hw, _⟩ := exists_of_bind_eq_ok h
    intro c hc
    rw [List.mem_singleton.1 hc]
    exact ⟨w, hw⟩
  | binary op l r =>
    have h := (binary_of_evaluatesAll he).symm.trans h
    obtain ⟨a, ha, h⟩ := exists_of_bind_eq_ok h
    obtain ⟨b, hb, _⟩ := exists_of_bind_eq_ok h
    intro c hc
    rcases List.mem_cons.1 hc with rfl | hc
    · exact ⟨a, ha⟩
    · rw [List.mem_singleton.1 hc]
      exact ⟨b, hb⟩
  | call name args =>
    obtain ⟨f, hf⟩ : ∃ f : Function, call ev name args =
      args.mapM ev >>= fun values => liftExcept (f.invoke values) := call_of_evaluatesAll he
    obtain ⟨ws, hws, _⟩ := exists_of_bind_eq_ok (hf.symm.trans h)
    exact exists_of_mapM_eq_ok hws
  | list items =>
    obtain ⟨ws, hws, _⟩ := exists_of_bind_eq_ok h
    exact exists_of_mapM_eq_ok hws
  | record fields =>
    obtain ⟨ws, hws, _⟩ := exists_of_bind_eq_ok h
    intro c hc
    obtain ⟨f, hf, rfl⟩ := List.mem_map.1 hc
    obtain ⟨w, hw⟩ := exists_of_mapM_eq_ok hws f hf
    obtain ⟨w, hw, _⟩ := exists_of_bind_eq_ok hw
    exact ⟨w, hw⟩
  | _ => exact fun c hc => absurd hc List.not_mem_nil

theorem run_mapM_stop {α β : Type} {f : α → Probe β} {before after : List α} {x : α} {q : String}
    (hbefore : ∀ y ∈ before, ∃ b, (f y).run = .ok (.ok b)) (hx : (f x).run = .error q) :
    ((before ++ x :: after).mapM f).run = .error q := by
  induction before with
  | nil =>
    rw [List.nil_append, List.mapM_cons]
    exact Probe.run_bind_stop hx
  | cons y rest ih =>
    obtain ⟨b, hb⟩ := hbefore y List.mem_cons_self
    rw [List.cons_append, List.mapM_cons, Probe.run_bind_ok hb]
    exact Probe.run_bind_stop (ih fun z hz => hbefore z (List.mem_cons_of_mem _ hz))

/-- A formula stops where the first of those below it stops. -/
theorem run_level_stop {ev : Expression → Probe (Option Value)} {reads : Reads Probe}
    {e c : Expression} (he : e.evaluatesAll = true) {before after : List Expression}
    (hsplit : e.children = before ++ c :: after) {q : String}
    (hbefore : ∀ d ∈ before, ∃ v, (ev d).run = .ok (.ok v)) (hc : (ev c).run = .error q) :
    (level ev reads ctx e).run = .error q := by
  have hmapM : (e.children.mapM ev).run = .error q := by
    rw [hsplit]
    exact run_mapM_stop hbefore hc
  have hone {o : Expression} (ho : [o] = before ++ c :: after) : (ev o).run = .error q := by
    cases before with
    | nil =>
      cases ho
      exact hc
    | cons d rest =>
      obtain ⟨_, hrest⟩ := List.cons_eq_cons.1 ho
      exact absurd hrest.symm (by simp)
  cases e with
  | member o name => exact Probe.run_bind_stop (hone hsplit)
  | unary op o => exact Probe.run_bind_stop (hone hsplit)
  | binary op l r =>
    refine (congrArg ExceptT.run (binary_of_evaluatesAll he)).trans ?_
    cases before with
    | nil =>
      cases hsplit
      exact Probe.run_bind_stop hc
    | cons d rest =>
      obtain ⟨hd, hrest⟩ := List.cons_eq_cons.1 hsplit
      obtain ⟨a, ha⟩ := hbefore l (hd ▸ List.mem_cons_self)
      rw [Probe.run_bind_ok ha]
      cases rest with
      | nil =>
        cases hrest
        exact Probe.run_bind_stop hc
      | cons d' rest' =>
        obtain ⟨_, hrest⟩ := List.cons_eq_cons.1 hrest
        exact absurd hrest.symm (by simp)
  | call name args =>
    obtain ⟨f, hf⟩ : ∃ f : Function, call ev name args =
      args.mapM ev >>= fun values => liftExcept (f.invoke values) := call_of_evaluatesAll he
    refine (congrArg ExceptT.run hf).trans ?_
    exact Probe.run_bind_stop hmapM
  | list items => exact Probe.run_bind_stop hmapM
  | record fields =>
    obtain ⟨fs, gs, rfl, hfs, hgs⟩ := List.map_eq_append_iff.1 hsplit
    obtain ⟨g, gs, rfl, hg, _⟩ := List.map_eq_cons_iff.1 hgs
    refine Probe.run_bind_stop (run_mapM_stop (fun f hf => ?_) ?_)
    · obtain ⟨v, hv⟩ := hbefore f.2 (hfs ▸ List.mem_map_of_mem hf)
      exact ⟨_, Probe.run_bind_ok hv⟩
    · rw [← hg] at hc
      exact Probe.run_bind_stop hc
  | _ => exact absurd hsplit (by simp [Expression.children])

section Probing

variable {own : String → EvalResult} {values : String → Option Value} (h : ctx.Agrees own values)
include h

open Classical in
/-- A formula that evaluates all of its parts stops at its first read without an answer. -/
theorem probe_stop {e : Expression} (he : e.Unconditional) (hv : ctx.Faultless values e) {q : String}
    (hq : e.reads.find? (fun name => ¬ Settled (own name)) = some q) :
    (ctx.probe own e).run = .error q := by
  induction e using Expression.induct with
  | h e ih =>
    obtain ⟨v, hv⟩ := hv
    rw [answer_eq] at hv
    unfold probe
    rw [answer_eq]
    cases hname : e.ownName? with
    | some name =>
      have heq : e = .selfProperty name := by
        cases e with
        | selfProperty n =>
          cases hname
          rfl
        | _ => exact nomatch hname
      subst heq
      have hmem : q ∈ [name] := List.mem_of_find?_eq_some hq
      have hno : ¬ Settled (own q) := by simpa using List.find?_some hq
      rw [List.mem_singleton.1 hmem] at hno ⊢
      exact Probe.read_of_not_settled hno
    | none =>
      rw [Expression.reads_of_ownName?_eq_none hname, List.find?_flatMap, List.findSome?_eq_some_iff] at hq
      obtain ⟨before, c, after, hsplit, hc, hbefore⟩ := hq
      have hmem : c ∈ e.children := hsplit ▸ List.mem_append_right _ List.mem_cons_self
      have hvalues := children_of_level_eq_ok (he e e.mem_parts_self) hv
      refine run_level_stop (he e e.mem_parts_self) hsplit (fun d hd => ?_) ?_
      · have hd' : d ∈ e.children := hsplit ▸ List.mem_append_left _ hd
        obtain ⟨w, hw⟩ := hvalues d hd'
        refine ⟨w, probe_of_settled h (fun name hname => ?_) w hw⟩
        have hnone := List.find?_eq_none.1 (hbefore d hd) name hname
        simpa using hnone
      · exact ih c hmem (he.child hmem) (hvalues c hmem) hc

end Probing

end EvaluationContext

/-! ### The graph -/

/-- Where there are finitely many candidates and each has another one next, the way on from any of
    them ends in a cycle. -/
theorem exists_cycle_of_forward {α : Type} {r : α → α → Prop} {P : α → Prop}
    (hfin : {a | P a}.Finite) (hnext : ∀ a, P a → ∃ b, r a b ∧ P b) {a : α} (ha : P a) :
    ∃ b, Relation.ReflTransGen r a b ∧ Relation.TransGen r b b := by
  have hnext' (x : {a // P a}) : ∃ y : {a // P a}, r x y := by
    obtain ⟨b, hab, hb⟩ := hnext x x.2
    exact ⟨⟨b, hb⟩, hab⟩
  choose next hr using hnext'
  let way (n : Nat) : {a // P a} := next^[n] ⟨a, ha⟩
  have hstep (n : Nat) : r (way n) (way (n + 1)) := by
    show r (way n) (next^[n + 1] ⟨a, ha⟩)
    rw [Function.iterate_succ_apply']
    exact hr (way n)
  have hback {i j : Nat} (hij : i < j) (heq : way i = way j) :
      ∃ b, Relation.ReflTransGen r a b ∧ Relation.TransGen r b b := by
    have hcycle : Relation.TransGen r (way i).1 (way j).1 :=
      Nat.rel_of_forall_rel_succ_of_lt (f := fun n => (way n).1) (Relation.TransGen r)
        (fun n => .single (hstep n)) hij
    have hreach : Relation.ReflTransGen r (way 0).1 (way i).1 :=
      Nat.rel_of_forall_rel_succ_of_le (f := fun n => (way n).1) (Relation.ReflTransGen r)
        (fun n => .single (hstep n)) (Nat.zero_le i)
    rw [← heq] at hcycle
    exact ⟨way i, hreach, hcycle⟩
  have : Finite {a // P a} := hfin
  obtain ⟨i, j, hne, heq⟩ := Finite.exists_ne_map_eq_of_infinite way
  rcases Nat.lt_or_gt_of_ne hne with hij | hij
  · exact hback hij heq
  · exact hback hij heq.symm

namespace ReadGraph

variable (pending : Dict Expression)

/-- The formula of the first property reads the second. -/
def Edge (p q : String) : Prop := ∃ f, pending.get? p = some f ∧ q ∈ f.reads

instance (p q : String) : Decidable (Edge pending p q) :=
  decidable_of_iff ((pending.get? p).any fun f => q ∈ f.reads) (by
    rw [Option.any_eq_true]
    exact exists_congr fun f => and_congr_right fun _ => decide_eq_true_iff)

/-- The reads of a property reach a cycle. -/
def Doomed (p : String) : Prop :=
  ∃ q, Relation.ReflTransGen (Edge pending) p q ∧ Relation.TransGen (Edge pending) q q

open Classical in
/-- The first read of a property that reaches a cycle. -/
def FirstDoomed (p q : String) : Prop :=
  ∃ f, pending.get? p = some f ∧ f.reads.find? (fun q => Doomed pending q) = some q

end ReadGraph

namespace EvaluationContext

open ReadGraph

variable (ctx : EvaluationContext)

/-- The values that pending properties have. -/
noncomputable def meantValue (name : String) : Option Value :=
  match ctx.ownMeaning name with
  | .ok v => v
  | .error _ => none

/-- All pending formulas read the same pending properties in every run, by name only, and have no
    failure of their own. -/
structure Regular : Prop where
  unconditional : ∀ p f, ctx.pending.get? p = some f → f.Unconditional
  faultless : ∀ p f, ctx.pending.get? p = some f → ctx.Faultless ctx.meantValue f

variable {ctx}

/-- Answers after some levels, seen from probes with the answers after as many. -/
def bounding : Simulation (Except EvalError) Probe where
  rel x y := (∀ r, y.run = .ok r → Settled x → x = r) ∧ ∀ q, y.run = .error q → ¬ Settled x
  gives _ _ := True
  pure a := ⟨fun r hr _ => by cases hr; rfl, fun q hq => nomatch hq⟩
  throw e he := ⟨fun r hr _ => by cases hr; rfl, fun q hq => nomatch hq⟩
  bind {α β x y f g} hx hf := by
    by_cases hs : Settled x
    · cases hy : y.run with
      | error q => exact absurd hs (hx.2 q hy)
      | ok r =>
        have hr : x = r := hx.1 r hy hs
        subst hr
        cases x with
        | ok a =>
          rw [Probe.run_bind_ok hy]
          exact hf a trivial
        | error e =>
          rw [Probe.run_bind_error hy]
          exact ⟨fun r hr _ => Except.ok.inj hr, fun q hq => nomatch hq⟩
    · cases x with
      | ok a => exact absurd trivial hs
      | error e => exact ⟨fun r _ h => absurd h hs, fun q _ => hs⟩

theorem bounding_read (n : Nat) {k : Nat} (hk : k ≤ n) (name : String) :
    bounding.rel (ownValue (ctx.denote k) ctx name)
      (Probe.read (ownValue (ctx.denote n) ctx) name) := by
  by_cases hs : Settled (ownValue (ctx.denote n) ctx name)
  · refine ⟨fun r hr hk' => ?_, fun q hq => ?_⟩
    · rw [Probe.read_of_settled hs] at hr
      rw [← ownValue_denote_mono hk hk']
      exact Except.ok.inj hr
    · rw [Probe.read_of_settled hs] at hq
      exact nomatch hq
  · refine ⟨fun r hr => ?_, fun q _ hk' => hs ?_⟩
    · rw [Probe.read_of_not_settled hs] at hr
      exact nomatch hr
    · rw [ownValue_denote_mono hk hk']
      exact hk'

/-- What evaluation finds in `n + 1` levels, its reads find in `n`. -/
theorem denote_probe (n : Nat) {k : Nat} (hk : k ≤ n + 1) (e : Expression) :
    bounding.rel (ctx.denote k e) (ctx.probe (ownValue (ctx.denote n) ctx) e) := by
  induction e using Expression.induct generalizing k with
  | h e ih =>
    cases k with
    | zero =>
      exact ⟨fun r _ h => absurd h (not_settled_denote_zero e), fun q _ => not_settled_denote_zero e⟩
    | succ k =>
      unfold probe
      rw [answer_eq]
      exact bounding.level_of_own ctx e (fun c hc => ih c hc (by omega))
        (bounding_read n (by omega))

section Regular

variable (hr : ctx.Regular)
include hr

open Classical in
/-- A pending property that has a meaning after some levels has a value, and what it reads has
    a meaning after fewer. -/
theorem denote_regular (n : Nat) {p : String} {f : Expression} (hf : ctx.pending.get? p = some f)
    (hs : Settled (ctx.denote n f)) :
    ctx.denote n f = .ok (ctx.meantValue p) ∧
      ∀ q ∈ f.reads, ∃ k < n, Settled (ownValue (ctx.denote k) ctx q) := by
  -- On the levels, since the reads of a formula that has a meaning have theirs with one level less.
  induction n using Nat.strongRecOn generalizing p f with
  | ind n ih =>
    cases n with
    | zero => exact absurd hs (not_settled_denote_zero f)
    | succ n =>
      have hagrees : ctx.Agrees (ownValue (ctx.denote n) ctx) ctx.meantValue := by
        refine ⟨fun q hq hset => ?_, fun q hq => ?_⟩
        · obtain ⟨g, hg⟩ := Option.isSome_iff_exists.1 hq
          rw [ownValue_pending hg] at hset ⊢
          exact (ih n (Nat.lt_succ_self n) hg hset).1
        · have hnone : ctx.pending.get? q = none := by simpa [Dict.contains] using hq
          rw [ownValue_stored hnone]
      have hall : ∀ q ∈ f.reads, Settled (ownValue (ctx.denote n) ctx q) := by
        -- If there is a first read without a meaning, evaluation stops there.
        cases hfind : f.reads.find? (fun q => ¬ Settled (ownValue (ctx.denote n) ctx q)) with
        | none =>
          intro q hq
          simpa using List.find?_eq_none.1 hfind q hq
        | some q =>
          have hstop := probe_stop hagrees (hr.unconditional p f hf) (hr.faultless p f hf) hfind
          exact absurd hs ((denote_probe n (Nat.le_refl _) f).2 q hstop)
      obtain ⟨v, hv⟩ := hr.faultless p f hf
      have hden : ctx.denote (n + 1) f = .ok v :=
        (denote_probe n (Nat.le_refl _) f).1 _ (probe_of_settled hagrees hall v hv) hs
      have hown : ctx.ownMeaning p = .ok v := by
        have hval : ownValue (ctx.denote (n + 1)) ctx p = .ok v := (ownValue_pending hf).trans hden
        rw [← hval]
        exact ownMeaning_eq_denote (by rw [hval]; trivial)
      refine ⟨?_, fun q hq => ⟨n, Nat.lt_succ_self n, hall q hq⟩⟩
      rw [hden, meantValue, hown]

/-- What a property with a meaning reads, directly or not, has a meaning after fewer levels. -/
theorem settled_of_reads {p q : String} (hpq : Relation.TransGen (Edge ctx.pending) p q) {n : Nat}
    (hs : Settled (ownValue (ctx.denote n) ctx p)) :
    ∃ k < n, Settled (ownValue (ctx.denote k) ctx q) := by
  induction hpq with
  | single hpq =>
    obtain ⟨f, hf, hq⟩ := hpq
    rw [ownValue_pending hf] at hs
    exact (denote_regular hr n hf hs).2 _ hq
  | @tail q q' _ hqq' ih =>
    obtain ⟨k, hk, hs⟩ := ih
    obtain ⟨f, hf, hq⟩ := hqq'
    rw [ownValue_pending hf] at hs
    obtain ⟨j, hj, hs⟩ := (denote_regular hr k hf hs).2 _ hq
    exact ⟨j, Nat.lt_trans hj hk, hs⟩

/-- A property on a cycle has no meaning. -/
theorem not_settled_of_cycle {p : String} (hp : Relation.TransGen (Edge ctx.pending) p p) :
    ¬ Settled (ctx.ownMeaning p) := by
  intro hs
  obtain ⟨n, hn⟩ := exists_ownDenote_eq hs
  rw [← hn] at hs
  clear hn
  induction n using Nat.strongRecOn with
  | ind n ih =>
    obtain ⟨k, hk, hs⟩ := settled_of_reads hr hp hs
    exact ih k hk hs

theorem agrees_ownMeaning : ctx.Agrees ctx.ownMeaning ctx.meantValue := by
  refine ⟨fun q hq hset => ?_, fun q hq => ?_⟩
  · obtain ⟨n, hn⟩ := exists_ownDenote_eq hset
    obtain ⟨f, hf⟩ := Option.isSome_iff_exists.1 hq
    rw [← hn] at hset ⊢
    rw [ownValue_pending hf] at hset ⊢
    exact (denote_regular hr n hf hset).1
  · have hnone : ctx.pending.get? q = none := by simpa [Dict.contains] using hq
    rw [ownMeaning_stored hnone]

open Classical in
/-- A pending property gets stuck at its first read without a meaning. -/
theorem leads_iff {p q : String} :
    ctx.Leads p q ↔ ∃ f, ctx.pending.get? p = some f ∧
      f.reads.find? (fun q => ¬ Settled (ctx.ownMeaning q)) = some q := by
  have hstop {f : Expression} (hf : ctx.pending.get? p = some f) {q : String}
      (hq : f.reads.find? (fun q => ¬ Settled (ctx.ownMeaning q)) = some q) :
      (ctx.probe ctx.ownMeaning f).run = .error q :=
    probe_stop (agrees_ownMeaning hr) (hr.unconditional p f hf) (hr.faultless p f hf) hq
  constructor
  · rintro ⟨f, hf, hq⟩
    refine ⟨f, hf, ?_⟩
    cases hfind : f.reads.find? (fun q => ¬ Settled (ctx.ownMeaning q)) with
    | some q' =>
      rw [hstop hf hfind] at hq
      rw [Except.error.inj hq]
    | none =>
      obtain ⟨v, hv⟩ := hr.faultless p f hf
      have hall : ∀ q ∈ f.reads, Settled (ctx.ownMeaning q) := by
        intro q hq
        simpa using List.find?_eq_none.1 hfind q hq
      rw [probe_of_settled (agrees_ownMeaning hr) hall v hv] at hq
      exact nomatch hq
  · rintro ⟨f, hf, hq⟩
    exact ⟨f, hf, hstop hf hq⟩

/-- A property has no meaning exactly when its reads reach a cycle. -/
theorem not_settled_iff_doomed {p : String} :
    ¬ Settled (ctx.ownMeaning p) ↔ Doomed ctx.pending p := by
  constructor
  · intro hp
    -- Every property without a meaning leads to another one, and only finitely many are pending.
    have hfin : {q | ¬ Settled (ctx.ownMeaning q)}.Finite := by
      refine (ctx.pending.entries.map Prod.fst).finite_toSet.subset fun q hq => ?_
      obtain ⟨f, hf⟩ := pending_of_not_settled hq
      exact List.mem_map.2 ⟨(q, f), Dict.mem_entries_iff.2 hf, rfl⟩
    refine exists_cycle_of_forward hfin (fun q hq => ?_) hp
    obtain ⟨f, hf⟩ := pending_of_not_settled hq
    obtain ⟨q', hlead⟩ := exists_leads hf hq
    obtain ⟨f, hf, hfind⟩ := (leads_iff hr).1 hlead
    refine ⟨q', ⟨f, hf, List.mem_of_find?_eq_some hfind⟩, ?_⟩
    simpa using List.find?_some hfind
  · rintro ⟨q, hpq, hq⟩ hs
    rcases Relation.reflTransGen_iff_eq_or_transGen.1 hpq with rfl | hpq
    · exact not_settled_of_cycle hr hq hs
    · obtain ⟨n, hn⟩ := exists_ownDenote_eq hs
      rw [← hn] at hs
      obtain ⟨k, _, hs⟩ := settled_of_reads hr hpq hs
      refine not_settled_of_cycle hr hq ?_
      rw [ownMeaning_eq_denote hs]
      exact hs

open Classical in
/-- A pending property gets stuck at its first read that reaches a cycle. -/
theorem leads_iff_firstDoomed {p q : String} : ctx.Leads p q ↔ FirstDoomed ctx.pending p q := by
  rw [leads_iff hr]
  have hsame : (fun q => decide (¬ Settled (ctx.ownMeaning q))) =
      fun q => decide (Doomed ctx.pending q) := by
    funext q
    exact decide_eq_decide.2 (not_settled_iff_doomed hr)
  rw [hsame]
  rfl

end Regular

end EvaluationContext

end EntityFormulas
