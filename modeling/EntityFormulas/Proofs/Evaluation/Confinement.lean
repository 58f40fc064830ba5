/-
  EntityFormulas/Proofs/Evaluation/Confinement.lean
  =================================================
  **Formulas that ask for some own properties only.**

  Two contexts of one entity may evaluate different formulas of it, and store
  different values of its other properties.  A formula does not notice as long as
  it asks, in the first context, for properties only about which the two agree:
  each of them is evaluated in both, by the same formula, or what the first one
  stores is what it means in the second one (`Confines`).

  Which properties a formula asks for depends on values and on where evaluation
  gets stuck, so it is said of the probe and not of the formula (`ReadsWithin`).
  Then the two contexts give a property the same meaning, and without a meaning it
  gets stuck at the same read in both, so it lies on a cycle in both or in none
  (`Confines.cycle_iff`).
-/
import EntityFormulas.Proofs.Evaluation.Agreement
import EntityFormulas.Proofs.Evaluation.ReadGraph

namespace EntityFormulas

open Evaluation

/-! ### Contexts of the same entity among the same others -/

/-- The contexts differ only in the state of their own entity and in which of its formulas are
    evaluated. -/
structure EvaluationContext.SameAround (ctx ctx' : EvaluationContext) : Prop where
  alike : ctx.Alike ctx'
  entities : ∀ id, id ≠ ctx'.entity.id → ctx.entities.get? id = ctx'.entities.get? id
  relationships : ctx.relationships = ctx'.relationships
  has : ∀ name, ctx.hasOwnProperty name = ctx'.hasOwnProperty name

namespace EvaluationContext.SameAround

theorem refl (ctx : EvaluationContext) : ctx.SameAround ctx :=
  ⟨.refl ctx, fun _ _ => rfl, rfl, fun _ => rfl⟩

theorem symm {ctx ctx' : EvaluationContext} (h : ctx.SameAround ctx') : ctx'.SameAround ctx where
  alike := ⟨h.alike.strict.symm, h.alike.id.symm, h.alike.type.symm⟩
  entities id hid := (h.entities id (h.alike.id ▸ hid)).symm
  relationships := h.relationships.symm
  has name := (h.has name).symm

end EvaluationContext.SameAround

namespace Simulation

variable {m n : Type → Type} [Monad m] [LawfulMonad m] [Monad n] [LawfulMonad n]
  [MonadExceptOf EvalError m] [MonadExceptOf EvalError n] (S : Simulation m n)
  {ctx ctx' : EvaluationContext} (h : ctx.SameAround ctx')
  {own : String → m (Option Value)} {own' : String → n (Option Value)}
include h

/-- Formulas in two such contexts, with related reads of own properties. -/
theorem level_around {ev : Expression → m (Option Value)} {ev' : Expression → n (Option Value)}
    (e : Expression) (hc : ∀ c ∈ e.children, S.rel (ev c) (ev' c))
    (ho : ∀ name, S.rel (own name) (own' name)) :
    S.rel (Evaluation.level ev (contextReads own ctx) ctx e)
      (Evaluation.level ev' (contextReads own' ctx') ctx' e) := by
  apply S.level h.alike e hc
  · intro name _
    exact ho name
  · intro id _
    show S.rel (Evaluation.entityRef ctx id) (Evaluation.entityRef ctx' id)
    rw [EvaluationContext.entityRef_of_others h.alike h.entities h.relationships]
    exact S.entityRef id
  · intro o name _ v _ id _
    show S.rel (Evaluation.entityMember own ctx id name) (Evaluation.entityMember own' ctx' id name)
    rw [EvaluationContext.entityMember_congr h.alike own (h.has name)
      (EvaluationContext.servesMember_of_others h.entities h.relationships id name)]
    exact S.entityMember id name (ho name)

theorem answer_around (e : Expression) (ho : ∀ name, S.rel (own name) (own' name)) :
    S.rel (answer (contextReads own ctx) ctx e) (answer (contextReads own' ctx') ctx' e) := by
  induction e using Expression.induct with
  | h e ih =>
    rw [answer_eq, answer_eq]
    exact S.level_around h e ih ho

end Simulation

/-! ### Probes that stop outside of some properties -/

namespace Probe

variable {α : Type}

/-- The probe stops at a property without `P`. -/
def Strays (P : String → Prop) (x : Probe α) : Prop := ∃ q, ¬ P q ∧ x.run = .error q

theorem not_strays_of_run {P : String → Prop} {x : Probe α} {r : Except EvalError α}
    (h : x.run = .ok r) : ¬ x.Strays P := by
  rintro ⟨q, -, hq⟩
  rw [h] at hq
  exact nomatch hq

theorem strays_of_run {P : String → Prop} {x : Probe α} {q : String} (h : x.run = .error q)
    (hs : x.Strays P) : ¬ P q := by
  obtain ⟨q', hq', hrun⟩ := hs
  rw [h] at hrun
  cases hrun
  exact hq'

/-- Where the first probe gets through the second one does, unless it stops without `P`, which it
    does wherever the first one does. -/
def following (P : String → Prop) : Simulation Probe Probe where
  rel x y := (∀ r, x.run = .ok r → y.run = .ok r ∨ y.Strays P) ∧ (x.Strays P → y.Strays P)
  gives _ _ := True
  pure _ := ⟨fun _ hr => .inl hr, id⟩
  throw _ _ := ⟨fun _ hr => .inl hr, id⟩
  bind {α β x y f g} hx hf := by
    have hstray : y.Strays P → (y >>= g).Strays P := by
      rintro ⟨q, hq, hy⟩
      exact ⟨q, hq, run_bind_stop hy⟩
    rcases hrun : x.run with q | e | a
    · refine ⟨fun r hr => ?_, ?_⟩
      · rw [run_bind_stop hrun] at hr
        exact nomatch hr
      · rintro ⟨q', hq', hr⟩
        rw [run_bind_stop hrun] at hr
        cases hr
        exact hstray (hx.2 ⟨q, hq', hrun⟩)
    · rcases hx.1 _ hrun with hy | hy
      · rw [show (y >>= g).run = _ from run_bind_error hy]
        refine ⟨fun r hr => ?_, fun hs => ?_⟩
        · rw [run_bind_error hrun] at hr
          exact .inl hr
        · exact absurd hs (not_strays_of_run (run_bind_error hrun))
      · exact ⟨fun _ _ => .inr (hstray hy), fun _ => hstray hy⟩
    · rcases hx.1 _ hrun with hy | hy
      · unfold Strays
        rw [run_bind_ok hrun, run_bind_ok hy]
        exact hf a trivial
      · exact ⟨fun _ _ => .inr (hstray hy), fun _ => hstray hy⟩

/-- The second probe ends as the first one, unless that stops without `P`. -/
def mirroring (P : String → Prop) : Simulation Probe Probe where
  rel x y := ¬ x.Strays P → y.run = x.run
  gives _ _ := True
  pure _ _ := rfl
  throw _ _ _ := rfl
  bind {α β x y f g} hx hf hs := by
    rcases hrun : x.run with q | e | a
    · have hy := hx fun ⟨q', hq', hr⟩ => hs ⟨q', hq', run_bind_stop hr⟩
      rw [run_bind_stop hrun, run_bind_stop (hy.trans hrun)]
    · have hy := hx (not_strays_of_run hrun)
      rw [run_bind_error hrun, run_bind_error (hy.trans hrun)]
    · have hy := hx (not_strays_of_run hrun)
      unfold Strays at hs
      rw [run_bind_ok hrun] at hs ⊢
      rw [run_bind_ok (hy.trans hrun)]
      exact hf a trivial hs

theorem strays_read_iff {P : String → Prop} {own : String → EvalResult} {name : String} :
    (read own name).Strays P ↔ ¬ Settled (own name) ∧ ¬ P name := by
  by_cases hs : Settled (own name)
  · constructor
    · exact fun h => absurd h (not_strays_of_run (read_of_settled hs))
    · exact fun h => absurd hs h.1
  · constructor
    · exact fun h => ⟨hs, strays_of_run (read_of_not_settled hs) h⟩
    · exact fun h => ⟨name, h.2, read_of_not_settled hs⟩

/-- Probes that stop at properties with `P` only. -/
def staying (P : String → Prop) : Simulation Probe Probe where
  rel x _ := ∀ q, x.run = .error q → P q
  gives _ _ := True
  pure _ := nofun
  throw _ := nofun
  bind {α β x y f g} hx hf q hq := by
    rcases hrun : x.run with q' | e | a
    · rw [run_bind_stop hrun] at hq
      cases hq
      exact hx _ hrun
    · rw [run_bind_error hrun] at hq
      cases hq
    · rw [run_bind_ok hrun] at hq
      exact hf a trivial q hq

/-- Reads follow if what the first one answers the second one answers alike, or stops without `P`. -/
theorem following_read {P : String → Prop} {own own' : String → EvalResult} {name : String}
    (hs : Settled (own name) → own' name = own name ∨ ¬ Settled (own' name) ∧ ¬ P name)
    (hno : ¬ Settled (own name) → ¬ P name → ¬ Settled (own' name)) :
    (following P).rel (read own name) (read own' name) := by
  constructor
  · intro r hr
    by_cases h : Settled (own name)
    · rw [read_of_settled h] at hr
      cases hr
      rcases hs h with heq | hstray
      · rw [← heq]
        exact .inl (read_of_settled (heq ▸ h))
      · exact .inr (strays_read_iff.2 hstray)
    · rw [read_of_not_settled h] at hr
      exact nomatch hr
  · rw [strays_read_iff, strays_read_iff]
    exact fun h => ⟨hno h.1 h.2, h.2⟩

theorem mirroring_read {P : String → Prop} {own own' : String → EvalResult} {name : String}
    (h : P name ∨ Settled (own name) →
      (Settled (own name) → own' name = own name) ∧ (Settled (own' name) → Settled (own name))) :
    (mirroring P).rel (read own name) (read own' name) := by
  intro hstray
  rw [strays_read_iff, not_and_or, not_not, not_not] at hstray
  obtain ⟨heq, hback⟩ := h hstray.symm
  by_cases hs : Settled (own name)
  · rw [read_of_settled hs, read_of_settled (heq hs ▸ hs), heq hs]
  · rw [read_of_not_settled hs, read_of_not_settled fun h => hs (hback h)]

end Probe

namespace EvaluationContext

/-! ### What a formula asks for -/

open Classical in
/-- The answers of the own properties with `P`; the others count as properties without an answer. -/
noncomputable def confined (P : String → Prop) (own : String → EvalResult) (name : String) :
    EvalResult :=
  if P name then own name else .error (.circular [name])

/-- Evaluating the formula asks for own properties with `P` only, up to its end or to the read that
    it gets stuck at. -/
def ReadsWithin (ctx : EvaluationContext) (P : String → Prop) (f : Expression) : Prop :=
  ∀ q, (ctx.probe (confined P ctx.ownMeaning) f).run = .error q → P q

section Confined

variable {P : String → Prop} {own : String → EvalResult} {name : String}

theorem confined_of (h : P name) : confined P own name = own name := if_pos h

theorem not_settled_confined (h : ¬ P name) : ¬ Settled (confined P own name) := by
  rw [confined, if_neg h]
  exact fun hs => hs trivial

theorem confined_of_settled (h : Settled (confined P own name)) :
    P name ∧ confined P own name = own name := by
  by_cases hP : P name
  · exact ⟨hP, confined_of hP⟩
  · exact absurd h (not_settled_confined hP)

end Confined

/-- A formula whose only references are the names of properties with `P` asks for no others. -/
theorem readsWithin_of_parts {ctx : EvaluationContext} {P : String → Prop} {f : Expression}
    (hown : ∀ name, .selfProperty name ∈ f.parts → P name)
    (hentity : ∀ id, .entityRef id ∉ f.parts) (hmember : ∀ o name, .member o name ∉ f.parts) :
    ctx.ReadsWithin P f := by
  suffices (Probe.staying P).rel (ctx.probe (confined P ctx.ownMeaning) f)
    (ctx.probe (confined P ctx.ownMeaning) f) from this
  induction f using Expression.induct with
  | h f ih =>
    unfold probe at ih ⊢
    rw [answer_eq]
    apply (Probe.staying P).level (.refl _) f
    · intro c hc
      have hsub := Expression.parts_subset_of_child hc
      exact ih c hc (fun name hname => hown name (hsub hname)) (fun id hid => hentity id (hsub hid))
        fun o name ho => hmember o name (hsub ho)
    · rintro name rfl q hq
      have hstray : ¬ (Probe.read (confined P ctx.ownMeaning) name).Strays P := by
        rw [Probe.strays_read_iff]
        exact fun h => h.2 (hown name (Expression.mem_parts_self _))
      by_contra hP
      exact hstray ⟨q, hP, hq⟩
    · rintro id rfl
      exact absurd (Expression.mem_parts_self _) (hentity id)
    · rintro o name rfl
      exact absurd (Expression.mem_parts_self _) (hmember o name)

theorem ReadsWithin.not_strays {ctx : EvaluationContext} {P : String → Prop} {f : Expression}
    (h : ctx.ReadsWithin P f) : ¬ (ctx.probe (confined P ctx.ownMeaning) f).Strays P := by
  rintro ⟨q, hq, hrun⟩
  exact hq (h q hrun)

/-- The second context evaluates the properties with `P` that the first one evaluates, by formulas
    that ask for such properties only, and what the first one stores of them they mean there. -/
structure Confines (P : String → Prop) (ctx ctx' : EvaluationContext) : Prop where
  around : ctx.SameAround ctx'
  pending : ∀ name f, P name → ctx.pending.get? name = some f →
    ctx'.pending.get? name = some f ∧ ctx.ReadsWithin P f
  stored : ∀ name, P name → ctx.pending.get? name = none →
    ctx'.ownMeaning name = storedProperty ctx name

namespace Confines

variable {P : String → Prop} {ctx ctx' : EvaluationContext} (h : Confines P ctx ctx')
include h

/-! ### Meanings -/

omit h in
/-- A formula with an answer after some levels: the probe with the answers after one level less gets
    through. -/
theorem probe_of_denote {n : Nat} {f : Expression} (hs : Settled (ctx.denote (n + 1) f)) :
    (ctx.probe (ownValue (ctx.denote n) ctx) f).run = .ok (ctx.denote (n + 1) f) := by
  obtain ⟨hthrough, hstop⟩ : bounding.rel (ctx.denote (n + 1) f) _ :=
    denote_probe n (Nat.le_refl (n + 1)) f
  cases hrun : (ctx.probe (ownValue (ctx.denote n) ctx) f).run with
  | error q => exact absurd hs (hstop q hrun)
  | ok r => rw [hthrough r hrun hs]

omit h in
theorem meaning_of_probe {f : Expression} {r : EvalResult}
    (hr : (ctx.probe ctx.ownMeaning f).run = .ok r) : ctx.meaning f = r :=
  ((probe_spec f).1 r hr).1

omit h in
/-- Answers that agree with the meanings wherever they are settled make no other difference. -/
theorem meaning_of_agreeing (ha : ctx.SameAround ctx') {own : String → EvalResult}
    (hown : ∀ name, Settled (own name) → ctx'.ownMeaning name = own name) {f : Expression}
    {r : EvalResult} (hr : (ctx.probe own f).run = .ok r) : ctx'.meaning f = r := by
  have hfollow : (Probe.following fun _ => True).rel (ctx.probe own f)
      (ctx'.probe ctx'.ownMeaning f) := by
    apply (Probe.following fun _ => True).answer_around ha
    intro name
    exact Probe.following_read (fun hs => .inl (hown name hs)) fun _ hno => absurd trivial hno
  rcases hfollow.1 r hr with hrun | ⟨q, hq, -⟩
  · exact meaning_of_probe hrun
  · exact absurd trivial hq

omit h in
/-- A probe with answers that are meanings stays with the properties with `P`. -/
theorem probe_confined {own : String → EvalResult}
    (hown : ∀ name, Settled (own name) → ctx.ownMeaning name = own name) {f : Expression}
    (hf : ctx.ReadsWithin P f) {r : EvalResult} (hr : (ctx.probe own f).run = .ok r) :
    (ctx.probe (confined P own) f).run = .ok r := by
  have hconfine : (Probe.following P).rel (ctx.probe own f) (ctx.probe (confined P own) f) := by
    apply (Probe.following P).answer_around (.refl ctx)
    intro name
    by_cases hP : P name
    · rw [show Probe.read (confined P own) name = Probe.read own name by
        unfold Probe.read
        rw [confined_of hP]]
      exact ⟨fun r hr => .inl hr, id⟩
    · exact Probe.following_read (fun _ => .inr ⟨not_settled_confined hP, hP⟩)
        fun _ _ => not_settled_confined hP
  have hmeant : (Probe.following P).rel (ctx.probe (confined P own) f)
      (ctx.probe (confined P ctx.ownMeaning) f) := by
    apply (Probe.following P).answer_around (.refl ctx)
    intro name
    refine Probe.following_read (fun hs => .inl ?_) fun _ hno => not_settled_confined hno
    obtain ⟨hP, heq⟩ := confined_of_settled hs
    rw [heq] at hs ⊢
    rw [confined_of hP, hown name hs]
  rcases hconfine.1 r hr with hrun | hstray
  · exact hrun
  · exact absurd (hmeant.2 hstray) hf.not_strays

/-- What a property with `P` means in the first context it means in the second one. -/
theorem ownMeaning_eq {name : String} (hP : P name) (hs : Settled (ctx.ownMeaning name)) :
    ctx'.ownMeaning name = ctx.ownMeaning name := by
  -- By the levels that the first context needs.
  suffices hlevels : ∀ n name, P name → Settled (ownValue (ctx.denote n) ctx name) →
      ctx'.ownMeaning name = ownValue (ctx.denote n) ctx name by
    obtain ⟨n, hn⟩ := exists_ownDenote_eq hs
    rw [← hn] at hs ⊢
    exact hlevels n name hP hs
  intro n
  induction n with
  | zero =>
    intro name hP hs
    cases hf : ctx.pending.get? name with
    | none =>
      rw [h.stored name hP hf, ownValue_stored hf]
    | some f =>
      rw [ownValue_pending hf] at hs
      exact absurd hs (not_settled_denote_zero f)
  | succ n ih =>
    intro name hP hs
    cases hf : ctx.pending.get? name with
    | none =>
      rw [h.stored name hP hf, ownValue_stored hf]
    | some f =>
      obtain ⟨hf', hreads⟩ := h.pending name f hP hf
      rw [ownValue_pending hf] at hs ⊢
      have hprobe := probe_confined (fun name hs => ownMeaning_eq_denote hs) hreads
        (probe_of_denote hs)
      rw [ownMeaning_pending hf']
      apply meaning_of_agreeing h.around _ hprobe
      intro q hq
      obtain ⟨hPq, heq⟩ := confined_of_settled hq
      rw [heq] at hq ⊢
      exact ih q hPq hq

/-- What a property with `P` means in the second context it means in the first one. -/
theorem ownMeaning_back {name : String} (hP : P name) (hs : Settled (ctx'.ownMeaning name)) :
    ctx.ownMeaning name = ctx'.ownMeaning name := by
  -- By the levels that the second context needs.
  suffices hlevels : ∀ n name, P name → Settled (ownValue (ctx'.denote n) ctx' name) →
      ctx.ownMeaning name = ownValue (ctx'.denote n) ctx' name by
    obtain ⟨n, hn⟩ := exists_ownDenote_eq hs
    rw [← hn] at hs ⊢
    exact hlevels n name hP hs
  intro n
  induction n with
  | zero =>
    intro name hP hs
    cases hf : ctx.pending.get? name with
    | none => rw [ownMeaning_stored hf, ← h.stored name hP hf, ownMeaning_eq_denote hs]
    | some f =>
      obtain ⟨hf', -⟩ := h.pending name f hP hf
      rw [ownValue_pending hf'] at hs
      exact absurd hs (not_settled_denote_zero f)
  | succ n ih =>
    intro name hP hs
    cases hf : ctx.pending.get? name with
    | none => rw [ownMeaning_stored hf, ← h.stored name hP hf, ownMeaning_eq_denote hs]
    | some f =>
      obtain ⟨hf', hreads⟩ := h.pending name f hP hf
      rw [ownValue_pending hf'] at hs ⊢
      have hfollow : (Probe.following P).rel (ctx'.probe (ownValue (ctx'.denote n) ctx') f)
          (ctx.probe (confined P ctx.ownMeaning) f) := by
        apply (Probe.following P).answer_around h.around.symm
        intro q
        by_cases hPq : P q
        · refine Probe.following_read (fun hq => .inl ?_) fun _ hno => absurd hPq hno
          rw [confined_of hPq, ih q hPq hq]
        · exact Probe.following_read (fun _ => .inr ⟨not_settled_confined hPq, hPq⟩)
            fun _ _ => not_settled_confined hPq
      rw [ownMeaning_pending hf]
      rcases hfollow.1 _ (probe_of_denote hs) with hrun | hstray
      · apply meaning_of_agreeing (.refl ctx) _ hrun
        intro q hq
        obtain ⟨-, heq⟩ := confined_of_settled hq
        exact heq.symm
      · exact absurd hstray hreads.not_strays

theorem settled_iff {name : String} (hP : P name) :
    Settled (ctx'.ownMeaning name) ↔ Settled (ctx.ownMeaning name) := by
  constructor
  · intro hs
    rw [h.ownMeaning_back hP hs]
    exact hs
  · intro hs
    rw [h.ownMeaning_eq hP hs]
    exact hs

/-! ### Cycles -/

omit h in
/-- Probes of a formula that asks for such properties end as the one that stays with them, if their
    answers of these properties are the meanings in the first context. -/
theorem probe_mirrors {f : Expression} (hf : ctx.ReadsWithin P f) {ctx₂ : EvaluationContext}
    (ha : ctx.SameAround ctx₂) (hown : ∀ name, P name →
      (Settled (ctx.ownMeaning name) → ctx₂.ownMeaning name = ctx.ownMeaning name) ∧
        (Settled (ctx₂.ownMeaning name) → Settled (ctx.ownMeaning name))) :
    (ctx₂.probe ctx₂.ownMeaning f).run = (ctx.probe (confined P ctx.ownMeaning) f).run := by
  have hmirror : (Probe.mirroring P).rel (ctx.probe (confined P ctx.ownMeaning) f)
      (ctx₂.probe ctx₂.ownMeaning f) := by
    apply (Probe.mirroring P).answer_around ha
    intro name
    apply Probe.mirroring_read
    intro hname
    have hP : P name := hname.elim id fun hs => (confined_of_settled hs).1
    rw [confined_of hP]
    exact hown name hP
  exact hmirror hf.not_strays

omit h in
theorem probe_self {f : Expression} (hf : ctx.ReadsWithin P f) :
    (ctx.probe ctx.ownMeaning f).run = (ctx.probe (confined P ctx.ownMeaning) f).run :=
  probe_mirrors hf (.refl ctx) fun _ _ => ⟨fun _ => rfl, id⟩

/-- Both contexts probe such a formula to the same end. -/
theorem probe_eq {f : Expression} (hf : ctx.ReadsWithin P f) :
    (ctx'.probe ctx'.ownMeaning f).run = (ctx.probe ctx.ownMeaning f).run := by
  rw [probe_self hf]
  exact probe_mirrors hf h.around fun _ hP => ⟨h.ownMeaning_eq hP, (h.settled_iff hP).1⟩

/-- A property with `P` gets stuck at one with `P`. -/
theorem leads_within {p q : String} (hP : P p) (hl : ctx.Leads p q) : P q := by
  obtain ⟨f, hf, hq⟩ := hl
  obtain ⟨-, hreads⟩ := h.pending p f hP hf
  exact hreads q (probe_self hreads ▸ hq)

theorem leads_iff {p q : String} (hP : P p) : ctx'.Leads p q ↔ ctx.Leads p q := by
  cases hf : ctx.pending.get? p with
  | none =>
    constructor
    · intro hl
      have hs := not_settled_of_leads hl
      rw [h.settled_iff hP] at hs
      obtain ⟨f, hf'⟩ := pending_of_not_settled hs
      rw [hf] at hf'
      cases hf'
    · rintro ⟨f, hf', -⟩
      rw [hf] at hf'
      cases hf'
  | some f =>
    obtain ⟨hf', hreads⟩ := h.pending p f hP hf
    have hprobe := h.probe_eq hreads
    constructor
    · rintro ⟨f₂, hf₂, hq⟩
      rw [hf'] at hf₂
      cases hf₂
      exact ⟨f, hf, hprobe ▸ hq⟩
    · rintro ⟨f₂, hf₂, hq⟩
      rw [hf] at hf₂
      cases hf₂
      exact ⟨f, hf', hprobe ▸ hq⟩

/-- A property with `P` lies on a cycle in both contexts or in none. -/
theorem cycle_iff {p : String} (hP : P p) :
    Relation.TransGen ctx'.Leads p p ↔ Relation.TransGen ctx.Leads p p := by
  constructor
  · intro hp
    suffices hpath : ∀ q, Relation.TransGen ctx'.Leads p q →
        Relation.TransGen ctx.Leads p q ∧ P q from (hpath p hp).1
    intro q hq
    induction hq with
    | single hl =>
      have hl := (h.leads_iff hP).1 hl
      exact ⟨.single hl, h.leads_within hP hl⟩
    | tail _ hl ih =>
      have hl := (h.leads_iff ih.2).1 hl
      exact ⟨ih.1.tail hl, h.leads_within ih.2 hl⟩
  · intro hp
    suffices hpath : ∀ q, Relation.TransGen ctx.Leads p q →
        Relation.TransGen ctx'.Leads p q ∧ P q from (hpath p hp).1
    intro q hq
    induction hq with
    | single hl => exact ⟨.single ((h.leads_iff hP).2 hl), h.leads_within hP hl⟩
    | tail _ hl ih => exact ⟨ih.1.tail ((h.leads_iff ih.2).2 hl), h.leads_within ih.2 hl⟩

end Confines

end EvaluationContext

end EntityFormulas
