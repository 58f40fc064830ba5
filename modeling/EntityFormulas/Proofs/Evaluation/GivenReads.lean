/-
  EntityFormulas/Proofs/Evaluation/GivenReads.lean
  ================================================
  **Formulas over given values.**

  Literal and measured properties are given: no pass changes them.  `given`
  evaluates a formula over these of one entity and stops at any other read, so
  where it gets through the formula reads nothing else (`ReadsGiven`).  Such a
  formula has one meaning in all contexts with the given values, whatever is
  pending there and whatever else they know (`meaning_of_given`).
-/
import EntityFormulas.Proofs.Evaluation.Cycles

namespace EntityFormulas

open Evaluation EvaluationContext

namespace Entity

/-- The value of a literal or measured property. -/
def given? (e : Entity) (name : String) : Option Value :=
  match e.properties.get? name with
  | some (.literal p) => some p.value
  | some (.measured p) => some p.value
  | _ => none

/-- Reads of given values. -/
def givenOwn (e : Entity) (name : String) : Probe (Option Value) :=
  match e.given? name with
  | some v => pure (some v)
  | none => Probe.stop name

/-- Reads of what an entity has without any pass. -/
def givenReads (e : Entity) : Reads Probe where
  own := e.givenOwn
  entity id := if id = e.id then pure (some (.reference e.id (some e.typePath))) else Probe.stop id
  member id name := if id = e.id then e.givenOwn name else Probe.stop name

/-- The answer of a formula as far as it reads given values only. -/
def given (settings : Settings) (e : Entity) (f : Expression) : Probe (Option Value) :=
  answer e.givenReads (ofEntity settings e) f

/-- The formula reads nothing but literal and measured properties of the entity. -/
def ReadsGiven (settings : Settings) (e : Entity) (f : Expression) : Prop :=
  ∃ r, (e.given settings f).run = .ok r

/-- Two states of an entity with the same given values. -/
structure SameGiven (e e' : Entity) : Prop where
  id : e.id = e'.id
  type : e.typePath = e'.typePath
  value : ∀ name, e.given? name = e'.given? name

theorem SameGiven.refl (e : Entity) : e.SameGiven e := ⟨rfl, rfl, fun _ => rfl⟩

theorem SameGiven.trans {a b c : Entity} (h : a.SameGiven b) (h' : b.SameGiven c) :
    a.SameGiven c :=
  ⟨h.id.trans h'.id, h.type.trans h'.type, fun name => (h.value name).trans (h'.value name)⟩

theorem SameGiven.symm {a b : Entity} (h : a.SameGiven b) : b.SameGiven a :=
  ⟨h.id.symm, h.type.symm, fun name => (h.value name).symm⟩

theorem SameGiven.given {e e' : Entity} (h : e.SameGiven e') (settings : Settings)
    (f : Expression) : e.given settings f = e'.given settings f := by
  have hreads : e.givenReads = e'.givenReads := by
    unfold givenReads givenOwn
    simp only [h.id, h.type, h.value]
  have halike : (ofEntity settings e).Alike (ofEntity settings e') := ⟨rfl, h.id, h.type⟩
  have hunfolded (n : Nat) (d : Expression) :
      unfolded e.givenReads (ofEntity settings e) n d =
        unfolded e'.givenReads (ofEntity settings e') n d := by
    induction n generalizing d with
    | zero => rfl
    | succ n ih =>
      rw [hreads]
      rw [hreads] at ih
      apply (Simulation.equality Probe).level halike d
      · intro c _
        exact ih c
      · intro name _
        rfl
      · intro id _
        rfl
      · intro o name _ v _ id _
        rfl
  exact hunfolded _ f

end Entity

/-! ### The meaning of formulas over given values -/

namespace EvaluationContext

/-- Answers that are known, and settled, where evaluation gets through. -/
def confining : Simulation (Except EvalError) Probe where
  rel x y := ∀ r, y.run = .ok r → x = r ∧ Settled r
  gives _ _ := True
  pure a r hr := by
    cases hr
    exact ⟨rfl, trivial⟩
  throw e he r hr := by
    cases hr
    exact ⟨rfl, he⟩
  bind {α β x y f g} hx hf r hr := by
    rcases hy : y.run with q | e | a
    · rw [Probe.run_bind_stop hy] at hr
      exact nomatch hr
    · obtain ⟨rfl, he⟩ := hx _ hy
      rw [Probe.run_bind_error hy] at hr
      cases hr
      exact ⟨rfl, he⟩
    · obtain ⟨rfl, _⟩ := hx _ hy
      rw [Probe.run_bind_ok hy] at hr
      exact hf a trivial r hr

/-- The context has the given values of an entity, and none of them is pending. -/
structure Gives (ctx : EvaluationContext) (settings : Settings) (e : Entity) : Prop where
  alike : ctx.Alike (ofEntity settings e)
  given : ∀ name v, e.given? name = some v → ctx.pending.get? name = none ∧
    (ctx.properties.get? name).map Property.current = some (some v)

variable {ctx : EvaluationContext} {settings : Settings} {e : Entity}

theorem gives_ofEntity (settings : Settings) (e : Entity) : (ofEntity settings e).Gives settings e := by
  refine ⟨.refl _, fun name v hv => ⟨rfl, ?_⟩⟩
  show (e.properties.get? name).map Property.current = _
  unfold Entity.given? at hv
  split at hv
  · rename_i p hp
    cases hv
    rw [hp]
    rfl
  · rename_i p hp
    cases hv
    rw [hp]
    rfl
  · exact nomatch hv

variable (h : ctx.Gives settings e)
include h

theorem Gives.ownMeaning {name : String} {v : Value} (hv : e.given? name = some v) :
    ctx.ownMeaning name = .ok (some v) := by
  obtain ⟨hpending, hcurrent⟩ := h.given name v hv
  obtain ⟨p, hp, hpv⟩ := Option.map_eq_some_iff.1 hcurrent
  rw [ownMeaning_stored hpending]
  unfold storedProperty
  rw [hp]
  exact congrArg Except.ok hpv

theorem Gives.own (name : String) : confining.rel (ctx.ownMeaning name) (e.givenOwn name) := by
  intro r hr
  unfold Entity.givenOwn at hr
  split at hr
  · rename_i v hv
    cases hr
    exact ⟨h.ownMeaning hv, trivial⟩
  · cases hr

/-- Where evaluation over given values gets through, it finds the meaning of the formula. -/
theorem Gives.meaning (f : Expression) : confining.rel (ctx.meaning f) (e.given settings f) := by
  -- A refused read never gets through, so only the references that are given are left to compare.
  induction f using Expression.induct with
  | h f ih =>
    have hid : ctx.entity.id = e.id := h.alike.id
    have hlevel : confining.rel (level ctx.meaning (contextReads ctx.ownMeaning ctx) ctx f)
        (e.given settings f) := by
      unfold Entity.given
      rw [answer_eq]
      apply confining.level h.alike f
      · exact ih
      · intro name _
        exact h.own name
      · intro id _ r hr
        change (if id = e.id then _ else _ : Probe (Option Value)).run = _ at hr
        split at hr
        · rename_i heq
          cases hr
          refine ⟨?_, trivial⟩
          show entityRef ctx id = _
          unfold entityRef entity?
          rw [if_pos (heq.trans hid.symm)]
          show (Except.ok (some (Value.reference ctx.entity.id (some ctx.entity.typePath))) : EvalResult) = _
          rw [hid, show ctx.entity.typePath = e.typePath from h.alike.type]
        · exact nomatch hr
      · intro o name _ v _ id _ r hr
        change (if id = e.id then _ else _ : Probe (Option Value)).run = _ at hr
        split at hr
        · rename_i heq
          obtain ⟨hown, hs⟩ := h.own name r hr
          refine ⟨?_, hs⟩
          show entityMember ctx.ownMeaning ctx id name = r
          have hhas : ctx.hasOwnProperty name = true := by
            unfold Entity.givenOwn at hr
            split at hr
            · rename_i v hv
              obtain ⟨_, hcurrent⟩ := h.given name v hv
              obtain ⟨p, hp, _⟩ := Option.map_eq_some_iff.1 hcurrent
              simp [hasOwnProperty, Dict.contains, hp]
            · exact nomatch hr
          unfold entityMember
          rw [if_pos (heq.trans hid.symm), if_pos hhas]
          exact hown
        · exact nomatch hr
    intro r hr
    obtain ⟨heq, hs⟩ := hlevel r hr
    rw [meaning_of_settled_level (heq ▸ hs)]
    exact ⟨heq, hs⟩

omit h

/-- A formula over given values evaluates to what it gives, unless evaluation runs out of levels. -/
theorem evaluate_of_given {f : Expression} {r : EvalResult} (hr : (e.given settings f).run = .ok r)
    (hd : ∀ limit, f.evaluate (ofEntity settings e) ≠ .error (.depthExceeded limit)) :
    f.evaluate (ofEntity settings e) = r := by
  obtain ⟨hmeaning, hs⟩ := (gives_ofEntity settings e).meaning f r hr
  rw [← hmeaning] at hs ⊢
  rcases evaluate_complete hs with heq | hdeep
  · exact heq
  · cases hans : f.evaluate (ofEntity settings e) with
    | ok v =>
      rw [hans] at hdeep
      exact absurd hdeep id
    | error err =>
      rw [hans] at hdeep
      cases err with
      | depthExceeded limit => exact absurd hans (hd limit)
      | _ => exact absurd hdeep id

end EvaluationContext

/-! ### Formulas whose references are given -/

/-- Evaluations that get through. -/
def Probe.passing : Simulation Probe Probe where
  rel x _ := ∃ r, x.run = .ok r
  gives _ _ := True
  pure a := ⟨_, rfl⟩
  throw e _ := ⟨_, rfl⟩
  bind {α β x y f g} hx hf := by
    obtain ⟨r, hr⟩ := hx
    cases r with
    | error e => exact ⟨_, Probe.run_bind_error hr⟩
    | ok a =>
      obtain ⟨r', hr'⟩ := hf a trivial
      exact ⟨r', (Probe.run_bind_ok hr).trans hr'⟩

/-- A formula whose only references are the names of literal and measured properties reads nothing
    else, whatever their values are. -/
theorem Entity.readsGiven_of_parts (settings : Settings) (e : Entity) {f : Expression}
    (hown : ∀ name, .selfProperty name ∈ f.parts → (e.given? name).isSome)
    (hentity : ∀ id, .entityRef id ∉ f.parts) (hmember : ∀ o name, .member o name ∉ f.parts) :
    e.ReadsGiven settings f := by
  suffices Probe.passing.rel (e.given settings f) (e.given settings f) from this
  induction f using Expression.induct with
  | h f ih =>
    have hlevel : Probe.passing.rel (level (e.given settings) e.givenReads (ofEntity settings e) f)
        (level (e.given settings) e.givenReads (ofEntity settings e) f) := by
      apply Probe.passing.level (.refl _) f
      · intro c hc
        have hsub := Expression.parts_subset_of_child hc
        apply ih c hc
        · intro name hname
          exact hown name (hsub hname)
        · intro id hid
          exact hentity id (hsub hid)
        · intro o name ho
          exact hmember o name (hsub ho)
      · rintro name rfl
        obtain ⟨v, hv⟩ := Option.isSome_iff_exists.1 (hown name (Expression.mem_parts_self _))
        refine ⟨.ok (some v), ?_⟩
        show (e.givenOwn name).run = _
        unfold givenOwn
        rw [hv]
        rfl
      · rintro id rfl
        exact absurd (Expression.mem_parts_self _) (hentity id)
      · rintro o name rfl
        exact absurd (Expression.mem_parts_self _) (hmember o name)
    unfold given at hlevel ⊢
    rw [answer_eq]
    exact hlevel

end EntityFormulas
