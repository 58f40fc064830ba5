/-
  EntityFormulas/Proofs/Evaluation/Agreement.lean
  ===============================================
  **Contexts that serve the same formulas alike.**

  A context that knows less than another one still evaluates a formula to the
  same answer if it serves every read that the formula makes.  Which members a
  formula reads depends on the values of the objects, so reads are described
  by meanings in the richer context.
-/
import EntityFormulas.Proofs.Evaluation.Soundness

namespace EntityFormulas

open Evaluation

namespace EvaluationContext

/-! ### Single reads -/

/-- The first context answers a named entity as the second one does. -/
def ServesEntity (ctx full : EvaluationContext) (id : String) : Prop :=
  ctx.entity? id = full.entity? id ∧
    (full.entity? id = none → ctx.relationships.contains id = full.relationships.contains id)

/-- The first context answers a member of an entity as the second one does.  Own properties do
    not count: they are read in the same way by both. -/
def ServesMember (ctx full : EvaluationContext) (id name : String) : Prop :=
  if id = full.entity.id then
    full.hasOwnProperty name = true ∨ ctx.targets? id name = full.targets? id name
  else
    (ctx.entities.get? id).bind (·.property? name) = (full.entities.get? id).bind (·.property? name) ∧
      ((full.entities.get? id).bind (·.property? name) = none →
        ctx.targets? id name = full.targets? id name)

section Reads

variable {m : Type → Type} [Monad m] [MonadExceptOf EvalError m] {ctx full : EvaluationContext}

theorem missing_congr (h : ctx.Alike full) (e : EvalError) :
    (Evaluation.missing ctx e : m _) = Evaluation.missing full e := by
  unfold Evaluation.missing
  rw [h.strict]

theorem storedProperty_congr (h : ctx.Alike full) {name : String}
    (hp : (ctx.properties.get? name).map Property.current =
      (full.properties.get? name).map Property.current) :
    (storedProperty ctx name : m _) = storedProperty full name := by
  unfold Evaluation.storedProperty
  cases hq : ctx.properties.get? name with
  | none =>
    rw [hq] at hp
    rw [Option.map_eq_none_iff.1 hp.symm, missing_congr h, h.id]
  | some p =>
    rw [hq] at hp
    obtain ⟨q, hq', hpq⟩ := Option.map_eq_some_iff.1 hp.symm
    rw [hq']
    dsimp only
    rw [hpq]

omit m in
theorem contains_congr {ps qs : Dict Property} {name : String}
    (h : (ps.get? name).map Property.current = (qs.get? name).map Property.current) :
    ps.contains name = qs.contains name := by
  unfold Dict.contains
  rw [← Option.isSome_map (f := Property.current), h, Option.isSome_map]

theorem entityRef_congr (h : ctx.Alike full) {id : String} (hs : ctx.ServesEntity full id) :
    (entityRef ctx id : m _) = entityRef full id := by
  unfold Evaluation.entityRef
  rw [hs.1]
  cases he : full.entity? id with
  | some e => rfl
  | none =>
    dsimp only
    rw [hs.2 he, missing_congr h]

theorem relationship_congr (h : ctx.Alike full) {id name : String}
    (ht : ctx.targets? id name = full.targets? id name) :
    (relationship ctx id name : m _) = relationship full id name := by
  unfold Evaluation.relationship
  rw [ht, missing_congr h]

theorem entityMember_congr (h : ctx.Alike full) (own : String → m (Option Value))
    {id name : String} (hhas : ctx.hasOwnProperty name = full.hasOwnProperty name)
    (hs : ctx.ServesMember full id name) :
    entityMember own ctx id name = entityMember own full id name := by
  unfold Evaluation.entityMember
  unfold ServesMember at hs
  rw [h.id, hhas]
  split
  · rename_i hid
    rw [if_pos hid] at hs
    rcases hs with hs | hs
    · rw [if_pos hs, if_pos hs]
    · rw [relationship_congr h hs]
  · rename_i hid
    rw [if_neg hid] at hs
    rw [hs.1]
    cases hp : (full.entities.get? id).bind (·.property? name) with
    | some p => rfl
    | none => exact relationship_congr h (hs.2 hp)

/-- Contexts with the same other entities answer a named entity alike, in whatever state their own
    entities are. -/
theorem entityRef_of_others (h : ctx.Alike full)
    (hentities : ∀ id, id ≠ full.entity.id → ctx.entities.get? id = full.entities.get? id)
    (hrelationships : ctx.relationships = full.relationships) (id : String) :
    (entityRef ctx id : m _) = entityRef full id := by
  unfold Evaluation.entityRef entity?
  by_cases hid : id = full.entity.id
  · have hid' : id = ctx.entity.id := hid.trans h.id.symm
    rw [if_pos hid, if_pos hid']
    dsimp only
    rw [h.id, h.type]
  · have hid' : ¬ id = ctx.entity.id := fun heq => hid (heq.trans h.id)
    rw [if_neg hid, if_neg hid', hentities id hid, hrelationships, missing_congr h]

theorem entityRef_of_same (h : ctx.Alike full) (hentities : ctx.entities = full.entities)
    (hrelationships : ctx.relationships = full.relationships) (id : String) :
    (entityRef ctx id : m _) = entityRef full id :=
  entityRef_of_others h (fun _ _ => by rw [hentities]) hrelationships id

omit m in
theorem servesMember_of_others
    (hentities : ∀ id, id ≠ full.entity.id → ctx.entities.get? id = full.entities.get? id)
    (hrelationships : ctx.relationships = full.relationships) (id name : String) :
    ctx.ServesMember full id name := by
  have htargets : ctx.targets? id name = full.targets? id name := by
    unfold targets?
    rw [hrelationships]
  unfold ServesMember
  split
  · exact .inr htargets
  · rename_i hid
    exact ⟨by rw [hentities id hid], fun _ => htargets⟩

omit m in
theorem servesMember_of_same (hentities : ctx.entities = full.entities)
    (hrelationships : ctx.relationships = full.relationships) (id name : String) :
    ctx.ServesMember full id name :=
  servesMember_of_others (fun _ _ => by rw [hentities]) hrelationships id name

end Reads

/-! ### Whole formulas -/

/-- The first context serves the reads of all formulas in a set: they have the same own
    properties, and each entity and member that a formula of the set reads is served. -/
structure Serves (A : Expression → Prop) (ctx full : EvaluationContext) : Prop where
  alike : ctx.Alike full
  properties : ctx.properties = full.properties
  pending : ctx.pending = full.pending
  limit : ctx.recursionLimit = full.recursionLimit
  children : ∀ e, A e → ∀ c ∈ e.children, A c
  formulas : ∀ name f, full.pending.get? name = some f → A f
  entity : ∀ id, A (.entityRef id) → ctx.ServesEntity full id
  member : ∀ o name, A (.member o name) → ∀ v, full.meaning o = .ok (some v) →
    ∀ id ∈ v.references, ctx.ServesMember full id name

/-- Computations with the same answers and effects wherever meanings are remembered. -/
def agreement (full : EvaluationContext) : Simulation Eval Eval where
  rel x y := ∀ s : EvalState, s.Remembers full.Sound → x s = y s ∧ (y s).2.Remembers full.Sound
  gives y a := ∃ s : EvalState, s.Remembers full.Sound ∧ (y s).1 = .ok a
  pure _ _ hs := ⟨rfl, hs⟩
  throw _ _ _ hs := ⟨rfl, hs⟩
  bind {α β x y f g} hx hf s hs := by
    obtain ⟨heq, hs'⟩ := hx s hs
    rcases h : y s with ⟨r, s'⟩
    rw [h] at heq hs'
    cases r with
    | ok a =>
      rw [Eval.bind_apply_ok heq, Eval.bind_apply_ok h]
      exact hf a ⟨s, hs, by rw [h]⟩ s' hs'
    | error e =>
      rw [Eval.bind_apply_error heq, Eval.bind_apply_error h]
      exact ⟨rfl, hs'⟩

theorem agreement_nested {full : EvaluationContext} {α : Type} {x y : Eval α}
    (h : full.agreement.rel x y) : full.agreement.rel (Eval.nested x) (Eval.nested y) := by
  intro s hs
  obtain ⟨heq, hs'⟩ := h { s with depth := s.depth + 1 } hs
  refine ⟨?_, hs'⟩
  unfold Eval.nested
  rw [heq]

/-- What an evaluator that remembers meanings gives is the meaning. -/
theorem meaning_of_gives {full : EvaluationContext} {left : Nat} {e : Expression} {v : Value}
    (h : full.agreement.gives (Eval.evaluateWithin full left e) (some v)) :
    full.meaning e = .ok (some v) := by
  obtain ⟨s, hs, hval⟩ := h
  rw [(evaluateWithin_sound left e s hs).2 (by rw [hval]; trivial), hval]

section Formulas

variable {A : Expression → Prop} {ctx full : EvaluationContext} (h : Serves A ctx full)
include h

theorem Serves.hasOwnProperty (name : String) :
    ctx.hasOwnProperty name = full.hasOwnProperty name := by
  unfold EvaluationContext.hasOwnProperty
  rw [h.pending, h.properties]

theorem Serves.storedProperty {m : Type → Type} [Monad m] [MonadExceptOf EvalError m]
    (name : String) : (storedProperty ctx name : m _) = storedProperty full name := by
  unfold Evaluation.storedProperty
  rw [h.properties, h.alike.id, missing_congr h.alike]

theorem Serves.ownProperty {left : Nat}
    (hev : ∀ e, A e → full.agreement.rel (Eval.evaluateWithin ctx left e)
      (Eval.evaluateWithin full left e)) (name : String) :
    full.agreement.rel (Eval.ownProperty (Eval.evaluateWithin ctx left) ctx name)
      (Eval.ownProperty (Eval.evaluateWithin full left) full name) := by
  intro s hs
  refine ⟨?_, (ownProperty_sound (evaluateWithin_sound left) name s hs).1⟩
  rcases Eval.ownProperty_cases (Eval.evaluateWithin full left) full name s with
    ⟨r, hr, heq⟩ | ⟨hr, hmem, heq⟩ | ⟨hr, hmem, hp, heq⟩ | ⟨f, hr, hmem, hp, heq⟩ <;> rw [heq]
  · exact Eval.ownProperty_resolved hr
  · exact Eval.ownProperty_inProgress hr hmem
  · rw [Eval.ownProperty_stored hr hmem (by rw [h.pending, hp]), h.storedProperty name]
  · rw [Eval.ownProperty_pending hr hmem (by rw [h.pending, hp])]
    have heval := (hev f (h.formulas name f hp)
      { s with inProgress := s.inProgress ++ [name] } hs).1
    unfold Eval.resolving
    rw [heval]

/-- Both contexts evaluate the formulas of the set to the same answers with the same effects. -/
theorem Serves.evaluateWithin (left : Nat) {e : Expression} (he : A e) :
    full.agreement.rel (Eval.evaluateWithin ctx left e) (Eval.evaluateWithin full left e) := by
  induction left generalizing e with
  | zero =>
    intro s hs
    refine ⟨?_, hs⟩
    unfold Eval.evaluateWithin
    rw [h.limit]
  | succ left ih =>
    have hown := h.ownProperty fun e he => ih he
    rw [Eval.evaluateWithin_succ, Eval.evaluateWithin_succ]
    refine agreement_nested (full.agreement.level h.alike e
      (fun c hc => ih (h.children e he c hc)) (fun name _ => hown name) (fun id hid => ?_)
      (fun o name ho v hv id hid => ?_))
    · show full.agreement.rel (entityRef ctx id) (entityRef full id)
      rw [entityRef_congr h.alike (h.entity id (hid ▸ he))]
      exact full.agreement.entityRef id
    · have hserves := h.member o name (ho ▸ he) v (meaning_of_gives hv) id hid
      show full.agreement.rel (entityMember _ ctx id name) (entityMember _ full id name)
      rw [entityMember_congr h.alike _ (h.hasOwnProperty name) hserves]
      exact full.agreement.entityMember id name (hown name)

theorem Serves.evaluate {e : Expression} (he : A e) : e.evaluate ctx = e.evaluate full := by
  have heq := (h.evaluateWithin ctx.recursionLimit he {} (EvalState.remembers_start _)).1
  show (Eval.evaluateWithin ctx ctx.recursionLimit e {}).1 =
    (Eval.evaluateWithin full full.recursionLimit e {}).1
  rw [heq, h.limit]

/-- Both contexts answer reads of own properties alike. -/
theorem Serves.property (name : String) {s : EvalState} (hs : s.Remembers full.Sound) :
    Eval.property ctx name s = Eval.property full name s := by
  rw [Eval.property_eq, Eval.property_eq, h.limit]
  exact (h.ownProperty (fun _ he => h.evaluateWithin _ he) name s hs).1

/-! ### Meanings in both contexts -/

theorem Serves.denote {n : Nat} {e : Expression} (he : A e) (hs : Settled (ctx.denote n e)) :
    full.meaning e = ctx.denote n e := by
  induction n generalizing e with
  | zero => exact absurd hs (not_settled_denote_zero e)
  | succ n ih =>
    have hrel : Simulation.refinement.rel (ctx.denote (n + 1) e)
        (level full.meaning (contextReads full.ownMeaning full) full e) := by
      have hown (name : String) : Simulation.refinement.rel (ownValue (ctx.denote n) ctx name)
          (full.ownMeaning name) := by
        intro hs
        cases hf : full.pending.get? name with
        | some f =>
          rw [ownValue_pending (h.pending ▸ hf)] at hs ⊢
          rw [ownMeaning_pending hf]
          exact ih (h.formulas name f hf) hs
        | none => rw [ownMeaning_stored hf, ownValue_stored (h.pending ▸ hf), h.storedProperty]
      refine Simulation.refinement.level h.alike e (fun c hc => ih (h.children e he c hc))
        (fun name _ => hown name) (fun id hid => ?_) (fun o name ho v hv id hid => ?_)
      · show Simulation.refinement.rel (entityRef ctx id) (entityRef full id)
        rw [entityRef_congr h.alike (h.entity id (hid ▸ he))]
        exact Simulation.refinement.entityRef id
      · show Simulation.refinement.rel (entityMember _ ctx id name) (entityMember _ full id name)
        rw [entityMember_congr h.alike _ (h.hasOwnProperty name) (h.member o name (ho ▸ he) v hv id hid)]
        exact Simulation.refinement.entityMember id name (hown name)
    have heq := hrel hs
    rw [meaning_of_settled_level (heq ▸ hs)]
    exact heq

/-- What has a meaning in the context that serves has the same one in the other. -/
theorem Serves.meaning {e : Expression} (he : A e) (hs : Settled (ctx.meaning e)) :
    full.meaning e = ctx.meaning e := by
  obtain ⟨n, hn⟩ := exists_denote_eq hs
  rw [← hn] at hs ⊢
  exact h.denote he hs

/-- Both contexts serve each other, since each read that either makes is one of the other. -/
theorem Serves.symm : Serves A full ctx where
  alike := ⟨h.alike.strict.symm, h.alike.id.symm, h.alike.type.symm⟩
  properties := h.properties.symm
  pending := h.pending.symm
  limit := h.limit.symm
  children := h.children
  formulas name f hf := h.formulas name f (h.pending ▸ hf)
  entity id hid := by
    obtain ⟨hentity, hrel⟩ := h.entity id hid
    exact ⟨hentity.symm, fun hnone => (hrel (hentity ▸ hnone)).symm⟩
  member o name ho v hv id hid := by
    have hfull : full.meaning o = .ok (some v) := by
      rw [h.meaning (h.children _ ho o List.mem_cons_self) (by rw [hv]; trivial), hv]
    have hs := h.member o name ho v hfull id hid
    unfold ServesMember at *
    rw [h.alike.id, h.hasOwnProperty name]
    split
    · rename_i hid
      rw [if_pos hid] at hs
      exact hs.imp_right Eq.symm
    · rename_i hid
      rw [if_neg hid] at hs
      exact ⟨hs.1.symm, fun hnone => (hs.2 (hs.1 ▸ hnone)).symm⟩

end Formulas

/-! ### Contexts that differ in what is not read -/

/-- Contexts with the same pending formulas that store the same values for all other properties.
    They may differ in how the properties came to their values, and in what is stored for those
    that are pending. -/
structure ReadsAs (ctx ctx' : EvaluationContext) : Prop where
  alike : ctx.Alike ctx'
  entities : ctx.entities = ctx'.entities
  relationships : ctx.relationships = ctx'.relationships
  pending : ctx.pending = ctx'.pending
  limit : ctx.recursionLimit = ctx'.recursionLimit
  has : ∀ name, ctx.properties.contains name = ctx'.properties.contains name
  stored : ∀ name, ctx.pending.get? name = none →
    (ctx.properties.get? name).map Property.current =
      (ctx'.properties.get? name).map Property.current

namespace ReadsAs

variable {ctx ctx' : EvaluationContext} (h : ctx.ReadsAs ctx')
include h

theorem hasOwnProperty (name : String) : ctx.hasOwnProperty name = ctx'.hasOwnProperty name := by
  unfold EvaluationContext.hasOwnProperty
  rw [h.pending, h.has]

theorem level {m : Type → Type} [Monad m] [LawfulMonad m] [MonadExceptOf EvalError m]
    (ev : Expression → m (Option Value)) (own : String → m (Option Value)) (e : Expression) :
    Evaluation.level ev (contextReads own ctx) ctx e =
      Evaluation.level ev (contextReads own ctx') ctx' e :=
  (Simulation.equality m).level h.alike e (fun _ _ => rfl) (fun _ _ => rfl)
    (fun id _ => entityRef_of_same h.alike h.entities h.relationships id)
    fun _ name _ _ _ id _ => entityMember_congr h.alike own (h.hasOwnProperty name)
      (servesMember_of_same h.entities h.relationships id name)

theorem ownProperty (ev : Expression → Eval (Option Value)) :
    Eval.ownProperty ev ctx = Eval.ownProperty ev ctx' := by
  funext name s
  rcases Eval.ownProperty_cases ev ctx name s with ⟨r, hr, heq⟩ | ⟨hr, hmem, heq⟩ |
    ⟨hr, hmem, hp, heq⟩ | ⟨f, hr, hmem, hp, heq⟩
  · rw [heq, Eval.ownProperty_resolved hr]
  · rw [heq, Eval.ownProperty_inProgress hr hmem]
  · rw [heq, Eval.ownProperty_stored hr hmem (h.pending ▸ hp),
      storedProperty_congr h.alike (h.stored name hp)]
  · rw [heq, Eval.ownProperty_pending hr hmem (h.pending ▸ hp)]

theorem evaluateWithin (left : Nat) :
    Eval.evaluateWithin ctx left = Eval.evaluateWithin ctx' left := by
  induction left with
  | zero =>
    funext e
    unfold Eval.evaluateWithin
    rw [h.limit]
  | succ left ih =>
    funext e
    rw [Eval.evaluateWithin_succ, Eval.evaluateWithin_succ, ih, h.ownProperty, h.level]

/-- An evaluator answers reads of own properties alike in both contexts. -/
theorem property (name : String) : Eval.property ctx name = Eval.property ctx' name := by
  funext s
  rw [Eval.property_eq, Eval.property_eq, h.limit, h.evaluateWithin, h.ownProperty]

end ReadsAs

end EvaluationContext

end EntityFormulas
