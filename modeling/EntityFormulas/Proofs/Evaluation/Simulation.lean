/-
  EntityFormulas/Proofs/Evaluation/Simulation.lean
  ================================================
  **Relations between evaluators.**

  One level of evaluation runs in any monad, so two evaluators that differ in
  what they remember, how they read or which context they have run the same
  `Evaluation.level`.  A `Simulation` relates computations of two monads in a way
  that sequencing preserves; `Simulation.level` then lifts a relation between
  the answers below a formula, and between the reads, to the formula itself.

  Every comparison of evaluators is an instance: it names the relation, proves
  the three laws, and looks at reads only.
-/
import EntityFormulas.Evaluation.Evaluator

namespace EntityFormulas

/-! ### Settled answers -/

/-- Whether a failure lies in how evaluation went and not in the formula: it came upon a property
    under evaluation, or ran out of levels. -/
def EvalError.Incidental : EvalError → Prop
  | .circular _ | .depthExceeded _ => True
  | _ => False

/-- Whether a failure is one of strict evaluation only: of a reference that leads nowhere, or of a
    member of what has none. -/
def EvalError.Missing (e : EvalError) : Prop := e.kind = .missingReference ∨ e.kind = .invalidAccess

theorem EvalError.Missing.not_incidental {e : EvalError} (h : e.Missing) : ¬ e.Incidental := by
  cases e with
  | circular path | depthExceeded limit => rcases h with h | h <;> exact nomatch h
  | _ => exact id

/-- An answer that is not an incidental failure. -/
def Settled {α : Type} : Except EvalError α → Prop
  | .ok _ => True
  | .error e => ¬ e.Incidental

/-- Whether evaluation ran out of levels. -/
def TooDeep {α : Type} : Except EvalError α → Prop
  | .error (.depthExceeded _) => True
  | _ => False

/-- A failure for want of levels stays one wherever it is passed on. -/
theorem TooDeep.rethrown {α β : Type} {e : EvalError} (h : TooDeep (.error e : Except EvalError α)) :
    TooDeep (.error e : Except EvalError β) := by
  cases e with
  | depthExceeded limit => exact trivial
  | _ => exact absurd h id

theorem not_settled_depthExceeded {α : Type} (limit : Nat) :
    ¬ Settled (.error (.depthExceeded limit) : Except EvalError α) := fun h => h trivial

theorem Settled.bind {α β : Type} {x : Except EvalError α} {f : α → Except EvalError β}
    (hx : Settled x) (hf : ∀ a, Settled (f a)) : Settled (x >>= f) := by
  cases x with
  | ok a => exact hf a
  | error e => exact hx

/-- What comes first in a settled computation is settled. -/
theorem Settled.of_bind {α β : Type} {x : Except EvalError α} {f : α → Except EvalError β}
    (h : Settled (x >>= f)) : Settled x := by
  cases x with
  | ok a => trivial
  | error e => exact h

theorem Settled.map {α β : Type} {x : Except EvalError α} (hx : Settled x) (f : α → β) :
    Settled (x.map f) := by
  cases x with
  | ok a => trivial
  | error e => exact hx

theorem Settled.of_map {α β : Type} {x : Except EvalError α} {f : α → β} (h : Settled (x.map f)) :
    Settled x := by
  cases x with
  | ok a => trivial
  | error e => exact h

namespace Quantity

theorem raw_settled (op : BinaryOp) (l r : Quantity) : Settled (raw op l r) := by
  cases op with
  | add | sub =>
    unfold raw
    dsimp only
    split
    · exact id
    · trivial
  | div =>
    unfold raw
    dsimp only
    split
    · exact id
    · trivial
  | mul => trivial
  | _ => exact id

theorem arithmetic_settled (op : BinaryOp) (l r : Quantity) : Settled (arithmetic op l r) := by
  have h := raw_settled op l r
  unfold arithmetic
  cases hr : raw op l r with
  | error e =>
    rw [hr] at h
    exact h
  | ok q =>
    dsimp only
    split
    · trivial
    · exact id

end Quantity

namespace Value

theorem arithmetic_settled (op : BinaryOp) (l r : Value) : Settled (arithmetic op l r) := by
  unfold arithmetic
  split
  · exact (Quantity.arithmetic_settled op _ _).map _
  · exact id

theorem negate_settled (v : Value) : Settled v.negate := by
  cases v with
  | number q => trivial
  | _ => exact id

theorem order_settled (op : BinaryOp) (l r : Value) : Settled (order op l r) := by
  unfold order
  split
  · split
    · exact id
    · trivial
  · trivial
  · trivial
  · exact id

theorem compare_settled (op : BinaryOp) (l r : Value) : Settled (compare op l r) := by
  have h := order_settled op l r
  unfold compare
  cases hr : order op l r with
  | error e =>
    rw [hr] at h
    exact h
  | ok o =>
    cases o with
    | none => trivial
    | some o =>
      cases op with
      | lt | lte | gt | gte => trivial
      | _ => exact id

end Value

namespace Evaluation

theorem unary_settled (op : UnaryOp) (v : Option Value) : Settled (unary op v) := by
  cases op with
  | not => trivial
  | neg =>
    cases v with
    | none => trivial
    | some v => exact (Value.negate_settled v).map some

theorem strictBinary_settled (op : BinaryOp) (l r : Option Value) :
    Settled (strictBinary op l r) := by
  cases op with
  | eq | neq => trivial
  | lt | lte | gt | gte =>
    cases l with
    | none => trivial
    | some l =>
      cases r with
      | none => trivial
      | some r => exact (Value.compare_settled _ l r).map _
  | _ =>
    cases l with
    | none => trivial
    | some l =>
      cases r with
      | none => trivial
      | some r =>
        unfold strictBinary
        dsimp only
        split
        · trivial
        · exact (Value.arithmetic_settled _ l r).map some

end Evaluation

namespace Function

theorem invoke_settled (f : Function) (args : List (Option Value)) : Settled (f.invoke args) := by
  have harity : Settled (f.checkArity args.length) := by
    unfold checkArity
    split
    · trivial
    · exact id
  have htypes : Settled (f.checkTypes args) := by
    unfold checkTypes
    split
    · exact id
    · trivial
  exact harity.bind fun _ => htypes.bind fun _ => trivial

end Function

/-! ### The formulas below a formula -/

namespace Expression

/-- The formulas one level below a formula, from left to right. -/
def children : Expression → List Expression
  | .literal _ | .selfProperty _ | .selfEntity | .entityRef _ => []
  | .member object _ => [object]
  | .unary _ operand => [operand]
  | .binary _ left right => [left, right]
  | .call _ args => args
  | .list items => items
  | .record fields => fields.map Prod.snd

theorem mem_parts_self (e : Expression) : e ∈ e.parts := by
  cases e <;> simp [parts]

theorem partsOfList_eq (es : List Expression) : partsOfList es = es.flatMap parts := by
  induction es with
  | nil => rfl
  | cons e rest ih => rw [partsOfList, ih, List.flatMap_cons]

theorem partsOfFields_eq (fs : List (String × Expression)) :
    partsOfFields fs = (fs.map Prod.snd).flatMap parts := by
  induction fs with
  | nil => rfl
  | cons f rest ih => rw [partsOfFields, ih, List.map_cons, List.flatMap_cons]

/-- A formula's parts are itself and the parts of the formulas below it. -/
theorem parts_eq (e : Expression) : e.parts = e :: e.children.flatMap parts := by
  cases e with
  | call _ args => rw [parts, partsOfList_eq]; rfl
  | list items => rw [parts, partsOfList_eq]; rfl
  | record fields => rw [parts, partsOfFields_eq]; rfl
  | _ => simp [parts, children]

theorem parts_subset_of_child {c e : Expression} (h : c ∈ e.children) : c.parts ⊆ e.parts := by
  intro d hd
  rw [parts_eq e]
  exact List.mem_cons_of_mem _ (List.mem_flatMap.2 ⟨c, h, hd⟩)

theorem mem_parts_of_child {c e : Expression} (h : c ∈ e.children) : c ∈ e.parts :=
  parts_subset_of_child h c.mem_parts_self

theorem levels_of_mem {es : List Expression} {e : Expression} (h : e ∈ es) :
    e.height < levels es := by
  induction es with
  | nil => exact absurd h List.not_mem_nil
  | cons d rest ih =>
    rw [levels]
    rcases List.mem_cons.1 h with rfl | h
    · omega
    · have := ih h
      omega

theorem levelsOfFields_eq (fs : List (String × Expression)) :
    levelsOfFields fs = levels (fs.map Prod.snd) := by
  induction fs with
  | nil => rfl
  | cons f rest ih => rw [levelsOfFields, ih, List.map_cons, levels]

theorem height_lt_of_child {c e : Expression} (h : c ∈ e.children) : c.height < e.height := by
  cases e with
  | member o _ | unary _ o =>
    rw [List.mem_singleton.1 h, height]
    omega
  | binary _ l r =>
    rw [height]
    rcases List.mem_cons.1 h with rfl | h
    · omega
    · rw [List.mem_singleton.1 h]
      omega
  | call _ args | list items =>
    rw [height]
    exact levels_of_mem h
  | record fields =>
    rw [height, levelsOfFields_eq]
    exact levels_of_mem h
  | _ => exact absurd h List.not_mem_nil

/-- Induction on a formula by the formulas below it. -/
theorem induct {motive : Expression → Prop}
    (h : ∀ e, (∀ c ∈ e.children, motive c) → motive e) (e : Expression) : motive e := by
  suffices ∀ k (e : Expression), e.height < k → motive e from this _ e (Nat.lt_succ_self _)
  intro k
  induction k with
  | zero => exact fun e he => absurd he (Nat.not_lt_zero _)
  | succ k ih =>
    intro e he
    refine h e fun c hc => ih c ?_
    have := height_lt_of_child hc
    omega

/-- The parts of a part are parts. -/
theorem parts_subset {d e : Expression} (h : d ∈ e.parts) : d.parts ⊆ e.parts := by
  induction e using induct with
  | h e ih =>
    rw [parts_eq e] at h
    rcases List.mem_cons.1 h with rfl | h
    · exact List.Subset.refl _
    · obtain ⟨c, hc, hd⟩ := List.mem_flatMap.1 h
      exact List.Subset.trans (ih c hc hd) (parts_subset_of_child hc)

end Expression

/-! ### The entities that a value refers to -/

namespace Value

mutual

/-- The entities whose members the members of a value are: itself for a reference, and those of
    the items, however deep, for a list. -/
def references : Value → List String
  | .reference id _ => [id]
  | .list _ items => referencesOfItems items
  | _ => []

def referencesOfItems : List Value → List String
  | [] => []
  | v :: rest => references v ++ referencesOfItems rest

end

end Value

/-! ### Contexts of the same entity -/

/-- Two contexts for the same entity with the same strictness.  They may differ in its properties
    and in everything else that can be read. -/
structure EvaluationContext.Alike (ctx ctx' : EvaluationContext) : Prop where
  strict : ctx.strict = ctx'.strict
  id : ctx.entity.id = ctx'.entity.id
  type : ctx.entity.typePath = ctx'.entity.typePath

theorem EvaluationContext.Alike.refl (ctx : EvaluationContext) : ctx.Alike ctx := ⟨rfl, rfl, rfl⟩

/-- Two contexts that hold the same.  They may differ in strictness and in the recursion limit. -/
structure EvaluationContext.SameData (ctx ctx' : EvaluationContext) : Prop where
  entity : ctx.entity = ctx'.entity
  properties : ctx.properties = ctx'.properties
  entities : ctx.entities = ctx'.entities
  relationships : ctx.relationships = ctx'.relationships
  pending : ctx.pending = ctx'.pending

theorem EvaluationContext.SameData.refl (ctx : EvaluationContext) : ctx.SameData ctx :=
  ⟨rfl, rfl, rfl, rfl, rfl⟩

/-! ### Simulations -/

/-- A relation between the computations of two monads that sequencing preserves.  Formulas
    themselves never fail incidentally, and what follows a step needs to be related only at values
    that the second computation `gives`. -/
structure Simulation (m n : Type → Type) [Monad m] [Monad n] [MonadExceptOf EvalError m]
    [MonadExceptOf EvalError n] where
  rel : {α : Type} → m α → n α → Prop
  gives : {α : Type} → n α → α → Prop
  pure : ∀ {α : Type} (a : α), rel (pure a) (pure a)
  throw : ∀ {α : Type} (e : EvalError), ¬ e.Incidental → rel (throw e : m α) (throw e)
  bind : ∀ {α β : Type} {x : m α} {y : n α} {f : α → m β} {g : α → n β},
    rel x y → (∀ a, gives y a → rel (f a) (g a)) → rel (x >>= f) (y >>= g)

namespace Simulation

open Evaluation

variable {m n : Type → Type} [Monad m] [Monad n] [MonadExceptOf EvalError m]
  [MonadExceptOf EvalError n] (S : Simulation m n) {ctx ctx' : EvaluationContext}

theorem liftExcept {α : Type} {x : Except EvalError α} (hx : Settled x) :
    S.rel (liftExcept x : m α) (liftExcept x) := by
  cases x with
  | ok a => exact S.pure a
  | error e => exact S.throw e hx

theorem missing (h : ctx.Alike ctx') {e : EvalError} (he : ¬ e.Incidental) :
    S.rel (missing ctx e : m _) (missing ctx' e) := by
  unfold Evaluation.missing
  rw [h.strict]
  split
  · exact S.throw e he
  · exact S.pure none

/-- Two contexts of the same entity whose answers for what is missing are related. -/
structure Comparable (ctx ctx' : EvaluationContext) : Prop where
  id : ctx.entity.id = ctx'.entity.id
  type : ctx.entity.typePath = ctx'.entity.typePath
  missing : ∀ e : EvalError, e.Missing →
    S.rel (Evaluation.missing ctx e : m _) (Evaluation.missing ctx' e)

theorem comparable (h : ctx.Alike ctx') : S.Comparable ctx ctx' :=
  ⟨h.id, h.type, fun _ he => S.missing h he.not_incidental⟩

section SameData

variable (hd : ctx.SameData ctx') (hc : S.Comparable ctx ctx')
include hd hc

theorem storedProperty_of_sameData (name : String) :
    S.rel (Evaluation.storedProperty ctx name : m _) (Evaluation.storedProperty ctx' name) := by
  unfold Evaluation.storedProperty
  rw [hd.properties, hd.entity]
  split
  · exact S.pure _
  · exact hc.missing _ (.inl rfl)

theorem entityRef_of_sameData (id : String) :
    S.rel (Evaluation.entityRef ctx id : m _) (Evaluation.entityRef ctx' id) := by
  unfold Evaluation.entityRef EvaluationContext.entity?
  rw [hd.entity, hd.entities, hd.relationships]
  split
  · exact S.pure _
  · split
    · exact S.pure _
    · exact hc.missing _ (.inl rfl)

theorem relationship_of_sameData (id name : String) :
    S.rel (Evaluation.relationship ctx id name : m _) (Evaluation.relationship ctx' id name) := by
  unfold Evaluation.relationship EvaluationContext.targets?
  rw [hd.relationships]
  split
  · exact S.pure _
  · exact hc.missing _ (.inl rfl)

theorem entityMember_of_sameData {own : String → m (Option Value)} {own' : String → n (Option Value)}
    (id name : String) (ho : S.rel (own name) (own' name)) :
    S.rel (Evaluation.entityMember own ctx id name) (Evaluation.entityMember own' ctx' id name) := by
  unfold Evaluation.entityMember EvaluationContext.hasOwnProperty
  rw [hd.entity, hd.entities, hd.properties, hd.pending]
  split
  · split
    · exact ho
    · exact S.relationship_of_sameData hd hc id name
  · split
    · exact S.pure _
    · exact S.relationship_of_sameData hd hc id name

end SameData

theorem storedProperty (name : String) :
    S.rel (storedProperty ctx name : m _) (storedProperty ctx name) :=
  S.storedProperty_of_sameData (.refl ctx) (S.comparable (.refl ctx)) name

theorem entityRef (id : String) : S.rel (entityRef ctx id : m _) (entityRef ctx id) :=
  S.entityRef_of_sameData (.refl ctx) (S.comparable (.refl ctx)) id

theorem relationship (id name : String) :
    S.rel (relationship ctx id name : m _) (relationship ctx id name) :=
  S.relationship_of_sameData (.refl ctx) (S.comparable (.refl ctx)) id name

theorem entityMember {own : String → m (Option Value)} {own' : String → n (Option Value)}
    (id name : String) (ho : S.rel (own name) (own' name)) :
    S.rel (entityMember own ctx id name) (entityMember own' ctx id name) :=
  S.entityMember_of_sameData (.refl ctx) (S.comparable (.refl ctx)) id name ho

section Members

variable {member : String → String → m (Option Value)}
  {member' : String → String → n (Option Value)} {name : String}

mutual

/-- A read of a field needs nothing from outside; a read of an entity is `member`'s. -/
theorem memberOf (h : S.Comparable ctx ctx') : (v : Value) →
    (∀ id ∈ v.references, S.rel (member id name) (member' id name)) →
    S.rel (memberOf member ctx name v) (memberOf member' ctx' name v)
  | .reference id _, hm => hm id List.mem_cons_self
  | .list _ items, hm => S.bind (membersOf h items hm) fun _ _ => S.pure _
  | .record fields, _ => by
    simp only [Evaluation.memberOf]
    split
    · exact S.pure _
    · exact h.missing _ (.inl rfl)
  | .text _, _ | .number _, _ | .boolean _, _ | .dateTime _, _ | .duration _, _ =>
    h.missing _ (.inr rfl)

theorem membersOf (h : S.Comparable ctx ctx') : (items : List Value) →
    (∀ id ∈ Value.referencesOfItems items, S.rel (member id name) (member' id name)) →
    S.rel (membersOf member ctx name items) (membersOf member' ctx' name items)
  | [], _ => S.pure []
  | v :: rest, hm =>
    S.bind (memberOf h v fun id hid => hm id (List.mem_append_left _ hid)) fun _ _ =>
      S.bind (membersOf h rest fun id hid => hm id (List.mem_append_right _ hid)) fun _ _ =>
        S.pure _

end

end Members

theorem mapM [LawfulMonad m] [LawfulMonad n] {α β : Type} {f : α → m β} {g : α → n β} {xs : List α}
    (h : ∀ x ∈ xs, S.rel (f x) (g x)) : S.rel (xs.mapM f) (xs.mapM g) := by
  induction xs with
  | nil =>
    rw [List.mapM_nil, List.mapM_nil]
    exact S.pure []
  | cons x rest ih =>
    rw [List.mapM_cons, List.mapM_cons]
    refine S.bind (h x List.mem_cons_self) fun y _ => ?_
    refine S.bind (ih fun z hz => h z (List.mem_cons_of_mem _ hz)) fun ys _ => ?_
    exact S.pure _

/-! ### Operators and calls -/

variable {ev : Expression → m (Option Value)} {ev' : Expression → n (Option Value)}

theorem binary (op : BinaryOp) {left right : Expression} (hl : S.rel (ev left) (ev' left))
    (hr : S.rel (ev right) (ev' right)) :
    S.rel (binary ev op left right) (binary ev' op left right) := by
  unfold Evaluation.binary
  refine S.bind hl fun l _ => ?_
  cases op with
  | and =>
    dsimp only
    split
    · exact hr
    · exact S.pure l
  | or =>
    dsimp only
    split
    · exact S.pure l
    · exact hr
  | _ => exact S.bind hr fun r _ => S.liftExcept (strictBinary_settled _ l r)

theorem conditional {args : List Expression} (h : ∀ e ∈ args, S.rel (ev e) (ev' e)) :
    S.rel (conditional ev args) (conditional ev' args) := by
  unfold Evaluation.conditional
  split
  · refine S.bind (h _ (by simp)) fun c _ => ?_
    split
    · exact S.bind (h _ (by simp)) fun v _ => S.liftExcept (Function.invoke_settled _ _)
    · exact S.bind (h _ (by simp)) fun v _ => S.liftExcept (Function.invoke_settled _ _)
  · exact S.throw _ id

variable [LawfulMonad m] [LawfulMonad n]

theorem call (name : String) {args : List Expression} (h : ∀ e ∈ args, S.rel (ev e) (ev' e)) :
    S.rel (call ev name args) (call ev' name args) := by
  unfold Evaluation.call
  split
  · exact S.throw _ id
  · exact S.conditional h
  · exact S.bind (S.mapM h) fun values _ => S.liftExcept (Function.invoke_settled _ values)

/-! ### Formulas -/

/-- Related answers below a formula and related reads give related answers of the formula. -/
theorem level_of_comparable (h : S.Comparable ctx ctx') {reads : Reads m} {reads' : Reads n}
    (e : Expression)
    (hc : ∀ c ∈ e.children, S.rel (ev c) (ev' c))
    (ho : ∀ name, e = .selfProperty name → S.rel (reads.own name) (reads'.own name))
    (he : ∀ id, e = .entityRef id → S.rel (reads.entity id) (reads'.entity id))
    (hm : ∀ o name, e = .member o name → ∀ v, S.gives (ev' o) (some v) → ∀ id ∈ v.references,
      S.rel (reads.member id name) (reads'.member id name)) :
    S.rel (level ev reads ctx e) (level ev' reads' ctx' e) := by
  cases e with
  | literal value => exact S.pure _
  | selfProperty name => exact ho name rfl
  | selfEntity =>
    simp only [Evaluation.level]
    rw [h.id, h.type]
    exact S.pure _
  | entityRef id => exact he id rfl
  | member o name =>
    simp only [Evaluation.level]
    refine S.bind (hc o List.mem_cons_self) fun a ha => ?_
    cases a with
    | none => exact S.pure none
    | some v => exact S.memberOf h v (hm o name rfl v ha)
  | unary op operand =>
    exact S.bind (hc operand List.mem_cons_self) fun v _ => S.liftExcept (unary_settled op v)
  | binary op left right =>
    exact S.binary op (hc left List.mem_cons_self)
      (hc right (List.mem_cons_of_mem _ List.mem_cons_self))
  | call name args => exact S.call name hc
  | list items => exact S.bind (S.mapM hc) fun values _ => S.pure _
  | record fields =>
    refine S.bind (S.mapM fun f hf => ?_) fun values _ => S.pure _
    exact S.bind (hc f.2 (List.mem_map_of_mem hf)) fun v _ => S.pure _

/-- The same for contexts of one entity with the same strictness. -/
theorem level (h : ctx.Alike ctx') {reads : Reads m} {reads' : Reads n} (e : Expression)
    (hc : ∀ c ∈ e.children, S.rel (ev c) (ev' c))
    (ho : ∀ name, e = .selfProperty name → S.rel (reads.own name) (reads'.own name))
    (he : ∀ id, e = .entityRef id → S.rel (reads.entity id) (reads'.entity id))
    (hm : ∀ o name, e = .member o name → ∀ v, S.gives (ev' o) (some v) → ∀ id ∈ v.references,
      S.rel (reads.member id name) (reads'.member id name)) :
    S.rel (level ev reads ctx e) (level ev' reads' ctx' e) :=
  S.level_of_comparable (S.comparable h) e hc ho he hm

/-- Two evaluators over contexts that hold the same. -/
theorem level_of_sameData (hd : ctx.SameData ctx') (h : S.Comparable ctx ctx')
    {own : String → m (Option Value)} {own' : String → n (Option Value)} (e : Expression)
    (hc : ∀ c ∈ e.children, S.rel (ev c) (ev' c)) (ho : ∀ name, S.rel (own name) (own' name)) :
    S.rel (Evaluation.level ev (contextReads own ctx) ctx e)
      (Evaluation.level ev' (contextReads own' ctx') ctx' e) :=
  S.level_of_comparable h e hc (fun name _ => ho name) (fun id _ => S.entityRef_of_sameData hd h id)
    fun _ name _ _ _ id _ => S.entityMember_of_sameData hd h id name (ho name)

/-- Two evaluators over one context that differ only in how they read own properties. -/
theorem level_of_own (ctx : EvaluationContext) {own : String → m (Option Value)}
    {own' : String → n (Option Value)} (e : Expression) (hc : ∀ c ∈ e.children, S.rel (ev c) (ev' c))
    (ho : ∀ name, S.rel (own name) (own' name)) :
    S.rel (Evaluation.level ev (contextReads own ctx) ctx e)
      (Evaluation.level ev' (contextReads own' ctx) ctx e) :=
  S.level_of_sameData (.refl ctx) (S.comparable (.refl ctx)) e hc ho

end Simulation

/-- Computations that end alike. -/
def Simulation.equality (m : Type → Type) [Monad m] [MonadExceptOf EvalError m] : Simulation m m where
  rel x y := x = y
  gives _ _ := True
  pure _ := rfl
  throw _ _ := rfl
  bind {α β x y f g} hx hf := by
    rw [hx]
    exact congrArg _ (funext fun a => hf a trivial)

end EntityFormulas
