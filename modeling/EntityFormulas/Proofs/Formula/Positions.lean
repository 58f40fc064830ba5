/-
  EntityFormulas/Proofs/Formula/Positions.lean
  ============================================
  **Positions only serve the reports.**

  The position of a token never decides what is read: from the same tokens at
  other positions the same formula is read, or reading fails with the same fault,
  reported at another position (`ofTokens_congr`).

  `Agrees p p'` says this of two parsers, which may hold positions themselves,
  and every parser agrees with itself.
-/
import EntityFormulas.Proofs.Formula.Reading

namespace EntityFormulas

/-- The same tokens lie before two cursors, at whatever positions, at the same depth. -/
structure Cursor.Matches (s s' : Cursor) : Prop where
  word : s.word = s'.word
  depth : s.depth = s'.depth

namespace Parse

/-- The same result, or the same fault. -/
inductive SameEnd {α : Type} :
    Except ParseError (α × Cursor) → Except ParseError (α × Cursor) → Prop
  | ok {a : α} {s s' : Cursor} (after : s.Matches s') : SameEnd (.ok (a, s)) (.ok (a, s'))
  | error {position position' : Nat} {fault : ParseFault} :
      SameEnd (.error ⟨position, fault⟩) (.error ⟨position', fault⟩)

/-- Two parsers that do the same wherever the tokens are placed. -/
def Agrees {α : Type} (p p' : Parse α) : Prop :=
  ∀ s s', s.Matches s' → SameEnd (p.run s) (p'.run s')

namespace Agrees

variable {α β : Type} {p p' q q' : Parse α} {f f' : α → Parse β}

theorem pure (a : α) : Agrees (pure a) (pure a) := fun _ _ hs => .ok hs

theorem failAt (position position' : Nat) (fault : ParseFault) :
    Agrees (failAt position fault : Parse α) (failAt position' fault) := fun _ _ _ => .error

theorem bind (hp : Agrees p p') (hf : ∀ a, Agrees (f a) (f' a)) : Agrees (p >>= f) (p' >>= f') := by
  intro s s' hs
  have h := hp s s' hs
  rw [bind_run, bind_run]
  generalize p.run s = r at h ⊢
  generalize p'.run s' = r' at h ⊢
  cases h with
  | ok after => exact hf _ _ _ after
  | error => exact .error

theorem current {f f' : PlacedToken → Parse β}
    (hf : ∀ t t' : PlacedToken, t.token = t'.token → Agrees (f t) (f' t')) :
    Agrees (current >>= f) (current >>= f') := by
  intro s s' hs
  rw [bind_run, bind_run, current_run, current_run]
  refine hf _ _ ?_ s s' hs
  rw [token_headD, token_headD]
  unfold Cursor.head
  rw [hs.word]

theorem peek : Agrees peek peek :=
  current fun t t' h => by
    rw [h]
    exact pure _

theorem advance : Agrees advance advance := by
  intro s s' hs
  rw [advance_run, advance_run]
  refine .ok ⟨?_, hs.depth⟩
  have h := congrArg (List.drop 1) hs.word
  unfold Cursor.word at h ⊢
  rwa [← List.map_drop, ← List.map_drop] at h

theorem fail (fault : ParseFault) : Agrees (fail fault : Parse α) (fail fault) :=
  current fun _ _ _ => failAt _ _ _

theorem unexpected (wanted : Expected) :
    Agrees (unexpected wanted : Parse α) (unexpected wanted) :=
  current fun t t' h => by
    rw [h]
    exact failAt _ _ _

theorem ite {c : Prop} [Decidable c] (hp : Agrees p p') (hq : Agrees q q') :
    Agrees (if c then p else q) (if c then p' else q') := by
  split
  · exact hp
  · exact hq

theorem depth {f f' : Nat → Parse β} (hf : ∀ d, Agrees (f d) (f' d)) :
    Agrees (get >>= fun s => f s.depth) (get >>= fun s => f' s.depth) := by
  intro s s' hs
  change SameEnd ((f s.depth).run s) ((f' s'.depth).run s')
  rw [← hs.depth]
  exact hf _ s s' hs

theorem modifyDepth (g : Nat → Nat) :
    Agrees (modify fun s => { s with depth := g s.depth })
      (modify fun s => { s with depth := g s.depth }) :=
  fun _ _ hs => .ok ⟨hs.word, congrArg g hs.depth⟩

theorem nest : Agrees nest nest := depth fun _ => ite (fail _) (modifyDepth (· + 1))

theorem nested (hp : Agrees p p') : Agrees (nested p) (nested p') :=
  bind nest fun _ => bind hp fun a => bind (modifyDepth (· - 1)) fun _ => pure a

theorem keepDepth (hp : Agrees p p') : Agrees (keepDepth p) (keepDepth p') :=
  depth fun d => bind hp fun a => bind (modifyDepth fun _ => d) fun _ => pure a

theorem remaining : Agrees remaining remaining := by
  intro s s' hs
  have h := congrArg List.length hs.word
  unfold Cursor.word at h
  rw [List.length_map, List.length_map] at h
  change SameEnd (.ok (s.tokens.length, s)) (.ok (s'.tokens.length, s'))
  rw [h]
  exact .ok hs

end Agrees

theorem expect_agrees (token : Token) (wanted : Expected) :
    Agrees (expect token wanted) (expect token wanted) :=
  .bind .peek fun _ => .ite .advance (.unexpected _)

/-! ### Chains -/

section Chains

variable {level : Level} {operand : Parse Expression} (h : Agrees operand operand)
include h

theorem operators_agrees (fuel : Nat) (l : Expression) :
    Agrees (operators level operand fuel l) (operators level operand fuel l) := by
  induction fuel generalizing l with
  | zero => exact .fail _
  | succ fuel ih =>
    refine .bind .peek fun t => ?_
    cases level t with
    | none => exact .pure _
    | some op => exact .bind .advance fun _ => .bind .nest fun _ => .bind h fun _ => ih _

theorem chains_agrees (ls : List Level) : Agrees (chains operand ls) (chains operand ls) := by
  induction ls with
  | nil => exact h
  | cons level tighter ih => exact .keepDepth (.bind ih fun l => operators_agrees ih _ l)

end Chains

/-! ### Operands -/

section Operands

variable {element : Parse Expression} (h : Agrees element element)
include h

theorem arguments_agrees (fuel : Nat) : Agrees (arguments element fuel) (arguments element fuel) := by
  induction fuel with
  | zero => exact .unexpected _
  | succ fuel ih =>
    refine .bind h fun e => .bind .peek fun t => ?_
    split
    · exact .bind .advance fun _ => .bind ih fun _ => .pure _
    · exact .bind .advance fun _ => .pure _
    · exact .unexpected _

theorem items_agrees (fuel : Nat) : Agrees (items element fuel) (items element fuel) := by
  induction fuel with
  | zero => exact .unexpected _
  | succ fuel ih =>
    refine .bind .peek fun t => .ite (.bind .advance fun _ => .pure _) ?_
    refine .bind h fun e => .bind .peek fun t => ?_
    split
    · exact .bind .advance fun _ => .bind ih fun _ => .pure _
    · exact .bind .advance fun _ => .pure _
    · exact .unexpected _

omit h in
theorem key_agrees (seen : List String) : Agrees (key seen) (key seen) := by
  refine .current fun t t' ht => ?_
  rw [ht]
  split
  · exact .bind .advance fun _ => .ite (.failAt _ _ _) (.pure _)
  · exact .bind .advance fun _ => .ite (.failAt _ _ _) (.pure _)
  · exact .unexpected _

theorem fields_agrees (fuel : Nat) (seen : List String) :
    Agrees (fields element fuel seen) (fields element fuel seen) := by
  induction fuel generalizing seen with
  | zero => exact .unexpected _
  | succ fuel ih =>
    refine .bind .peek fun t => .ite (.bind .advance fun _ => .pure _) ?_
    refine .bind (key_agrees seen) fun k => .bind (expect_agrees _ _) fun _ => ?_
    refine .bind h fun e => .bind .peek fun t => ?_
    split
    · exact .bind .advance fun _ => .bind (ih _) fun _ => .pure _
    · exact .bind .advance fun _ => .pure _
    · exact .unexpected _

theorem callArguments_agrees : Agrees (callArguments element) (callArguments element) :=
  .bind .peek fun _ => .ite (.bind .advance fun _ => .pure _)
    (.bind .remaining fun k => arguments_agrees h k)

theorem wordForm_agrees (name : String) (position position' : Nat) :
    Agrees (wordForm element name position) (wordForm element name position') := by
  refine .bind .advance fun _ => .ite (.pure _) (.ite (.pure _) (.ite (.pure _) (.ite (.pure _) ?_)))
  refine .bind .peek fun t => .ite (.bind .advance fun _ => ?_) (.failAt _ _ _)
  exact .bind (callArguments_agrees h) fun _ => .pure _

theorem primary_agrees : Agrees (primary element) (primary element) := by
  refine .current fun t t' ht => ?_
  rw [ht]
  split
  · exact .bind .advance fun _ => .pure _
  · exact .bind .advance fun _ => .pure _
  · exact .bind .advance fun _ => .pure _
  · exact .bind .advance fun _ => .pure _
  · refine .bind .advance fun _ => .bind .peek fun t => ?_
    split
    · exact .ite (.unexpected _) (.bind .advance fun _ => .pure _)
    · exact .unexpected _
  · exact .bind .advance fun _ => .bind h fun _ => .bind (expect_agrees _ _) fun _ => .pure _
  · exact .bind .advance fun _ => .bind .remaining fun k =>
      .bind (items_agrees h k) fun _ => .pure _
  · exact .bind .advance fun _ => .bind .remaining fun k =>
      .bind (fields_agrees h k []) fun _ => .pure _
  · exact wordForm_agrees h _ _ _
  · exact .unexpected _

omit h in
theorem members_agrees (fuel : Nat) (o : Expression) : Agrees (members fuel o) (members fuel o) := by
  induction fuel generalizing o with
  | zero => exact .fail _
  | succ fuel ih =>
    refine .bind .peek fun t => .ite ?_ (.pure _)
    refine .bind .advance fun _ => .bind .nest fun _ => .bind .peek fun t => ?_
    split
    · exact .bind .advance fun _ => ih _
    · exact .unexpected _

theorem unary_agrees (fuel : Nat) : Agrees (unary element fuel) (unary element fuel) := by
  induction fuel with
  | zero => exact .fail _
  | succ fuel ih =>
    refine .nested (.bind .peek fun t => ?_)
    split
    · exact .bind .advance fun _ => .bind ih fun _ => .pure _
    · exact .bind .advance fun _ => .bind ih fun _ => .pure _
    · exact .keepDepth (.bind (primary_agrees h) fun o => members_agrees _ o)

end Operands

/-! ### Formulas -/

theorem expression_agrees (fuel : Nat) : Agrees (expression fuel) (expression fuel) := by
  induction fuel with
  | zero => exact .fail _
  | succ fuel ih => exact chains_agrees (unary_agrees ih _) _

theorem whole_agrees : Agrees whole whole := by
  refine .bind (expression_agrees _) fun e => .current fun t t' ht => ?_
  rw [ht]
  exact .ite (.pure _) (.failAt _ _ _)

end Parse

/-- What is read from tokens depends on the tokens alone. -/
theorem Expression.ofTokens_congr {ts ts' : List PlacedToken}
    (h : ts.map PlacedToken.token = ts'.map PlacedToken.token) :
    (∃ e, Expression.ofTokens ts = .ok e ∧ Expression.ofTokens ts' = .ok e) ∨
      ∃ position position' fault, Expression.ofTokens ts = .error ⟨position, fault⟩ ∧
        Expression.ofTokens ts' = .error ⟨position', fault⟩ := by
  have hrun := Parse.whole_agrees { tokens := ts } { tokens := ts' } ⟨h, rfl⟩
  unfold Expression.ofTokens
  generalize Parse.whole.run { tokens := ts } = r at hrun ⊢
  generalize Parse.whole.run { tokens := ts' } = r' at hrun ⊢
  cases hrun with
  | ok after => exact .inl ⟨_, rfl, rfl⟩
  | error => exact .inr ⟨_, _, _, rfl, rfl⟩

end EntityFormulas
