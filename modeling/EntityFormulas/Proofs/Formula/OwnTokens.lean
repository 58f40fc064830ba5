/-
  EntityFormulas/Proofs/Formula/OwnTokens.lean
  ============================================
  **Elements of a literal do not share the levels of nesting.**

  The tokens of an element are those up to the comma or the closing bracket that no
  bracket of the element matches (`own`).  A parser owns its tokens if it does in front
  of any others what it does in front of the end of input: it ends in the same way, at
  the same place and depth, or is rejected, as nested too deeply here exactly if it is
  there (`Owns`).  On the way to the operands of an element the number of open brackets
  says how far its tokens reach.

  With the depth, which every parser leaves as it found it, this makes the rejection of
  an element a matter of its own tokens and of the depth at which the literal begins
  (`siblings_share_no_level`).
-/
import EntityFormulas.Proofs.Formula.Literals

namespace EntityFormulas

/-! ### The tokens of an element -/

/-- The number of open brackets after a token, with `k` open before it; none if the token ends what
    began with no bracket open. -/
def bracketsAfter (k : Nat) : Token → Option Nat
  | .leftParen | .leftBracket | .leftBrace => some (k + 1)
  | .rightParen | .rightBracket | .rightBrace =>
    match k with
    | 0 => none
    | k + 1 => some k
  | .comma =>
    match k with
    | 0 => none
    | k + 1 => some (k + 1)
  | .eof => none
  | _ => some k

/-- The tokens up to the one that ends what began when `k` brackets were open. -/
def own (k : Nat) : List Token → List Token
  | [] => []
  | t :: ts =>
    match bracketsAfter k t with
    | none => []
    | some k' => t :: own k' ts

theorem bracketsAfter_eq_none {k : Nat} {t : Token} (h : bracketsAfter k t = none) :
    t = .comma ∨ t = .rightParen ∨ t = .rightBracket ∨ t = .rightBrace ∨ t = .eof := by
  cases t with
  | comma | rightParen | rightBracket | rightBrace | eof => simp
  | _ => exact nomatch h

/-- With an open bracket only the end of input ends anything. -/
theorem eq_eof_of_open {k : Nat} {t : Token} (h : bracketsAfter (k + 1) t = none) : t = .eof := by
  cases t with
  | eof => rfl
  | _ => exact nomatch h

/-- Operators are among the tokens of what they are in. -/
theorem bracketsAfter_operator {k n : Nat} {t : Token} {op : BinaryOp}
    (h : Grammar.operator? t = some (n, op)) : bracketsAfter k t = some k := by
  cases t with
  | orOr | andAnd | eqEq | neq | lt | lte | gt | gte | plus | minus | star | slash => rfl
  | _ => exact nomatch h

/-- Tokens and then the end of input, wherever they are placed. -/
def Cursor.atTokens (ts : List Token) (depth : Nat) : Cursor where
  tokens := (ts ++ [Token.eof]).map fun t => ⟨t, 0⟩
  depth := depth

/-- The cursor in front of nothing but the tokens that belong to what is being read. -/
def Cursor.alone (k : Nat) (s : Cursor) : Cursor := .atTokens (own k s.word) s.depth

namespace Cursor

theorem atTokens_word (ts : List Token) (depth : Nat) : (atTokens ts depth).word = ts ++ [.eof] := by
  unfold word atTokens
  rw [List.map_map]
  exact List.map_id _

theorem alone_head {k : Nat} {s : Cursor} :
    (s.alone k).head = if bracketsAfter k s.head = none then .eof else s.head := by
  unfold head alone
  rw [atTokens_word]
  cases s.word with
  | nil => rfl
  | cons t ts =>
    rw [own, List.headD_cons]
    cases hk : bracketsAfter k t with
    | none => rfl
    | some k' => rfl

/-- The token that is read next, if it ends nothing. -/
theorem word_eq_cons {k k' : Nat} {s : Cursor} (h : bracketsAfter k s.head = some k') :
    s.word = s.head :: s.next.word ∧ own k s.word = s.head :: own k' s.next.word := by
  have hne : s.head ≠ .eof := by
    intro he
    rw [he] at h
    exact nomatch h
  have hword := eq_cons_of_headD (show s.word.headD .eof = s.head from rfl) hne
  rw [next_word, List.drop_one]
  refine ⟨hword, ?_⟩
  rw [hword, own, h]
  rfl

theorem alone_next {k k' : Nat} {s : Cursor} (h : bracketsAfter k s.head = some k') :
    (s.alone k).next = s.next.alone k' := by
  unfold alone
  rw [(word_eq_cons h).2]
  rfl

/-- From one cursor to another only own tokens are taken; `k` and `k'` brackets are open there. -/
def TakesOwn (k k' : Nat) (s s' : Cursor) : Prop :=
  ∃ us, s.word = us ++ s'.word ∧ own k s.word = us ++ own k' s'.word

theorem TakesOwn.refl (k : Nat) (s : Cursor) : TakesOwn k k s s := ⟨[], rfl, rfl⟩

theorem TakesOwn.trans {i j k : Nat} {s s' s'' : Cursor} (h : TakesOwn i j s s')
    (h' : TakesOwn j k s' s'') : TakesOwn i k s s'' := by
  obtain ⟨us, hword, hown⟩ := h
  obtain ⟨vs, hword', hown'⟩ := h'
  refine ⟨us ++ vs, ?_, ?_⟩
  · rw [hword, hword', List.append_assoc]
  · rw [hown, hown', List.append_assoc]

theorem TakesOwn.next {k k' : Nat} {s : Cursor} (h : bracketsAfter k s.head = some k') :
    TakesOwn k k' s s.next :=
  ⟨[s.head], (word_eq_cons h).1, (word_eq_cons h).2⟩

/-- So deep at least, and in front of the end of input. -/
structure Ready (depth : Nat) (s : Cursor) : Prop where
  deep : depth ≤ s.depth
  eof : .eof ∈ s.word

end Cursor

namespace Parse

/-! ### What a parser owns -/

/-- Where reading stands: at least so deep, with so many open brackets. -/
structure Stand where
  depth : Nat
  brackets : Nat

/-- From a cursor the same end after own tokens, with and without other tokens behind, or a rejection
    that is one for the depth in both cases or in neither. -/
inductive EndsAlike {α : Type} (x y : Stand) (s : Cursor) :
    Except ParseError (α × Cursor) → Except ParseError (α × Cursor) → Prop
  | ok {a : α} {s' : Cursor} (ready : s'.Ready y.depth)
      (taken : s.TakesOwn x.brackets y.brackets s') :
      EndsAlike x y s (.ok (a, s')) (.ok (a, s'.alone y.brackets))
  | error {e e' : ParseError} (deep : e.fault = .nestedTooDeeply ↔ e'.fault = .nestedTooDeeply) :
      EndsAlike x y s (.error e) (.error e')

/-- The second parser does in front of the own tokens alone what the first one does, whatever tokens
    come behind. -/
def Owns {α : Type} (x y : Stand) (p q : Parse α) : Prop :=
  ∀ s : Cursor, s.Ready x.depth → EndsAlike x y s (p.run s) (q.run (s.alone x.brackets))

/-- The same of parsers that start at a token. -/
def OwnsAt {α : Type} (t : Token) (x y : Stand) (p q : Parse α) : Prop :=
  ∀ s : Cursor, s.Ready x.depth → s.head = t → EndsAlike x y s (p.run s) (q.run (s.alone x.brackets))

/-- An end that is alike after own tokens have been taken. -/
theorem EndsAlike.after {α : Type} {x y z : Stand} {s s' : Cursor}
    {r r' : Except ParseError (α × Cursor)} (h : EndsAlike y z s' r r')
    (taken : s.TakesOwn x.brackets y.brackets s') : EndsAlike x z s r r' := by
  cases h with
  | ok ready taken' => exact .ok ready (taken.trans taken')
  | error deep => exact .error deep

namespace Owns

variable {α β : Type} {x y z : Stand} {p p' : Parse α} {f f' : α → Parse β} {n k : Nat}

theorem startingAt (h : Owns x y p p') (t : Token) : OwnsAt t x y p p' := fun s hs _ => h s hs

theorem pure (a : α) : Owns x x (pure a) (pure a) :=
  fun s hs => .ok hs (.refl _ s)

theorem failAt {fault fault' : ParseFault} (h : fault ≠ .nestedTooDeeply)
    (h' : fault' ≠ .nestedTooDeeply) (position position' : Nat) :
    Owns x y (failAt position fault : Parse α) (failAt position' fault') :=
  fun _ _ => .error (iff_of_false h h')

theorem unexpected (wanted : Expected) :
    Owns x y (unexpected wanted : Parse α) (unexpected wanted) :=
  fun _ _ => .error (iff_of_false nofun nofun)

theorem deep : Owns x y (fail .nestedTooDeeply : Parse α) (fail .nestedTooDeeply) :=
  fun _ _ => .error Iff.rfl

theorem bind (hp : Owns x y p p') (hf : ∀ a, Owns y z (f a) (f' a)) :
    Owns x z (p >>= f) (p' >>= f') := by
  intro s hs
  have h := hp s hs
  rw [bind_run, bind_run]
  generalize p.run s = r at h ⊢
  generalize p'.run (s.alone x.brackets) = r' at h ⊢
  cases h with
  | ok ready taken => exact (hf _ _ ready).after taken
  | error deep => exact .error deep

/-- A choice by the token that is read next, which is the end of input where the tokens end. -/
theorem current {f f' : PlacedToken → Parse β}
    (hf : ∀ t t' : PlacedToken, t'.token = t.token → OwnsAt t.token x y (f t) (f' t'))
    (hend : ∀ t t' : PlacedToken, bracketsAfter x.brackets t.token = none → t'.token = .eof →
      OwnsAt t.token x y (f t) (f' t')) : Owns x y (current >>= f) (current >>= f') := by
  intro s hs
  rw [bind_run, bind_run, current_run, current_run]
  have htoken := token_headD s
  have htoken' := (token_headD (s.alone x.brackets)).trans Cursor.alone_head
  by_cases h : bracketsAfter x.brackets s.head = none
  · rw [if_pos h] at htoken'
    exact hend _ _ (htoken ▸ h) htoken' s hs htoken.symm
  · rw [if_neg h, ← htoken] at htoken'
    exact hf _ _ htoken' s hs htoken.symm

theorem peek {f f' : Token → Parse β} (hf : ∀ t, OwnsAt t x y (f t) (f' t))
    (hend : ∀ t, bracketsAfter x.brackets t = none → OwnsAt t x y (f t) (f' .eof)) :
    Owns x y (peek >>= f) (peek >>= f') := by
  have h : Owns x y (Parse.current >>= fun t => f t.token) (Parse.current >>= fun t => f' t.token) := by
    refine current (fun t t' ht => ?_) fun t t' ht ht' => ?_
    · rw [ht]
      exact hf t.token
    · rw [ht']
      exact hend t.token ht
  exact h

/-- Inside of brackets both see the same token. -/
theorem peek_inside {f f' : Token → Parse β} (hf : ∀ t, OwnsAt t ⟨n, k + 1⟩ y (f t) (f' t)) :
    Owns ⟨n, k + 1⟩ y (Parse.peek >>= f) (Parse.peek >>= f') :=
  peek hf fun t ht => by
    rw [eq_eof_of_open ht]
    exact hf .eof

theorem current_inside {f f' : PlacedToken → Parse β}
    (hf : ∀ t t' : PlacedToken, t'.token = t.token → OwnsAt t.token ⟨n, k + 1⟩ y (f t) (f' t')) :
    Owns ⟨n, k + 1⟩ y (Parse.current >>= f) (Parse.current >>= f') :=
  current hf fun t t' ht ht' => hf t t' (ht'.trans (eq_eof_of_open ht).symm)

theorem mono {m : Nat} (h : Owns x ⟨n, k⟩ p p') (hm : m ≤ n) : Owns x ⟨m, k⟩ p p' := by
  intro s hs
  have hends := h s hs
  generalize p.run s = r at hends ⊢
  generalize p'.run (s.alone x.brackets) = r' at hends ⊢
  cases hends with
  | ok ready taken => exact .ok ⟨Nat.le_trans hm ready.deep, ready.eof⟩ taken
  | error deep => exact .error deep

theorem ite {c : Prop} [Decidable c] {q q' : Parse α} (hp : Owns x y p p') (hq : Owns x y q q') :
    Owns x y (if c then p else q) (if c then p' else q') := by
  split
  · exact hp
  · exact hq

theorem nest : Owns ⟨n, k⟩ ⟨n + 1, k⟩ nest nest := by
  intro s hs
  rw [nest_run, nest_run]
  change EndsAlike _ _ _ _ (if maxNesting ≤ s.depth then _ else _)
  split
  · exact .error Iff.rfl
  · exact .ok ⟨Nat.succ_le_succ hs.deep, hs.eof⟩ (.refl k s)

theorem leave : Owns ⟨n + 1, k⟩ ⟨n, k⟩ leave leave :=
  fun s hs => .ok ⟨Nat.le_sub_one_of_lt hs.deep, hs.eof⟩ (.refl k s)

theorem nested {k' : Nat} (hp : Owns ⟨n + 1, k⟩ ⟨n + 1, k'⟩ p p') :
    Owns ⟨n, k⟩ ⟨n, k'⟩ (nested p) (nested p') :=
  bind nest fun _ => bind hp fun a => bind leave fun _ => pure a

theorem keepDepth {k' : Nat} (hp : Owns ⟨n, k⟩ ⟨n, k'⟩ p p') :
    Owns ⟨n, k⟩ ⟨n, k'⟩ (keepDepth p) (keepDepth p') := by
  intro s hs
  have h := hp s hs
  have hrun (p : Parse α) (s : Cursor) : (Parse.keepDepth p).run s =
      (p.run s).bind fun r => .ok (r.1, { r.2 with depth := s.depth }) := rfl
  rw [hrun, hrun]
  generalize p.run s = r at h ⊢
  generalize p'.run (s.alone k) = r' at h ⊢
  cases h with
  | ok ready taken => exact .ok ⟨hs.deep, ready.eof⟩ taken
  | error deep => exact .error deep

end Owns

namespace OwnsAt

variable {β : Type} {t : Token} {y : Stand} {n k k' : Nat}

theorem advance {f f' : Unit → Parse β} (ht : bracketsAfter k t = some k')
    (hf : Owns ⟨n, k'⟩ y (f ()) (f' ())) :
    OwnsAt t ⟨n, k⟩ y (advance >>= f) (advance >>= f') := by
  intro s hs hhead
  subst hhead
  have hne : s.head ≠ .eof := by
    intro he
    rw [he] at ht
    exact nomatch ht
  have hnext := hf s.next ⟨hs.deep, (next_rest rfl hne hs.eof).1⟩
  rw [← Cursor.alone_next ht] at hnext
  exact hnext.after (.next ht)

theorem ite {c : Prop} [Decidable c] {x : Stand} {p p' q q' : Parse β}
    (hp : c → OwnsAt t x y p p') (hq : ¬c → OwnsAt t x y q q') :
    OwnsAt t x y (if c then p else q) (if c then p' else q') := by
  split
  · exact hp ‹_›
  · exact hq ‹_›

end OwnsAt

/-! ### Tokens one by one -/

section Tokens

variable {n k k' : Nat}

theorem advance_ownsAt {t : Token} (ht : bracketsAfter k t = some k') :
    OwnsAt t ⟨n, k⟩ ⟨n, k'⟩ advance advance := by
  have h : OwnsAt t ⟨n, k⟩ ⟨n, k'⟩ (advance >>= pure) (advance >>= pure) := .advance ht (.pure ())
  rwa [bind_pure] at h

theorem expect_owns {token : Token} (h : bracketsAfter k token = some k') (wanted : Expected) :
    Owns ⟨n, k⟩ ⟨n, k'⟩ (expect token wanted) (expect token wanted) := by
  have hne {t : Token} (ht : bracketsAfter k t = none) : t ≠ token := by
    rintro rfl
    exact nomatch ht.symm.trans h
  refine .peek (fun t => .ite (fun ht => ?_) fun _ => (Owns.unexpected wanted).startingAt t) fun t ht => ?_
  · subst ht
    exact advance_ownsAt h
  · rw [if_neg (hne ht), if_neg (hne (t := .eof) rfl)]
    exact (Owns.unexpected wanted).startingAt t

theorem key_owns (seen : List String) : Owns ⟨n, k + 1⟩ ⟨n, k + 1⟩ (key seen) (key seen) := by
  refine .current_inside fun t t' ht' => ?_
  rw [ht']
  have hread {k' : String} : Owns ⟨n, k + 1⟩ ⟨n, k + 1⟩
      (if k' ∈ seen then failAt t.position (.repeatedKey k') else return k')
      (if k' ∈ seen then failAt t'.position (.repeatedKey k') else return k') :=
    .ite (.failAt (by nofun) (by nofun) _ _) (.pure _)
  split
  · rename_i ht
    rw [ht]
    exact .advance rfl hread
  · rename_i ht
    rw [ht]
    exact .advance rfl hread
  · exact (Owns.unexpected _).startingAt _

end Tokens

/-! ### Chains -/

section Chains

open Grammar

variable {n k i : Nat} {operand operand' : Parse Expression}

theorem operators_owns {level : Level} (hlevel : ∀ t op, level t = some op → bracketsAfter k t = some k)
    (h : Owns ⟨n, k⟩ ⟨n, k⟩ operand operand') (fuel : Nat) (l : Expression) :
    Owns ⟨n, k⟩ ⟨n, k⟩ (operators level operand fuel l) (operators level operand' fuel l) := by
  have hnone {t : Token} (ht : bracketsAfter k t = none) : level t = none := by
    rw [Option.eq_none_iff_forall_ne_some]
    intro op hop
    exact nomatch ht.symm.trans (hlevel t op hop)
  induction fuel generalizing l with
  | zero => exact .deep
  | succ fuel ih =>
    refine .peek (fun t => ?_) fun t ht => ?_
    · cases hop : level t with
      | none => exact (Owns.pure l).startingAt t
      | some op =>
        refine .advance (hlevel t op hop) (.bind (Owns.nest.mono (Nat.le_succ n)) fun _ => ?_)
        exact .bind h fun r => ih _
    · rw [hnone ht, hnone (t := .eof) rfl]
      exact (Owns.pure l).startingAt t

theorem chains_owns {j : Nat} (hi : i + j = 6) (h : Owns ⟨n, k⟩ ⟨n, k⟩ operand operand') :
    Owns ⟨n, k⟩ ⟨n, k⟩ (chains operand (levels.drop i)) (chains operand' (levels.drop i)) := by
  induction j generalizing i with
  | zero =>
    obtain rfl : i = 6 := hi
    exact h
  | succ j ih =>
    obtain ⟨level, hdrop, hlevel⟩ := levels_drop (show i < 6 by omega)
    rw [hdrop]
    refine .keepDepth (.bind (ih (by omega)) fun l => ?_)
    exact operators_owns (fun t op hop => bracketsAfter_operator ((hlevel t op).1 hop)) (ih (by omega)) _ l

end Chains

/-! ### Literals -/

namespace Listing

variable {σ γ : Type} {l : Listing σ γ} {x : σ} {n k : Nat} {element element' : Parse Expression}

/-- What comes before an element is inside of the brackets that the closing token ends. -/
structure Bracketed (l : Listing σ γ) : Prop where
  lead : ∀ x n k, Owns ⟨n, k + 1⟩ ⟨n, k + 1⟩ (l.lead x) (l.lead x)
  close : ∀ k, bracketsAfter (k + 1) l.close = some k

theorem list_bracketed : list.Bracketed := ⟨fun _ _ _ => .pure _, fun _ => rfl⟩

theorem call_bracketed : call.Bracketed := ⟨fun _ _ _ => .pure _, fun _ => rfl⟩

theorem record_bracketed : record.Bracketed where
  lead seen _ _ := .bind (key_owns seen) fun _ => .bind (expect_owns rfl _) fun _ => .pure _
  close _ := rfl

variable (hl : l.Bracketed) (h : Owns ⟨n, k + 1⟩ ⟨n, k + 1⟩ element element')
include hl h

theorem series_owns (fuel : Nat) :
    Owns ⟨n, k + 1⟩ ⟨n, k⟩ (l.series element fuel x) (l.series element' fuel x) := by
  induction fuel generalizing x with
  | zero => exact .unexpected _
  | succ fuel ih =>
    refine .peek_inside fun t => .ite (fun ht => ?_) fun _ => Owns.startingAt ?_ t
    · rw [ht.2]
      exact .advance (hl.close k) (.pure _)
    · refine .bind (hl.lead x n k) fun r => .bind h fun e => .peek_inside fun t => ?_
      refine .ite (fun ht => ?_) fun _ => .ite (fun ht => ?_) fun _ => (Owns.unexpected _).startingAt t
      · rw [ht]
        exact .advance rfl (.bind ih fun _ => .pure _)
      · rw [ht]
        exact .advance (hl.close k) (.pure _)

/-- The tokens bound the fuel, and there is enough of it for both. -/
theorem read_owns {P P' : List Token → Expression → Prop} (hregular : l.Regular) (ht : Takes element P)
    (ht' : Takes element' P') : Owns ⟨n, k + 1⟩ ⟨n, k⟩ (l.read element) (l.read element') := by
  intro s hs
  have heof : .eof ∈ (s.alone (k + 1)).word := by
    rw [Cursor.alone, Cursor.atTokens_word]
    exact List.mem_append_right _ List.mem_cons_self
  have hlength (s : Cursor) : s.word.length = s.tokens.length := List.length_map _
  let fuel := max s.tokens.length (s.alone (k + 1)).tokens.length
  have hleft := series_enough (x := l.init) hregular ht hs.eof (hlength s).le
    (show s.tokens.length ≤ fuel from Nat.le_max_left _ _)
  have hright := series_enough (x := l.init) hregular ht' heof (hlength _).le
    (show (s.alone (k + 1)).tokens.length ≤ fuel from Nat.le_max_right _ _)
  have hends := series_owns (x := l.init) hl h fuel s hs
  change EndsAlike _ _ _ ((l.series element s.tokens.length l.init).run s)
    ((l.series element' (s.alone (k + 1)).tokens.length l.init).run (s.alone (k + 1)))
  rw [← hleft, ← hright]
  exact hends

end Listing

/-! ### Operands -/

section Operands

variable {n k : Nat} {element element' : Parse Expression} {P P' : List Token → Expression → Prop}

theorem members_owns (fuel : Nat) (o : Expression) :
    Owns ⟨n, k⟩ ⟨n, k⟩ (members fuel o) (members fuel o) := by
  induction fuel generalizing o with
  | zero => exact .deep
  | succ fuel ih =>
    refine .peek (fun t => .ite (fun ht => ?_) fun _ => (Owns.pure o).startingAt t) fun t ht => ?_
    · subst ht
      refine .advance rfl (.bind (Owns.nest.mono (Nat.le_succ n)) fun _ => ?_)
      refine .peek (fun t => ?_) fun t ht => ?_
      · split
        · exact .advance rfl (ih _)
        · exact (Owns.unexpected _).startingAt _
      · rcases bracketsAfter_eq_none ht with rfl | rfl | rfl | rfl | rfl <;>
          exact (Owns.unexpected _).startingAt _
    · rcases bracketsAfter_eq_none ht with rfl | rfl | rfl | rfl | rfl <;>
        exact (Owns.pure o).startingAt _

section Primary

variable (h : ∀ k, Owns ⟨n, k⟩ ⟨n, k⟩ element element') (ht : Takes element P)
  (ht' : Takes element' P')
include h ht ht'

theorem wordForm_owns (name : String) (position position' : Nat) :
    OwnsAt (.word name) ⟨n, k⟩ ⟨n, k⟩ (wordForm element name position)
      (wordForm element' name position') := by
  refine .advance rfl (.ite (.pure _) (.ite (.pure _) (.ite (.pure _) (.ite (.pure _) ?_))))
  have hbare (t : Token) : OwnsAt t ⟨n, k⟩ ⟨n, k⟩
      (failAt position (.bareWord name) : Parse Expression) (failAt position' (.bareWord name)) :=
    Owns.startingAt (.failAt (by nofun) (by nofun) _ _) t
  refine .peek (fun t => .ite (fun hopen => ?_) fun _ => hbare t) fun t hend => ?_
  · subst hopen
    rw [callArguments_eq, callArguments_eq]
    refine .advance rfl (.bind ?_ fun _ => .pure _)
    exact Listing.read_owns Listing.call_bracketed (h (k + 1)) Listing.call_regular ht ht'
  · rcases bracketsAfter_eq_none hend with rfl | rfl | rfl | rfl | rfl <;> exact hbare _

theorem primary_owns : Owns ⟨n, k⟩ ⟨n, k⟩ (primary element) (primary element') := by
  refine .current (fun t t' hsame => ?_) fun t t' hend hend' => ?_
  · rw [hsame]
    split
    · rename_i hcase
      rw [hcase]
      exact .advance rfl (.pure _)
    · rename_i hcase
      rw [hcase]
      exact .advance rfl (.pure _)
    · rename_i hcase
      rw [hcase]
      exact .advance rfl (.pure _)
    · rename_i hcase
      rw [hcase]
      exact .advance rfl (.pure _)
    · rename_i hcase
      rw [hcase]
      refine .advance rfl (.peek (fun t => ?_) fun t hend => ?_)
      · split
        · exact .ite (fun _ => (Owns.unexpected _).startingAt _) fun _ => .advance rfl (.pure _)
        · exact (Owns.unexpected _).startingAt _
      · rcases bracketsAfter_eq_none hend with rfl | rfl | rfl | rfl | rfl <;>
          exact (Owns.unexpected _).startingAt _
    · rename_i hcase
      rw [hcase]
      exact .advance rfl (.bind (h (k + 1)) fun _ => .bind (expect_owns rfl _) fun _ => .pure _)
    · rename_i hcase
      rw [hcase]
      simp only [items_eq]
      refine .advance rfl (.bind (p := Listing.list.read element) ?_ fun _ => .pure _)
      exact Listing.read_owns Listing.list_bracketed (h (k + 1)) Listing.list_regular ht ht'
    · rename_i hcase
      rw [hcase]
      simp only [fields_eq]
      refine .advance rfl (.bind (p := Listing.record.read element) ?_ fun _ => .pure _)
      exact Listing.read_owns Listing.record_bracketed (h (k + 1)) Listing.record_regular ht ht'
    · rename_i hcase
      rw [hcase]
      exact wordForm_owns h ht ht' _ _ _
    · exact (Owns.unexpected _).startingAt _
  · rw [hend']
    rcases bracketsAfter_eq_none hend with hcase | hcase | hcase | hcase | hcase <;> rw [hcase] <;>
      exact (Owns.unexpected _).startingAt _

theorem access_owns : Owns ⟨n, k⟩ ⟨n, k⟩ (access element) (access element') :=
  .keepDepth (.bind (primary_owns h ht ht') fun o => members_owns _ o)

end Primary

theorem unary_owns (h : ∀ d k, n < d → Owns ⟨d, k⟩ ⟨d, k⟩ element element') (ht : Takes element P)
    (ht' : Takes element' P') (fuel : Nat) :
    Owns ⟨n, k⟩ ⟨n, k⟩ (unary element fuel) (unary element' fuel) := by
  induction fuel generalizing n with
  | zero => exact .deep
  | succ fuel ih =>
    have haccess := access_owns (k := k) (fun k => h (n + 1) k (Nat.lt_succ_self n)) ht ht'
    have hoperand (op : UnaryOp) : Owns ⟨n + 1, k⟩ ⟨n + 1, k⟩
        (unary element fuel >>= fun e => return Expression.unary op e)
        (unary element' fuel >>= fun e => return Expression.unary op e) :=
      .bind (ih fun d k hd => h d k (by omega)) fun _ => .pure _
    refine .nested (.peek (fun t => ?_) fun t hend => ?_)
    · split
      · exact .advance rfl (hoperand .not)
      · exact .advance rfl (hoperand .neg)
      · exact haccess.startingAt _
    · rcases bracketsAfter_eq_none hend with rfl | rfl | rfl | rfl | rfl <;> exact haccess.startingAt _

end Operands

/-! ### Formulas -/

/-- Where no level is left, no formula is read. -/
theorem expression_tooDeep {s : Cursor} (h : maxNesting ≤ s.depth) (fuel : Nat) :
    TooDeep (expression fuel) s := by
  cases fuel with
  | zero => exact ⟨_, rfl⟩
  | succ fuel =>
    have hoperand : TooDeep (unary (expression fuel) (maxNesting + 1)) s := by
      rw [unary, nested, tooDeep_bind]
      left
      rw [TooDeep, nest_run, if_pos h]
      exact ⟨_, rfl⟩
    have hchain {level : Level} {operand : Parse Expression} (hdeep : TooDeep operand s) :
        TooDeep (chain level operand) s := by
      rw [chain, keepDepth, tooDeep_bind]
      exact .inr ⟨s, s, rfl, tooDeep_bind.2 (.inl (tooDeep_bind.2 (.inl hdeep)))⟩
    exact hchain (hchain (hchain (hchain (hchain (hchain hoperand)))))

/-- With fuel for the levels that are left, a formula owns its tokens. -/
theorem expression_owns {fuel fuel' n : Nat} (k : Nat) (hfuel : maxNesting ≤ n + fuel)
    (hfuel' : maxNesting ≤ n + fuel') :
    Owns ⟨n, k⟩ ⟨n, k⟩ (expression fuel) (expression fuel') := by
  -- Without fuel on one side there is no level left, and both reject.
  have hdeep {n k : Nat} (fuel fuel' : Nat) (hn : maxNesting ≤ n) :
      Owns ⟨n, k⟩ ⟨n, k⟩ (expression fuel) (expression fuel') := by
    intro s hs
    obtain ⟨position, hrun⟩ := expression_tooDeep (Nat.le_trans hn hs.deep) fuel
    obtain ⟨position', hrun'⟩ :=
      expression_tooDeep (show maxNesting ≤ (s.alone k).depth from Nat.le_trans hn hs.deep) fuel'
    rw [hrun, hrun']
    exact .error Iff.rfl
  induction fuel generalizing fuel' n k with
  | zero => exact hdeep 0 fuel' hfuel
  | succ fuel ih =>
    cases fuel' with
    | zero => exact hdeep (fuel + 1) 0 hfuel'
    | succ fuel' =>
      refine chains_owns (i := 0) (j := 6) rfl (unary_owns (fun d k hd => ?_) (expression_takes fuel)
        (expression_takes fuel') _)
      exact ih k (by omega) (by omega)

/-- A formula is too deep among other tokens exactly if it is alone. -/
theorem tooDeep_iff_alone {fuel fuel' : Nat} {s : Cursor} (heof : .eof ∈ s.word)
    (hfuel : maxNesting ≤ s.depth + fuel) (hfuel' : maxNesting ≤ s.depth + fuel') :
    TooDeep (expression fuel) s ↔ TooDeep (expression fuel') (s.alone 0) := by
  have h := expression_owns 0 hfuel hfuel' s ⟨Nat.le_refl _, heof⟩
  unfold TooDeep
  generalize (expression fuel).run s = r at h ⊢
  generalize (expression fuel').run (s.alone 0) = r' at h ⊢
  cases h with
  | ok ready taken => simp
  | @error e e' deep =>
    have hfault (e : ParseError) : (∃ position, (.error e : Except ParseError (Expression × Cursor)) =
        .error ⟨position, .nestedTooDeeply⟩) ↔ e.fault = .nestedTooDeeply := by
      constructor
      · rintro ⟨position, h⟩
        rw [Except.error.inj h]
      · intro h
        exact ⟨e.position, by rw [← h]⟩
    rw [hfault, hfault, deep]

/-- A formula that is read up to a comma or a closing bracket is read from its own tokens. -/
theorem word_of_read {fuel : Nat} {s s' : Cursor} {e : Expression} (heof : .eof ∈ s.word)
    (hfuel : maxNesting ≤ s.depth + fuel) (hread : (expression fuel).run s = .ok (e, s'))
    (hend : bracketsAfter 0 s'.head = none) : s.word = own 0 s.word ++ s'.word := by
  have h := expression_owns 0 hfuel hfuel s ⟨Nat.le_refl _, heof⟩
  rw [hread] at h
  generalize (expression fuel).run (s.alone 0) = r' at h
  cases h with
  | ok ready taken =>
    obtain ⟨us, hword, hown⟩ := taken
    have hnil : own 0 s'.word = [] := by
      unfold Cursor.head at hend
      cases hs' : s'.word with
      | nil => rfl
      | cons t ts =>
        rw [hs', List.headD_cons] at hend
        rw [own, hend]
    rw [hown, hnil, List.append_nil]
    exact hword

/-! ### Siblings -/

/-- A parser that succeeds leaves the depth as it found it, within the limit if it was. -/
def KeepsDepth {α : Type} (p : Parse α) : Prop := ∀ s a s', p.run s = .ok (a, s') →
  s'.depth = s.depth ∧ (s.depth ≤ maxNesting → s'.depth ≤ maxNesting)

/-- Moreover it succeeds below the limit only. -/
def KeepsBelow {α : Type} (p : Parse α) : Prop := ∀ s a s', p.run s = .ok (a, s') →
  s'.depth = s.depth ∧ s'.depth < maxNesting

/-- The depth is raised within the limit only, and all parsers around formulas with this fuel leave
    it as they found it. -/
structure DepthKept (fuel : Nat) : Prop where
  nest : ∀ s s', nest.run s = .ok ((), s') → s'.depth = s.depth + 1 ∧ s'.depth ≤ maxNesting
  formula : KeepsBelow (expression fuel)
  level : ∀ n, KeepsBelow (chains (unary (expression fuel) (maxNesting + 1)) (levels.drop n))
  unary : ∀ k, KeepsBelow (unary (expression fuel) k)
  access : KeepsDepth (access (expression fuel))
  primary : KeepsDepth (primary (expression fuel))
  word : ∀ name position, KeepsDepth (wordForm (expression fuel) name position)
  callArguments : KeepsDepth (callArguments (expression fuel))
  items : ∀ k, KeepsDepth (items (expression fuel) k)
  fields : ∀ k seen, KeepsDepth (fields (expression fuel) k seen)

theorem keepsDepth_of_reads {α : Type} {p : Parse α} (h : ∀ d, Reads d p fun _ d' => d' = d) :
    KeepsDepth p := by
  intro s a s' hrun
  have hdepth := h s.depth s a s' rfl hrun
  exact ⟨hdepth, fun hs => by rwa [hdepth]⟩

theorem keepsBelow_of_reads {n : Nat} {p : Parse Expression}
    (h : ∀ d, Reads d p fun e d' => d' = d ∧ Within n d e) : KeepsBelow p := by
  intro s e s' hrun
  obtain ⟨hdepth, hwithin⟩ := h s.depth s e s' rfl hrun
  have hright := hwithin.right
  exact ⟨hdepth, by omega⟩

theorem expression_keeps (fuel d : Nat) : Reads d (expression fuel) fun _ d' => d' = d :=
  (expression_reads fuel d).mono fun _ _ h => h.1

theorem depthKept (fuel : Nat) : DepthKept fuel where
  nest s s' hrun := by
    obtain ⟨hlt, hdepth⟩ := Reads.nest s () s' rfl hrun
    exact ⟨hdepth, by omega⟩
  formula := keepsBelow_of_reads (expression_reads fuel)
  level n := keepsBelow_of_reads (chains_reads (unary_reads (expression_reads fuel) _) (levels.drop n))
  unary k := keepsBelow_of_reads (unary_reads (expression_reads fuel) k)
  access := keepsDepth_of_reads access_keeps
  primary := keepsDepth_of_reads (primary_keeps (expression_keeps fuel))
  word name position :=
    keepsDepth_of_reads fun d => wordForm_keeps (expression_keeps fuel) d name position
  callArguments := keepsDepth_of_reads (callArguments_keeps (expression_keeps fuel))
  items k := keepsDepth_of_reads fun d => items_keeps (expression_keeps fuel) d k
  fields k seen := keepsDepth_of_reads fun d => fields_keeps (expression_keeps fuel) d k seen

/-- Siblings in a literal do not share the levels of nesting.  Every parser leaves the depth as it
    found it.  So each element begins at the depth of its literal and is too deep exactly if its own
    tokens are at this depth, which are those it is read from, and the literal is too deep exactly if
    one of its elements is. -/
theorem siblings_share_no_level (fuel : Nat) : DepthKept fuel ∧
    ∀ s : Cursor, .eof ∈ s.word → maxNesting ≤ s.depth + fuel →
      (∀ s', Element (expression fuel) s s' → s'.depth = s.depth ∧
        (∀ e s₁, (expression fuel).run s' = .ok (e, s₁) → bracketsAfter 0 s₁.head = none →
          s'.word = own 0 s'.word ++ s₁.word) ∧
        (TooDeep (expression fuel) s' ↔
          TooDeep (expression (maxNesting + 1)) (.atTokens (own 0 s'.word) s.depth))) ∧
      (OpensLiteral s → (TooDeep (primary (expression fuel)) s ↔
        ∃ s', Element (expression fuel) s s' ∧
          TooDeep (expression (maxNesting + 1)) (.atTokens (own 0 s'.word) s.depth))) := by
  refine ⟨depthKept fuel, fun s heof hfuel => ?_⟩
  have helement (s' : Cursor) (hs' : Element (expression fuel) s s') : s'.depth = s.depth ∧
      .eof ∈ s'.word ∧ (TooDeep (expression fuel) s' ↔
        TooDeep (expression (maxNesting + 1)) (.atTokens (own 0 s'.word) s.depth)) := by
    have hdepth := hs'.depth (expression_keeps fuel)
    have heof' := hs'.eof (expression_takes fuel) heof
    refine ⟨hdepth, heof', ?_⟩
    rw [← hdepth] at hfuel ⊢
    exact tooDeep_iff_alone heof' hfuel (by omega)
  constructor
  · intro s' hs'
    obtain ⟨hdepth, heof', hdeep⟩ := helement s' hs'
    exact ⟨hdepth, fun e s₁ hread hend => word_of_read heof' (hdepth ▸ hfuel) hread hend, hdeep⟩
  · intro hopens
    rw [primary_tooDeep_iff (expression_takes fuel) hopens heof]
    exact exists_congr fun s' => and_congr_right fun hs' => (helement s' hs').2.2

/-- A list one level below the limit, whose second item needs two. -/
def crowdedList : Cursor := .atTokens [.leftBracket, .property "b", .comma, .leftParen, .property "a",
  .rightParen, .rightBracket] 255

/-- The second item is too deep at the depth of the list, with or without the first one. -/
theorem crowdedList_siblings :
    (.eof ∈ crowdedList.word ∧ maxNesting ≤ crowdedList.depth + (maxNesting + 1) ∧
      OpensLiteral crowdedList) ∧
    ∃ s', Element (expression (maxNesting + 1)) crowdedList s' ∧ s'.depth = crowdedList.depth ∧
      (TooDeep (expression (maxNesting + 1)) s' ↔ TooDeep (expression (maxNesting + 1))
        (.atTokens [.leftParen, .property "a", .rightParen] 255)) ∧
      TooDeep (primary (expression (maxNesting + 1))) crowdedList := by
  have heof : .eof ∈ crowdedList.word := by decide
  have hfuel : maxNesting ≤ crowdedList.depth + (maxNesting + 1) := by decide
  have hopens : OpensLiteral crowdedList := .list rfl
  have hreaches : Element (expression (maxNesting + 1)) crowdedList
      ⟨crowdedList.tokens.drop 3, crowdedList.depth⟩ :=
    .item rfl (.next nofun rfl (show (expression (maxNesting + 1)).run crowdedList.next =
      .ok (.selfProperty "b", ⟨crowdedList.tokens.drop 2, crowdedList.depth⟩) from rfl) rfl
        (.first nofun rfl))
  obtain ⟨-, h⟩ := siblings_share_no_level (maxNesting + 1)
  obtain ⟨helements, hliteral⟩ := h crowdedList heof hfuel
  obtain ⟨hdepth, -, hdeep⟩ := helements _ hreaches
  refine ⟨⟨heof, hfuel, hopens⟩, _, hreaches, hdepth, hdeep, ?_⟩
  exact (hliteral hopens).2 ⟨_, hreaches, ⟨_, rfl⟩⟩

end Parse

end EntityFormulas
