/-
  EntityFormulas/Proofs/Formula/Grammar.lean
  ==========================================
  **The grammar of formulas.**

  Rules that say which sequences of tokens are formulas, and of which tree:

      chain₀ … chain₅ := chainₙ₊₁ (operatorₙ chainₙ₊₁)*
      chain₆          := unary
      unary           := ("!" | "-") unary | primary ("." word)*
      primary         := constant | "@" text | "(" chain₀ ")" | word "(" arguments ")"
                       | "[" items "]" | "{" entries "}"

  with `||`, `&&`, equality, comparison, sum and product operators on the levels
  0 to 5.  The rest of a chain takes the tree on its left, so operators of one
  level associate to the left.

  The grammar is unambiguous (`Chain.unique`): read from the left, the next token
  decides which rule goes on, as the levels share no operators and none of what
  may follow a formula begins one.
-/
import EntityFormulas.Formula.Expression
import EntityFormulas.Formula.Token

namespace EntityFormulas.Grammar

/-! ### Tokens -/

/-- The operators with two operands, each with its level. -/
def operator? : Token → Option (Nat × BinaryOp)
  | .orOr => some (0, .or)
  | .andAnd => some (1, .and)
  | .eqEq => some (2, .eq)
  | .neq => some (2, .neq)
  | .lt => some (3, .lt)
  | .lte => some (3, .lte)
  | .gt => some (3, .gt)
  | .gte => some (3, .gte)
  | .plus => some (4, .add)
  | .minus => some (4, .sub)
  | .star => some (5, .mul)
  | .slash => some (5, .div)
  | _ => none

/-- What the words mean that cannot name a function. -/
def keyword? (word : String) : Option Expression :=
  if word = "true" then some (.literal (.boolean true))
  else if word = "false" then some (.literal (.boolean false))
  else if word = "null" then some (.literal .null)
  else if word = "self" then some .selfEntity
  else none

theorem keyword?_eq_none_iff {word : String} : keyword? word = none ↔
    word ≠ "true" ∧ word ≠ "false" ∧ word ≠ "null" ∧ word ≠ "self" := by
  unfold keyword?
  repeat' split
  all_goals simp_all

/-- The tokens that are operands by themselves. -/
def constant? : Token → Option Expression
  | .number x => some (.literal (.number x))
  | .text s => some (.literal (.text s))
  | .property name => some (.selfProperty name)
  | .entity id => some (.entityRef id)
  | .word name => keyword? name
  | _ => none

/-- The tokens that may stand before a colon in a record. -/
def key? : Token → Option String
  | .word k | .text k => some k
  | _ => none

/-- A comma that may be left out. -/
def Trailing (ts : List Token) : Prop := ts = [] ∨ ts = [.comma]

/-! ### Rules -/

/-- `("." word)*` after an object. -/
inductive Members : Expression → List Token → Expression → Prop
  | none {o : Expression} : Members o [] o
  | next {o e : Expression} {name : String} {ts : List Token} (more : Members (.member o name) ts e) :
      Members o (.dot :: .word name :: ts) e

mutual

/-- The operators of a level between chains of the next one. -/
inductive Chain : Nat → List Token → Expression → Prop
  | operators {n : Nat} {ts us : List Token} {l e : Expression} (loose : n < 6)
      (left : Chain (n + 1) ts l) (more : Operators n l us e) : Chain n (ts ++ us) e
  | operand {ts : List Token} {e : Expression} (operand : Unary ts e) : Chain 6 ts e

/-- `(operator chain)*` after a left operand. -/
inductive Operators : Nat → Expression → List Token → Expression → Prop
  | none {n : Nat} {l : Expression} : Operators n l [] l
  | next {n : Nat} {t : Token} {op : BinaryOp} {ts us : List Token} {l r e : Expression}
      (operator : operator? t = some (n, op)) (right : Chain (n + 1) ts r)
      (more : Operators n (.binary op l r) us e) : Operators n l (t :: (ts ++ us)) e

/-- An operand with its unary operators. -/
inductive Unary : List Token → Expression → Prop
  | not {ts : List Token} {e : Expression} (operand : Unary ts e) :
      Unary (.bang :: ts) (.unary .not e)
  | neg {ts : List Token} {e : Expression} (operand : Unary ts e) :
      Unary (.minus :: ts) (.unary .neg e)
  | access {ts us : List Token} {o e : Expression} (object : Primary ts o)
      (more : Members o us e) : Unary (ts ++ us) e

/-- An operand without operators. -/
inductive Primary : List Token → Expression → Prop
  | constant {t : Token} {e : Expression} (value : constant? t = some e) : Primary [t] e
  | entity {id : String} (present : id ≠ "") : Primary [.atSign, .text id] (.entityRef id)
  | group {ts : List Token} {e : Expression} (inner : Chain 0 ts e) :
      Primary (.leftParen :: (ts ++ [.rightParen])) e
  | call {name : String} {ts : List Token} {es : List Expression} (free : keyword? name = none)
      (args : Arguments ts es) :
      Primary (.word name :: .leftParen :: (ts ++ [.rightParen])) (.call name es)
  | list {ts : List Token} {es : List Expression} (items : Items ts es) :
      Primary (.leftBracket :: (ts ++ [.rightBracket])) (.list es)
  | record {ts : List Token} {fs : List (String × Expression)} (entries : Entries ts fs)
      (distinct : (fs.map Prod.fst).Nodup) :
      Primary (.leftBrace :: (ts ++ [.rightBrace])) (.record fs)

/-- `[formula ("," formula)*]` -/
inductive Arguments : List Token → List Expression → Prop
  | none : Arguments [] []
  | some {ts : List Token} {es : List Expression} (args : Sequence ts es) : Arguments ts es

/-- `[formula ("," formula)* [","]]` -/
inductive Items : List Token → List Expression → Prop
  | none : Items [] []
  | some {ts comma : List Token} {es : List Expression} (items : Sequence ts es)
      (trailing : Trailing comma) : Items (ts ++ comma) es

/-- `[field ("," field)* [","]]` -/
inductive Entries : List Token → List (String × Expression) → Prop
  | none : Entries [] []
  | some {ts comma : List Token} {fs : List (String × Expression)} (fields : Fields ts fs)
      (trailing : Trailing comma) : Entries (ts ++ comma) fs

/-- `formula ("," formula)*` -/
inductive Sequence : List Token → List Expression → Prop
  | one {ts : List Token} {e : Expression} (last : Chain 0 ts e) : Sequence ts [e]
  | more {ts us : List Token} {e : Expression} {es : List Expression} (first : Chain 0 ts e)
      (rest : Sequence us es) : Sequence (ts ++ .comma :: us) (e :: es)

/-- `key ":" formula ("," key ":" formula)*` -/
inductive Fields : List Token → List (String × Expression) → Prop
  | one {t : Token} {k : String} {ts : List Token} {e : Expression} (key : key? t = some k)
      (last : Chain 0 ts e) : Fields (t :: .colon :: ts) [(k, e)]
  | more {t : Token} {k : String} {ts us : List Token} {e : Expression}
      {fs : List (String × Expression)} (key : key? t = some k) (first : Chain 0 ts e)
      (rest : Fields us fs) : Fields (t :: .colon :: (ts ++ .comma :: us)) ((k, e) :: fs)

end

/-- A formula and a comma may come before items, none included: then the comma is the trailing
    one. -/
theorem Items.cons {ts us : List Token} {e : Expression} {es : List Expression}
    (first : Chain 0 ts e) (rest : Items us es) : Items (ts ++ .comma :: us) (e :: es) := by
  cases rest with
  | none => exact .some (.one first) (.inr rfl)
  | some items trailing =>
    have h := Items.some (.more first items) trailing
    rwa [List.append_assoc, List.cons_append] at h

theorem Entries.cons {t : Token} {k : String} {ts us : List Token} {e : Expression}
    {fs : List (String × Expression)} (key : key? t = Option.some k) (first : Chain 0 ts e)
    (rest : Entries us fs) : Entries (t :: .colon :: (ts ++ .comma :: us)) ((k, e) :: fs) := by
  cases rest with
  | none => exact .some (.one key first) (.inr rfl)
  | some fields trailing =>
    have h := Entries.some (.more key first fields) trailing
    rwa [List.cons_append, List.cons_append, List.append_assoc, List.cons_append] at h

/-- The formulas that a sequence of tokens derives. -/
def Formula (ts : List Token) (e : Expression) : Prop := Chain 0 ts e

/-! ### First tokens -/

/-- Whether an operand may begin with a token. -/
def begins : Token → Bool
  | .number _ | .text _ | .property _ | .entity _ | .word _ | .atSign | .leftParen | .leftBracket
  | .leftBrace | .bang | .minus => true
  | _ => false

/-- Whether a sequence begins an operand. -/
def Begins (ts : List Token) : Prop := ∃ t us, ts = t :: us ∧ begins t = true

theorem begins_of_constant? {t : Token} {e : Expression} (h : constant? t = some e) :
    begins t = true := by
  cases t with
  | number _ | text _ | property _ | entity _ | word _ => rfl
  | _ => exact nomatch h

theorem Begins.append {ts : List Token} (h : Begins ts) (us : List Token) : Begins (ts ++ us) := by
  obtain ⟨t, vs, rfl, ht⟩ := h
  exact ⟨t, vs ++ us, rfl, ht⟩

theorem Primary.begins {ts : List Token} {e : Expression} (h : Primary ts e) : Begins ts := by
  cases h with
  | constant value => exact ⟨_, [], rfl, begins_of_constant? value⟩
  | _ => exact ⟨_, _, rfl, rfl⟩

theorem Primary.not_sign {ts : List Token} {e : Expression} (h : Primary ts e) {t : Token}
    (ht : t = .bang ∨ t = .minus) (r us : List Token) : ts ++ r ≠ t :: us := by
  intro heq
  cases h with
  | constant value =>
    obtain ⟨rfl, -⟩ := List.cons.inj heq
    rcases ht with rfl | rfl <;> exact nomatch value
  | _ =>
    obtain ⟨rfl, -⟩ := List.cons.inj heq
    exact ht.elim nofun nofun

theorem Unary.begins {ts : List Token} {e : Expression} (h : Unary ts e) : Begins ts := by
  cases h with
  | access object more => exact object.begins.append _
  | _ => exact ⟨_, _, rfl, rfl⟩

theorem Chain.begins {n : Nat} {ts : List Token} {e : Expression} : Chain n ts e → Begins ts
  | .operators _ left _ => left.begins.append _
  | .operand inner => inner.begins

theorem begins_of_key? {t : Token} {k : String} (h : key? t = some k) : begins t = true := by
  cases t with
  | text _ | word _ => rfl
  | _ => exact nomatch h

theorem Fields.begins {ts : List Token} {fs : List (String × Expression)} (h : Fields ts fs) :
    Begins ts := by
  cases h with
  | one key last => exact ⟨_, _, rfl, begins_of_key? key⟩
  | more key first rest => exact ⟨_, _, rfl, begins_of_key? key⟩

theorem Sequence.begins {ts : List Token} {es : List Expression} (h : Sequence ts es) :
    Begins ts := by
  cases h with
  | one last => exact last.begins
  | more first rest => exact first.begins.append _

/-! ### Following tokens -/

/-- No chain of the level goes on with these tokens. -/
def Stops (n : Nat) (ts : List Token) : Prop :=
  ∀ t us, ts = t :: us → t ≠ .dot ∧ ∀ k op, operator? t = some (k, op) → k < n

theorem Stops.mono {n k : Nat} {ts : List Token} (h : Stops n ts) (hk : n ≤ k) : Stops k ts := by
  intro t us hts
  obtain ⟨hdot, hop⟩ := h t us hts
  exact ⟨hdot, fun j op hj => Nat.lt_of_lt_of_le (hop j op hj) hk⟩

theorem stops_of_operator? {t : Token} (hdot : t ≠ .dot) (hop : operator? t = none) (n : Nat)
    (us : List Token) : Stops n (t :: us) := by
  intro t' us' h
  cases h
  refine ⟨hdot, fun k op hk => ?_⟩
  rw [hop] at hk
  exact nomatch hk

/-- After an operand comes one of the operators of the level or what follows the whole chain. -/
theorem Operators.stops {n : Nat} {l e : Expression} {us : List Token} (h : Operators n l us e)
    {r : List Token} (hr : Stops n r) : Stops (n + 1) (us ++ r) := by
  cases h with
  | none => exact hr.mono (Nat.le_succ n)
  | next operator right more =>
    intro t vs hts
    cases hts
    refine ⟨?_, fun k op hk => ?_⟩
    · rintro rfl
      exact nomatch operator
    · rw [operator] at hk
      cases hk
      exact Nat.lt_succ_self n

/-- A closing token, maybe after a comma. -/
def Ends (close : Token) (ts : List Token) : Prop :=
  ∃ comma us, Trailing comma ∧ ts = comma ++ close :: us

/-- Nothing closes with what may begin an operand or go on with a chain. -/
structure Closing (close : Token) : Prop where
  begins : begins close = false
  comma : close ≠ .comma
  dot : close ≠ .dot
  operator : operator? close = none

theorem Closing.ends {close : Token} {us : List Token} (_ : Closing close) : Ends close (close :: us) :=
  ⟨[], us, .inl rfl, rfl⟩

theorem Begins.append_ne {ts : List Token} (h : Begins ts) {close : Token} (hc : Closing close)
    {us r : List Token} : ts ++ us ≠ close :: r := by
  obtain ⟨t, vs, rfl, ht⟩ := h
  intro heq
  obtain ⟨rfl, -⟩ := List.cons.inj heq
  rw [hc.begins] at ht
  exact nomatch ht

theorem Begins.headD_ne {ts : List Token} (h : Begins ts) {close : Token} (hc : Closing close)
    (us : List Token) : (ts ++ us).headD .eof ≠ close := by
  obtain ⟨t, vs, rfl, ht⟩ := h
  rintro rfl
  exact Bool.false_ne_true (hc.begins.symm.trans ht)

theorem stops_comma (n : Nat) (us : List Token) : Stops n (.comma :: us) :=
  stops_of_operator? (t := .comma) nofun rfl n us

theorem Ends.stops {close : Token} (hc : Closing close) {ts : List Token} (h : Ends close ts) :
    Stops 0 ts := by
  obtain ⟨comma, us, rfl | rfl, rfl⟩ := h
  · exact stops_of_operator? hc.dot hc.operator 0 us
  · exact stops_comma 0 _

/-- What ends a sequence is not a comma with another operand. -/
theorem Ends.not_begins {close : Token} (hc : Closing close) {ts : List Token}
    (h : Ends close (.comma :: ts)) : ¬ Begins ts := by
  rintro ⟨t, vs, rfl, ht⟩
  obtain ⟨comma, us, rfl | rfl, heq⟩ := h
  · exact hc.comma (List.cons.inj heq).1.symm
  · cases heq
    rw [hc.begins] at ht
    exact nomatch ht

theorem Trailing.inj {close : Token} {comma comma' us us' : List Token}
    (h : Trailing comma) (hc : Closing close) (h' : Trailing comma')
    (heq : comma ++ close :: us = comma' ++ close :: us') : us = us' := by
  rcases h with rfl | rfl <;> rcases h' with rfl | rfl
  · exact (List.cons.inj heq).2
  · exact absurd (List.cons.inj heq).1 hc.comma
  · exact absurd (List.cons.inj heq).1.symm hc.comma
  · exact (List.cons.inj (List.cons.inj heq).2).2

theorem closing_rightParen : Closing .rightParen := ⟨rfl, nofun, nofun, rfl⟩

theorem closing_rightBracket : Closing .rightBracket := ⟨rfl, nofun, nofun, rfl⟩

theorem closing_rightBrace : Closing .rightBrace := ⟨rfl, nofun, nofun, rfl⟩

/-! ### One tree -/

theorem Members.unique {o e : Expression} {us : List Token} (h : Members o us e) :
    ∀ {us' r r' : List Token} {e' : Expression}, Members o us' e' → us ++ r = us' ++ r' →
      (∀ t, r ≠ .dot :: t) → (∀ t, r' ≠ .dot :: t) → e = e' ∧ r = r' := by
  -- What follows a chain of members is no dot, so both readings stop at the same place.
  induction h with
  | none =>
    intro us' r r' e' h' heq hr _
    cases h' with
    | none => exact ⟨rfl, heq⟩
    | next more => exact absurd heq (hr _)
  | next more ih =>
    intro us' r r' e' h' heq hr hr'
    cases h' with
    | none => exact absurd heq.symm (hr' _)
    | next more' =>
      cases (List.cons.inj (List.cons.inj heq).2).1
      exact ih more' (List.cons.inj (List.cons.inj heq).2).2 hr hr'

theorem Stops.not_dot {n : Nat} {r : List Token} (h : Stops n r) (t : List Token) : r ≠ .dot :: t :=
  fun hr => (h _ _ hr).1 rfl

mutual

theorem Chain.unique {n : Nat} {ts : List Token} {e : Expression} : Chain n ts e →
    ∀ {ts' r r' : List Token} {e' : Expression}, Chain n ts' e' → ts ++ r = ts' ++ r' →
      Stops n r → Stops n r' → e = e' ∧ r = r'
  | .operators loose left more, _, _, _, _, h', heq, hr, hr' => by
    cases h' with
    | operators _ left' more' =>
      rw [List.append_assoc, List.append_assoc] at heq
      obtain ⟨rfl, heq⟩ := left.unique left' heq (more.stops hr) (more'.stops hr')
      exact more.unique more' heq hr hr'
    | operand _ => exact absurd loose (Nat.lt_irrefl 6)
  | .operand inner, _, _, _, _, h', heq, hr, hr' => by
    cases h' with
    | operators loose _ _ => exact absurd loose (Nat.lt_irrefl 6)
    | operand inner' => exact inner.unique inner' heq hr hr'
termination_by structural h => h

theorem Operators.unique {n : Nat} {l e : Expression} {us : List Token} : Operators n l us e →
    ∀ {us' r r' : List Token} {e' : Expression}, Operators n l us' e' → us ++ r = us' ++ r' →
      Stops n r → Stops n r' → e = e' ∧ r = r'
  | .none, _, _, _, _, h', heq, hr, _ => by
    cases h' with
    | none => exact ⟨rfl, heq⟩
    | next operator _ _ => exact absurd ((hr _ _ heq).2 _ _ operator) (Nat.lt_irrefl n)
  | .next operator right more, _, _, _, _, h', heq, hr, hr' => by
    cases h' with
    | none => exact absurd ((hr' _ _ heq.symm).2 _ _ operator) (Nat.lt_irrefl n)
    | next operator' right' more' =>
      simp only [List.cons_append, List.append_assoc, List.cons.injEq] at heq
      obtain ⟨rfl, heq⟩ := heq
      rw [operator] at operator'
      cases operator'
      obtain ⟨rfl, heq⟩ := right.unique right' heq (more.stops hr) (more'.stops hr')
      exact more.unique more' heq hr hr'
termination_by structural h => h

theorem Unary.unique {ts : List Token} {e : Expression} : Unary ts e →
    ∀ {ts' r r' : List Token} {e' : Expression}, Unary ts' e' → ts ++ r = ts' ++ r' →
      Stops 6 r → Stops 6 r' → e = e' ∧ r = r'
  | .not inner, _, _, _, _, h', heq, hr, hr' => by
    cases h' with
    | not inner' =>
      obtain ⟨rfl, heq⟩ := inner.unique inner' (List.cons.inj heq).2 hr hr'
      exact ⟨rfl, heq⟩
    | neg _ => exact nomatch (List.cons.inj heq).1
    | access object' _ =>
      rw [List.append_assoc] at heq
      exact absurd heq.symm (object'.not_sign (.inl rfl) _ _)
  | .neg inner, _, _, _, _, h', heq, hr, hr' => by
    cases h' with
    | not _ => exact nomatch (List.cons.inj heq).1
    | neg inner' =>
      obtain ⟨rfl, heq⟩ := inner.unique inner' (List.cons.inj heq).2 hr hr'
      exact ⟨rfl, heq⟩
    | access object' _ =>
      rw [List.append_assoc] at heq
      exact absurd heq.symm (object'.not_sign (.inr rfl) _ _)
  | .access object more, _, _, _, _, h', heq, hr, hr' => by
    rw [List.append_assoc] at heq
    cases h' with
    | not _ => exact absurd heq (object.not_sign (.inl rfl) _ _)
    | neg _ => exact absurd heq (object.not_sign (.inr rfl) _ _)
    | access object' more' =>
      rw [List.append_assoc] at heq
      obtain ⟨rfl, heq⟩ := object.unique object' heq
      exact more.unique more' heq hr.not_dot hr'.not_dot
termination_by structural h => h

theorem Primary.unique {ts : List Token} {e : Expression} : Primary ts e →
    ∀ {ts' r r' : List Token} {e' : Expression}, Primary ts' e' → ts ++ r = ts' ++ r' →
      e = e' ∧ r = r'
  | .constant value, _, _, _, _, h', heq => by
    cases h' with
    | constant value' =>
      obtain ⟨rfl, rfl⟩ := List.cons.inj heq
      exact ⟨Option.some.inj (value.symm.trans value'), rfl⟩
    | call free _ =>
      obtain ⟨rfl, -⟩ := List.cons.inj heq
      exact nomatch free.symm.trans value
    | _ =>
      obtain ⟨rfl, -⟩ := List.cons.inj heq
      exact nomatch value
  | .entity _, _, _, _, _, h', heq => by
    cases h' with
    | constant value' =>
      obtain ⟨rfl, -⟩ := List.cons.inj heq
      exact nomatch value'
    | entity _ =>
      cases heq
      exact ⟨rfl, rfl⟩
    | _ => exact nomatch (List.cons.inj heq).1
  | .group inner, _, _, _, _, h', heq => by
    cases h' with
    | constant value' =>
      obtain ⟨rfl, -⟩ := List.cons.inj heq
      exact nomatch value'
    | group inner' =>
      simp only [List.cons_append, List.append_assoc, List.cons.injEq, true_and] at heq
      obtain ⟨rfl, heq⟩ := inner.unique inner' heq
        (closing_rightParen.ends.stops closing_rightParen)
        (closing_rightParen.ends.stops closing_rightParen)
      exact ⟨rfl, (List.cons.inj heq).2⟩
    | _ => exact nomatch (List.cons.inj heq).1
  | .call free args, _, _, _, _, h', heq => by
    cases h' with
    | constant value' =>
      obtain ⟨rfl, -⟩ := List.cons.inj heq
      exact nomatch free.symm.trans value'
    | call _ args' =>
      obtain ⟨hname, heq⟩ := List.cons.inj heq
      cases hname
      simp only [List.cons_append, List.append_assoc, List.cons.injEq, true_and] at heq
      obtain ⟨rfl, rfl⟩ := args.unique args' heq
      exact ⟨rfl, rfl⟩
    | _ => exact nomatch (List.cons.inj heq).1
  | .list items, _, _, _, _, h', heq => by
    cases h' with
    | constant value' =>
      obtain ⟨rfl, -⟩ := List.cons.inj heq
      exact nomatch value'
    | list items' =>
      simp only [List.cons_append, List.append_assoc, List.cons.injEq, true_and] at heq
      obtain ⟨rfl, rfl⟩ := items.unique items' heq
      exact ⟨rfl, rfl⟩
    | _ => exact nomatch (List.cons.inj heq).1
  | .record entries distinct, _, _, _, _, h', heq => by
    cases h' with
    | constant value' =>
      obtain ⟨rfl, -⟩ := List.cons.inj heq
      exact nomatch value'
    | record entries' _ =>
      simp only [List.cons_append, List.append_assoc, List.cons.injEq, true_and] at heq
      obtain ⟨rfl, rfl⟩ := entries.unique entries' heq
      exact ⟨rfl, rfl⟩
    | _ => exact nomatch (List.cons.inj heq).1
termination_by structural h => h

theorem Arguments.unique {ts : List Token} {es : List Expression} : Arguments ts es →
    ∀ {ts' r r' : List Token} {es' : List Expression}, Arguments ts' es' →
      ts ++ .rightParen :: r = ts' ++ .rightParen :: r' → es = es' ∧ r = r'
  | .none, _, _, _, _, h', heq => by
    cases h' with
    | none => exact ⟨rfl, (List.cons.inj heq).2⟩
    | some args' => exact absurd heq.symm (args'.begins.append_ne closing_rightParen)
  | .some args, _, _, _, _, h', heq => by
    cases h' with
    | none => exact absurd heq (args.begins.append_ne closing_rightParen)
    | some args' =>
      obtain ⟨rfl, heq⟩ := args.unique closing_rightParen args' heq closing_rightParen.ends
        closing_rightParen.ends
      exact ⟨rfl, (List.cons.inj heq).2⟩
termination_by structural h => h

theorem Items.unique {ts : List Token} {es : List Expression} : Items ts es →
    ∀ {ts' r r' : List Token} {es' : List Expression}, Items ts' es' →
      ts ++ .rightBracket :: r = ts' ++ .rightBracket :: r' → es = es' ∧ r = r'
  | .none, _, _, _, _, h', heq => by
    cases h' with
    | none => exact ⟨rfl, (List.cons.inj heq).2⟩
    | some items' _ =>
      rw [List.append_assoc] at heq
      exact absurd heq.symm (items'.begins.append_ne closing_rightBracket)
  | .some items trailing, _, _, _, _, h', heq => by
    rw [List.append_assoc] at heq
    cases h' with
    | none => exact absurd heq (items.begins.append_ne closing_rightBracket)
    | some items' trailing' =>
      rw [List.append_assoc] at heq
      obtain ⟨rfl, heq⟩ := items.unique closing_rightBracket items' heq ⟨_, _, trailing, rfl⟩
        ⟨_, _, trailing', rfl⟩
      exact ⟨rfl, trailing.inj closing_rightBracket trailing' heq⟩
termination_by structural h => h

theorem Entries.unique {ts : List Token} {fs : List (String × Expression)} : Entries ts fs →
    ∀ {ts' r r' : List Token} {fs' : List (String × Expression)}, Entries ts' fs' →
      ts ++ .rightBrace :: r = ts' ++ .rightBrace :: r' → fs = fs' ∧ r = r'
  | .none, _, _, _, _, h', heq => by
    cases h' with
    | none => exact ⟨rfl, (List.cons.inj heq).2⟩
    | some fields' _ =>
      rw [List.append_assoc] at heq
      exact absurd heq.symm (fields'.begins.append_ne closing_rightBrace)
  | .some fields trailing, _, _, _, _, h', heq => by
    rw [List.append_assoc] at heq
    cases h' with
    | none => exact absurd heq (fields.begins.append_ne closing_rightBrace)
    | some fields' trailing' =>
      rw [List.append_assoc] at heq
      obtain ⟨rfl, heq⟩ := fields.unique closing_rightBrace fields' heq ⟨_, _, trailing, rfl⟩
        ⟨_, _, trailing', rfl⟩
      exact ⟨rfl, trailing.inj closing_rightBrace trailing' heq⟩
termination_by structural h => h

theorem Sequence.unique {ts : List Token} {es : List Expression} : Sequence ts es →
    ∀ {close : Token} {ts' r r' : List Token} {es' : List Expression}, Closing close →
      Sequence ts' es' → ts ++ r = ts' ++ r' → Ends close r → Ends close r' → es = es' ∧ r = r'
  | .one last, _, _, _, _, _, hc, h', heq, hr, hr' => by
    cases h' with
    | one last' =>
      obtain ⟨rfl, heq⟩ := last.unique last' heq (hr.stops hc) (hr'.stops hc)
      exact ⟨rfl, heq⟩
    | more first' rest' =>
      rw [List.append_assoc] at heq
      obtain ⟨-, rfl⟩ := last.unique first' heq (hr.stops hc) (stops_comma _ _)
      exact absurd (rest'.begins.append _) (hr.not_begins hc)
  | .more first rest, _, _, _, _, _, hc, h', heq, hr, hr' => by
    rw [List.append_assoc] at heq
    cases h' with
    | one last' =>
      obtain ⟨-, rfl⟩ := first.unique last' heq (stops_comma _ _) (hr'.stops hc)
      exact absurd (rest.begins.append _) (hr'.not_begins hc)
    | more first' rest' =>
      rw [List.append_assoc] at heq
      obtain ⟨rfl, heq⟩ := first.unique first' heq (stops_comma _ _) (stops_comma _ _)
      obtain ⟨rfl, heq⟩ := rest.unique hc rest' (List.cons.inj heq).2 hr hr'
      exact ⟨rfl, heq⟩
termination_by structural h => h

theorem Fields.unique {ts : List Token} {fs : List (String × Expression)} : Fields ts fs →
    ∀ {close : Token} {ts' r r' : List Token} {fs' : List (String × Expression)}, Closing close →
      Fields ts' fs' → ts ++ r = ts' ++ r' → Ends close r → Ends close r' → fs = fs' ∧ r = r'
  | .one key last, _, _, _, _, _, hc, h', heq, hr, hr' => by
    cases h' with
    | one key' last' =>
      simp only [List.cons_append, List.cons.injEq, true_and] at heq
      obtain ⟨rfl, heq⟩ := heq
      obtain ⟨rfl, heq⟩ := last.unique last' heq (hr.stops hc) (hr'.stops hc)
      exact ⟨by rw [Option.some.inj (key.symm.trans key')], heq⟩
    | more key' first' rest' =>
      simp only [List.cons_append, List.append_assoc, List.cons.injEq, true_and] at heq
      obtain ⟨-, rfl⟩ := last.unique first' heq.2 (hr.stops hc) (stops_comma _ _)
      exact absurd (rest'.begins.append _) (hr.not_begins hc)
  | .more key first rest, _, _, _, _, _, hc, h', heq, hr, hr' => by
    cases h' with
    | one key' last' =>
      simp only [List.cons_append, List.append_assoc, List.cons.injEq, true_and] at heq
      obtain ⟨-, rfl⟩ := first.unique last' heq.2 (stops_comma _ _) (hr'.stops hc)
      exact absurd (rest.begins.append _) (hr'.not_begins hc)
    | more key' first' rest' =>
      simp only [List.cons_append, List.append_assoc, List.cons.injEq, true_and] at heq
      obtain ⟨rfl, heq⟩ := heq
      obtain ⟨rfl, heq⟩ := first.unique first' heq (stops_comma _ _) (stops_comma _ _)
      obtain ⟨rfl, heq⟩ := rest.unique hc rest' (List.cons.inj heq).2 hr hr'
      exact ⟨by rw [Option.some.inj (key.symm.trans key')], heq⟩
termination_by structural h => h


end

/-- A sequence of tokens is a formula of at most one tree. -/
theorem Formula.unique {ts : List Token} {e e' : Expression} (h : Formula ts e)
    (h' : Formula ts e') : e = e' :=
  (Chain.unique h h' (r := []) rfl nofun nofun).1

theorem operator?_lt {t : Token} {n : Nat} {op : BinaryOp} (h : operator? t = some (n, op)) :
    n < 6 := by
  cases t <;> simp [operator?] at h <;> omega

/-- Two operators of one level: the first one is applied first. -/
theorem Chain.leftAssociative {n : Nat} {t t' : Token} {op op' : BinaryOp}
    {us vs ws : List Token} {a b c : Expression} (ht : operator? t = some (n, op))
    (ht' : operator? t' = some (n, op')) (ha : Chain (n + 1) us a) (hb : Chain (n + 1) vs b)
    (hc : Chain (n + 1) ws c) (e : Expression) :
    Chain n (us ++ t :: (vs ++ t' :: ws)) e ↔ e = .binary op' (.binary op a b) c := by
  have h : Chain n (us ++ t :: (vs ++ t' :: ws)) (.binary op' (.binary op a b) c) := by
    refine .operators (operator?_lt ht) ha (.next ht hb ?_)
    rw [← List.append_nil ws]
    exact .next ht' hc .none
  constructor
  · exact fun he => (he.unique h (r := []) rfl nofun nofun).1
  · rintro rfl
    exact h

end EntityFormulas.Grammar
