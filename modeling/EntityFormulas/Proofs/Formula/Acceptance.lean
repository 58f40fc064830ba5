/-
  EntityFormulas/Proofs/Formula/Acceptance.lean
  =============================================
  **What the grammar derives is read.**

  `Finds p ts r a` says that a parser reads the tokens `ts` as `a` when `r` comes
  after them, or gives up because the tree is too deep.  Each parser finds what
  its symbol of the grammar derives, with any fuel, and for lists with fuel for
  each of their tokens.

  With `Takes` this makes reading and the grammar agree on every text that has
  tokens (`Expression.parse_formula`).
-/
import EntityFormulas.Proofs.Formula.Reading

namespace EntityFormulas

namespace Parse

open Grammar

/-! ### What parsers find -/

/-- A parser reads tokens that others follow, unless the tree becomes too deep. -/
def Finds {α : Type} (p : Parse α) (ts r : List Token) (a : α) : Prop :=
  ∀ s : Cursor, s.word = ts ++ r → (∃ s', p.run s = .ok (a, s') ∧ s'.word = r) ∨
    ∃ position, p.run s = .error ⟨position, .nestedTooDeeply⟩

namespace Finds

variable {α β : Type} {p : Parse α} {f : α → Parse β} {g : Nat → Parse β}
  {ts us r : List Token} {a : α} {b : β}

theorem pure : Finds (pure a) [] r a := fun s hs => .inl ⟨s, rfl, hs⟩

theorem deep : Finds (fail .nestedTooDeeply) ts r a := fun _ _ => .inr ⟨_, rfl⟩

theorem bind (hp : Finds p ts (us ++ r) a) (hf : Finds (f a) us r b) :
    Finds (p >>= f) (ts ++ us) r b := by
  intro s hs
  rw [List.append_assoc] at hs
  rw [bind_run]
  rcases hp s hs with ⟨s', hrun, hs'⟩ | ⟨position, hrun⟩
  · rw [hrun]
    exact hf s' hs'
  · rw [hrun]
    exact .inr ⟨position, rfl⟩

/-- A step that takes no token. -/
theorem silent (hp : Finds p [] (ts ++ r) a) (hf : Finds (f a) ts r b) : Finds (p >>= f) ts r b :=
  bind hp hf

theorem peek {f : Token → Parse β} {t : Token} (ht : (ts ++ r).headD .eof = t)
    (hf : Finds (f t) ts r b) : Finds (peek >>= f) ts r b := by
  intro s hs
  rw [bind_run, peek_run, Cursor.head, hs, ht]
  exact hf s hs

theorem met {c : Prop} [Decidable c] {q : Parse α} (hc : c) (hp : Finds p ts r a) :
    Finds (if c then p else q) ts r a := by
  rwa [if_pos hc]

theorem unmet {c : Prop} [Decidable c] {q : Parse α} (hc : ¬ c) (hq : Finds q ts r a) :
    Finds (if c then p else q) ts r a := by
  rwa [if_neg hc]

theorem current {f : PlacedToken → Parse β}
    (hf : ∀ t : PlacedToken, t.token = (ts ++ r).headD .eof → Finds (f t) ts r b) :
    Finds (current >>= f) ts r b := by
  intro s hs
  rw [bind_run, current_run]
  refine hf _ ?_ s hs
  rw [token_headD, Cursor.head, hs]

theorem advance {t : Token} : Finds advance [t] r () := by
  intro s hs
  refine .inl ⟨_, advance_run s, ?_⟩
  have htail := congrArg List.tail hs
  simpa [Cursor.word] using htail

theorem next {f : Unit → Parse β} {t : Token} (hf : Finds (f ()) ts r b) :
    Finds (Parse.advance >>= f) (t :: ts) r b := bind advance hf

/-- A last step that takes no token. -/
theorem finish (hp : Finds p ts r a) (hf : Finds (f a) [] r b) : Finds (p >>= f) ts r b := by
  rw [← List.append_nil ts]
  exact bind hp hf

theorem modify {g : Cursor → Cursor} (hg : ∀ s, (g s).word = s.word) : Finds (modify g) [] r () :=
  fun s hs => .inl ⟨g s, rfl, (hg s).trans hs⟩

theorem nest : Finds nest [] r () := by
  intro s hs
  rw [nest_run]
  split
  · exact .inr ⟨_, rfl⟩
  · exact .inl ⟨_, rfl, hs⟩

theorem remaining (hf : Finds (g (ts ++ r).length) ts r b) : Finds (remaining >>= g) ts r b := by
  intro s hs
  have hlength : s.tokens.length = (ts ++ r).length := by
    rw [← hs, Cursor.word, List.length_map]
  rw [← hlength] at hf
  exact hf s hs

theorem nested (h : Finds p ts r a) : Finds (nested p) ts r a :=
  silent nest (finish h (silent (modify fun _ => rfl) pure))

theorem keepDepth (h : Finds p ts r a) : Finds (keepDepth p) ts r a :=
  fun s hs => finish (f := fun a => (modifyThe Cursor fun c => { c with depth := s.depth }) >>= fun _ => Pure.pure a) h
    (silent (modify fun _ => rfl) pure) s hs

end Finds

theorem expect_finds (token : Token) (wanted : Expected) (r : List Token) :
    Finds (expect token wanted) [token] r () := .peek rfl (.met rfl .advance)

/-! ### Rules -/

/-- The operand of a chain inside which formulas nest less than `fuel + 1` deep. -/
abbrev operandOf (fuel : Nat) : Parse Expression := unary (expression fuel) (maxNesting + 1)

theorem expression_finds {ts r : List Token} {e : Expression}
    (h : ∀ fuel, Finds (chains (operandOf fuel) (levels.drop 0)) ts r e) (fuel : Nat) :
    Finds (expression fuel) ts r e := by
  cases fuel with
  | zero => exact .deep
  | succ fuel => exact h fuel

theorem stops_headD {n k : Nat} {r : List Token} {op : BinaryOp} (hr : Stops n r)
    (h : operator? (r.headD .eof) = some (k, op)) : k < n := by
  cases r with
  | nil => exact nomatch h
  | cons t rest => exact (hr t rest rfl).2 k op h

theorem members_finds {o e : Expression} {us : List Token} (h : Members o us e) (fuel : Nat)
    {r : List Token} (hr : ∀ t, r ≠ .dot :: t) : Finds (members fuel o) us r e := by
  induction h generalizing fuel with
  | none =>
    cases fuel with
    | zero => exact .deep
    | succ fuel => exact .peek rfl (.unmet (fun h => hr _ (Cursor.eq_cons_of_headD h nofun)) .pure)
  | next more ih =>
    cases fuel with
    | zero => exact .deep
    | succ fuel =>
      exact .peek rfl (.met rfl (.next (.silent .nest (.peek rfl (.next (ih fuel))))))

theorem keyword_finds {name : String} {e : Expression} (h : keyword? name = some e)
    (element : Parse Expression) (position : Nat) (r : List Token) :
    Finds (wordForm element name position) [.word name] r e := by
  unfold keyword? at h
  refine .next ?_
  split at h
  · cases h
    exact .met ‹_› .pure
  · refine .unmet ‹_› ?_
    split at h
    · cases h
      exact .met ‹_› .pure
    · refine .unmet ‹_› ?_
      split at h
      · cases h
        exact .met ‹_› .pure
      · refine .unmet ‹_› ?_
        split at h
        · cases h
          exact .met ‹_› .pure
        · cases h

theorem constant_finds {t : Token} {e : Expression} (h : constant? t = some e)
    (element : Parse Expression) (r : List Token) : Finds (primary element) [t] r e := by
  refine .current fun p hp => ?_
  simp only [hp, List.cons_append, List.headD_cons]
  cases t with
  | number _ | text _ | property _ | entity _ =>
    cases h
    exact .next .pure
  | word name => exact keyword_finds h element _ r
  | _ => cases h

theorem call_finds {name : String} (free : keyword? name = none) {element : Parse Expression}
    {ts r : List Token} {es : List Expression} (h : Finds (callArguments element) ts r es)
    (position : Nat) :
    Finds (wordForm element name position) (.word name :: .leftParen :: ts) r (.call name es) := by
  obtain ⟨h₁, h₂, h₃, h₄⟩ := keyword?_eq_none_iff.1 free
  refine .next (.unmet h₁ (.unmet h₂ (.unmet h₃ (.unmet h₄ ?_))))
  exact .peek rfl (.met rfl (.next (.finish h .pure)))

theorem key_finds {t : Token} {k : String} (h : key? t = some k) {seen : List String}
    (hk : k ∉ seen) (r : List Token) : Finds (key seen) [t] r k := by
  refine .current fun p hp => ?_
  simp only [hp, List.cons_append, List.headD_cons]
  cases t with
  | word _ | text _ =>
    cases h
    exact .next (.unmet hk .pure)
  | _ => exact nomatch h

mutual

theorem chain_finds {n : Nat} {ts : List Token} {e : Expression} : Chain n ts e →
    ∀ (fuel : Nat) {r : List Token}, Stops n r → Finds (chains (operandOf fuel) (levels.drop n)) ts r e
  | .operators loose left more, fuel, r, hr => by
    obtain ⟨level, hdrop, hlevel⟩ := levels_drop loose
    rw [hdrop]
    exact .keepDepth (.bind (chain_finds left fuel (more.stops hr))
      (operators_finds more hlevel fuel _ hr))
  | .operand inner, fuel, r, hr => unary_finds inner fuel _ hr
termination_by structural h => h

theorem operators_finds {n : Nat} {l e : Expression} {us : List Token} : Operators n l us e →
    ∀ {level : Level}, (∀ t op, level t = some op ↔ operator? t = some (n, op)) →
      ∀ (fuel k : Nat) {r : List Token}, Stops n r →
        Finds (operators level (chains (operandOf fuel) (levels.drop (n + 1))) k l) us r e
  | .none, level, hlevel, fuel, k, r, hr => by
    cases k with
    | zero => exact .deep
    | succ k =>
      refine .peek rfl ?_
      have hnone : level (r.headD .eof) = Option.none := by
        rw [Option.eq_none_iff_forall_ne_some]
        intro op hop
        exact Nat.lt_irrefl n (stops_headD hr ((hlevel _ op).1 hop))
      rw [List.nil_append, hnone]
      exact .pure
  | .next operator right more, level, hlevel, fuel, k, r, hr => by
    cases k with
    | zero => exact .deep
    | succ k =>
      refine .peek rfl ?_
      rw [List.cons_append, List.headD_cons, (hlevel _ _).2 operator]
      exact .next (.silent .nest (.bind (chain_finds right fuel (more.stops hr))
        (operators_finds more hlevel fuel k hr)))
termination_by structural h => h

theorem unary_finds {ts : List Token} {e : Expression} : Unary ts e →
    ∀ (fuel k : Nat) {r : List Token}, Stops 6 r → Finds (unary (expression fuel) k) ts r e
  | .not inner, fuel, k, r, hr => by
    cases k with
    | zero => exact .deep
    | succ k => exact .nested (.peek rfl (.next (.finish (unary_finds inner fuel k hr) .pure)))
  | .neg inner, fuel, k, r, hr => by
    cases k with
    | zero => exact .deep
    | succ k => exact .nested (.peek rfl (.next (.finish (unary_finds inner fuel k hr) .pure)))
  | @Unary.access ts us _ _ object more, fuel, k, r, hr => by
    cases k with
    | zero => exact .deep
    | succ k =>
      have hsign {t : Token} (ht : t = .bang ∨ t = .minus) (hne : t ≠ .eof) :
          (ts ++ us ++ r).headD .eof ≠ t := fun h =>
        object.not_sign ht _ _ ((List.append_assoc ..).symm.trans (Cursor.eq_cons_of_headD h hne))
      refine .nested (.peek rfl ?_)
      split
      · exact absurd ‹_› (hsign (.inl rfl) nofun)
      · exact absurd ‹_› (hsign (.inr rfl) nofun)
      · exact .keepDepth (.bind (primary_finds object fuel) (members_finds more _ hr.not_dot))
termination_by structural h => h

theorem primary_finds {ts : List Token} {e : Expression} : Primary ts e →
    ∀ (fuel : Nat) {r : List Token}, Finds (primary (expression fuel)) ts r e
  | .constant value, fuel, r => constant_finds value _ r
  | .entity present, fuel, r => .current fun t ht => by
    simp only [ht, List.cons_append, List.headD_cons]
    exact .next (.peek rfl (.unmet present (.next .pure)))
  | .group inner, fuel, r => .current fun t ht => by
    simp only [ht, List.cons_append, List.headD_cons]
    refine .next (.bind (expression_finds (fun fuel => chain_finds inner fuel ?_) fuel) ?_)
    · exact closing_rightParen.ends.stops closing_rightParen
    · exact .finish (expect_finds _ _ r) .pure
  | .call free args, fuel, r => .current fun t ht => by
    simp only [ht, List.cons_append, List.headD_cons]
    exact call_finds free (arguments_finds args fuel r) t.position
  | .list items, fuel, r => .current fun t ht => by
    simp only [ht, List.cons_append, List.headD_cons]
    refine .next (.remaining (.finish (items_finds items fuel _ ?_ r) .pure))
    simp
  | .record entries distinct, fuel, r => .current fun t ht => by
    simp only [ht, List.cons_append, List.headD_cons]
    refine .next (.remaining (.finish (entries_finds entries distinct fuel _ ?_ r) .pure))
    simp
termination_by structural h => h

theorem arguments_finds {ts : List Token} {es : List Expression} : Arguments ts es →
    ∀ (fuel : Nat) (r : List Token),
      Finds (callArguments (expression fuel)) (ts ++ [.rightParen]) r es
  | .none, fuel, r => .peek rfl (.met rfl (.next .pure))
  | .some args, fuel, r => by
    refine .peek rfl (.unmet ((args.begins.append _).headD_ne closing_rightParen r) ?_)
    refine .remaining (sequence_finds_arguments args fuel _ ?_ r)
    simp
termination_by structural h => h

theorem items_finds {ts : List Token} {es : List Expression} : Items ts es →
    ∀ (fuel k : Nat), ts.length < k → ∀ r : List Token,
      Finds (items (expression fuel) k) (ts ++ [.rightBracket]) r es
  | .none, fuel, k + 1, _, r => .peek rfl (.met rfl (.next .pure))
  | .some items trailing, fuel, k, hk, r => by
    rw [List.append_assoc]
    exact sequence_finds_items items trailing fuel k hk r
termination_by structural h => h

theorem entries_finds {ts : List Token} {fs : List (String × Expression)} : Entries ts fs →
    (fs.map Prod.fst).Nodup → ∀ (fuel k : Nat), ts.length < k → ∀ r : List Token,
      Finds (fields (expression fuel) k []) (ts ++ [.rightBrace]) r fs
  | .none, _, fuel, k + 1, _, r => .peek rfl (.met rfl (.next .pure))
  | .some fields trailing, hnodup, fuel, k, hk, r => by
    rw [List.append_assoc]
    exact fields_finds fields hnodup (fun _ _ => List.not_mem_nil) trailing fuel k hk r
termination_by structural h => h

theorem sequence_finds_arguments {ts : List Token} {es : List Expression} : Sequence ts es →
    ∀ (fuel k : Nat), ts.length < k → ∀ r : List Token,
      Finds (arguments (expression fuel) k) (ts ++ [.rightParen]) r es
  | .one last, fuel, k + 1, _, r =>
    .bind (expression_finds (fun fuel => chain_finds last fuel
      (closing_rightParen.ends.stops closing_rightParen)) fuel) (.peek rfl (.next .pure))
  | .more first rest, fuel, k + 1, hk, r => by
    rw [List.append_assoc]
    refine .bind (expression_finds (fun fuel => chain_finds first fuel (stops_comma 0 _)) fuel)
      (.peek rfl (.next (.finish (sequence_finds_arguments rest fuel k ?_ r) .pure)))
    simp at hk
    omega
termination_by structural h => h

theorem sequence_finds_items {ts : List Token} {es : List Expression} : Sequence ts es →
    ∀ {comma : List Token}, Trailing comma → ∀ (fuel k : Nat), (ts ++ comma).length < k →
      ∀ r : List Token, Finds (items (expression fuel) k) (ts ++ (comma ++ [.rightBracket])) r es
  | .one last, comma, hcomma, fuel, k + 1, hk, r => by
    refine .peek rfl (.unmet ((last.begins.append _).headD_ne closing_rightBracket r) ?_)
    refine .bind (expression_finds (fun fuel => chain_finds last fuel ?_) fuel) ?_
    · exact Ends.stops closing_rightBracket ⟨comma, r, hcomma, by simp⟩
    · rcases hcomma with rfl | rfl
      · exact .peek rfl (.next .pure)
      · cases k with
        | zero => simp at hk
        | succ k => exact .peek rfl (.next (.finish (.peek rfl (.met rfl (.next .pure))) .pure))
  | .more first rest, comma, hcomma, fuel, k + 1, hk, r => by
    rw [List.append_assoc, List.cons_append]
    refine .peek rfl (.unmet ((first.begins.append _).headD_ne closing_rightBracket r) ?_)
    refine .bind (expression_finds (fun fuel => chain_finds first fuel (stops_comma 0 _)) fuel) ?_
    refine .peek rfl (.next (.finish (sequence_finds_items rest hcomma fuel k ?_ r) .pure))
    simp at hk ⊢
    omega
termination_by structural h => h

theorem fields_finds {ts : List Token} {fs : List (String × Expression)} : Fields ts fs →
    ∀ {seen : List String}, (fs.map Prod.fst).Nodup → (∀ k ∈ fs.map Prod.fst, k ∉ seen) →
      ∀ {comma : List Token}, Trailing comma → ∀ (fuel k : Nat), (ts ++ comma).length < k →
        ∀ r : List Token,
          Finds (fields (expression fuel) k seen) (ts ++ (comma ++ [.rightBrace])) r fs
  | @Fields.one t key ts _ hkey last, seen, hnodup, hfresh, comma, hcomma, fuel, k + 1, hk, r => by
    refine .peek rfl (.unmet (by rintro rfl; exact nomatch hkey) ?_)
    show Finds _ ([t] ++ ([.colon] ++ (ts ++ (comma ++ [.rightBrace])))) _ _
    refine .bind (key_finds hkey (hfresh key List.mem_cons_self) _) (.bind (expect_finds _ _ _) ?_)
    refine .bind (expression_finds (fun fuel => chain_finds last fuel ?_) fuel) ?_
    · exact Ends.stops closing_rightBrace ⟨comma, r, hcomma, by simp⟩
    · rcases hcomma with rfl | rfl
      · exact .peek rfl (.next .pure)
      · cases k with
        | zero => simp at hk
        | succ k => exact .peek rfl (.next (.finish (.peek rfl (.met rfl (.next .pure))) .pure))
  | @Fields.more t key ts us _ fs hkey first rest, seen, hnodup, hfresh, comma, hcomma, fuel, k + 1,
      hk, r => by
    rw [List.map_cons, List.nodup_cons] at hnodup
    refine .peek rfl (.unmet (by rintro rfl; exact nomatch hkey) ?_)
    have hword : t :: .colon :: (ts ++ .comma :: us) ++ (comma ++ [.rightBrace]) =
        [t] ++ ([.colon] ++ (ts ++ (.comma :: (us ++ (comma ++ [.rightBrace]))))) := by simp
    rw [hword]
    refine .bind (key_finds hkey (hfresh key List.mem_cons_self) _) (.bind (expect_finds _ _ _) ?_)
    refine .bind (expression_finds (fun fuel => chain_finds first fuel (stops_comma 0 _)) fuel) ?_
    have hrest : ∀ key' ∈ fs.map Prod.fst, key' ∉ key :: seen := by
      intro key' hmem hseen
      rcases List.mem_cons.1 hseen with rfl | hseen
      · exact hnodup.1 hmem
      · exact hfresh key' (List.mem_cons_of_mem _ hmem) hseen
    refine .peek rfl (.next (.finish (fields_finds rest hnodup.2 hrest hcomma fuel k ?_ r) .pure))
    simp at hk ⊢
    omega
termination_by structural h => h

end

/-! ### Whole formulas -/

theorem whole_finds {ts : List Token} {e : Expression} (h : Formula ts e) :
    Finds whole ts [.eof] e := by
  refine .finish (expression_finds (fun fuel => chain_finds h fuel ?_) _) (.current fun t ht => ?_)
  · exact stops_of_operator? (t := .eof) nofun rfl 0 []
  · exact .met ht .pure

theorem eq_of_append_eof {us ws r : List Token} (h : ws ++ [.eof] = us ++ r) (hus : .eof ∉ us)
    (hws : .eof ∉ ws) (hr : r.headD .eof = .eof) : us = ws := by
  -- Both lists end at the first end of input.
  induction us generalizing ws with
  | nil =>
    cases ws with
    | nil => rfl
    | cons w ws =>
      rw [List.nil_append] at h
      rw [← h] at hr
      exact absurd (hr ▸ List.mem_cons_self) hws
  | cons u us ih =>
    cases ws with
    | nil => exact absurd ((List.cons.inj h).1 ▸ List.mem_cons_self) hus
    | cons w ws =>
      simp only [List.cons_append, List.cons.injEq] at h
      obtain ⟨rfl, h⟩ := h
      rw [ih h (fun hmem => hus (List.mem_cons_of_mem _ hmem))
        fun hmem => hws (List.mem_cons_of_mem _ hmem)]

theorem whole_sound {s s' : Cursor} {ts : List Token} {e : Expression}
    (hs : s.word = ts ++ [.eof]) (hts : .eof ∉ ts) (h : whole.run s = .ok (e, s')) :
    Formula ts e := by
  unfold whole at h
  rw [bind_run] at h
  cases hr : (expression (maxNesting + 1)).run s with
  | error x =>
    rw [hr] at h
    exact nomatch h
  | ok x =>
    obtain ⟨e', s₁⟩ := x
    obtain ⟨us, hus, heof, hformula⟩ := expression_takes (maxNesting + 1) s e' s₁ hr
    rw [hr] at h
    change (if (s₁.tokens.headD ⟨.eof, 0⟩).token = .eof then pure e' else failAt _ _ :
      Parse Expression).run s₁ = _ at h
    split at h
    · rename_i hhead
      cases h
      rw [token_headD] at hhead
      rwa [eq_of_append_eof (hs.symm.trans hus) heof hts hhead] at hformula
    · exact nomatch h

end Parse

/-! ### Texts -/

namespace Token

theorem operator1_ne_eof {c : Char} {t : Token} (h : operator1 c = some t) : t ≠ .eof := by
  rintro rfl
  unfold operator1 at h
  split at h <;> exact nomatch h

theorem operator2_ne_eof {c d : Char} {t : Token} (h : operator2 c d = some t) : t ≠ .eof := by
  rintro rfl
  unfold operator2 at h
  split at h <;> exact nomatch h

theorem operatorAt_ne_eof {c : Char} {cs : List Char} {t : Token} {k : Nat}
    (h : operatorAt c cs = some (t, k)) : t ≠ .eof := by
  unfold operatorAt at h
  cases ho : cs.head?.bind (operator2 c) with
  | some t' =>
    rw [ho] at h
    cases h
    obtain ⟨d, -, hd⟩ := Option.bind_eq_some_iff.1 ho
    exact operator2_ne_eof hd
  | none =>
    rw [ho] at h
    obtain ⟨t', ht', heq⟩ := Option.map_eq_some_iff.1 h
    cases heq
    exact operator1_ne_eof ht'

theorem scan_ne_eof {c : Char} {cs : List Char} {t : Token} {k : Nat}
    (h : scan c cs = .ok (t, k)) : t ≠ .eof := by
  rintro rfl
  unfold scan at h
  split at h
  · cases h
  · split at h
    · cases hq : quotedText c cs <;> rw [hq] at h <;> cases h
    · split at h
      · cases h
      · split at h
        · dsimp only at h
          split at h
          · cases h
          · split at h <;> cases h
        · cases ho : operatorAt c cs with
          | some found =>
            rw [ho] at h
            cases h
            exact operatorAt_ne_eof ho rfl
          | none =>
            rw [ho] at h
            dsimp only at h
            split at h <;> cases h

/-- The end of input comes last, and nowhere before. -/
theorem tokensFrom_word {position skip : Nat} {cs : List Char} {ts : List PlacedToken}
    (h : tokensFrom position skip cs = .ok ts) :
    ∃ word, ts.map PlacedToken.token = word ++ [.eof] ∧ .eof ∉ word := by
  -- On the characters; those that belong to a token already are skipped.
  induction cs generalizing position skip ts with
  | nil =>
    cases h
    exact ⟨[], rfl, List.not_mem_nil⟩
  | cons c cs ih =>
    unfold tokensFrom at h
    split at h
    · exact ih h
    · split at h
      · exact ih h
      · split at h
        · exact nomatch h
        · rename_i token k hscan
          cases hrest : tokensFrom (position + 1) k cs with
          | error x =>
            rw [hrest] at h
            exact nomatch h
          | ok rest =>
            rw [hrest] at h
            cases h
            obtain ⟨word, hword, heof⟩ := ih hrest
            refine ⟨token :: word, by rw [List.map_cons, hword]; rfl, ?_⟩
            rw [List.mem_cons]
            exact not_or.2 ⟨(scan_ne_eof hscan).symm, heof⟩

end Token

/-- What is read from a text is a formula of its tokens. -/
theorem Expression.formula_of_parse {source : String} {e : Expression}
    (h : Expression.parse source = .ok e) :
    ∃ ts word, Token.tokens source = .ok ts ∧ ts.map PlacedToken.token = word ++ [.eof] ∧
      Grammar.Formula word e := by
  unfold Expression.parse at h
  cases htokens : Token.tokens source with
  | error x =>
    rw [htokens] at h
    exact nomatch h
  | ok ts =>
    rw [htokens] at h
    obtain ⟨word, hword, heof⟩ := Token.tokensFrom_word htokens
    change (Parse.whole.run { tokens := ts }).map (·.1) = .ok e at h
    cases hrun : Parse.whole.run { tokens := ts } with
    | error x =>
      rw [hrun] at h
      exact nomatch h
    | ok read =>
      rw [hrun] at h
      cases h
      exact ⟨ts, word, rfl, hword, Parse.whole_sound (s := { tokens := ts }) hword heof hrun⟩

/-- Reading follows the grammar on every text that has tokens.  What is read is a formula; the
    tokens are a formula of at most one tree, whose operators of one level associate to the left;
    and a formula is read, unless its tree is too deep. -/
theorem Expression.parse_formula {source : String} {ts : List PlacedToken}
    (h : Token.tokens source = .ok ts) :
    ∃ word, ts.map PlacedToken.token = word ++ [.eof] ∧ .eof ∉ word ∧
      (∀ e, Expression.parse source = .ok e → Grammar.Formula word e) ∧
      (∀ e e', Grammar.Formula word e → Grammar.Formula word e' → e = e') ∧
      (∀ e, Grammar.Formula word e → Expression.parse source = .ok e ∨
        ∃ position, Expression.parse source = .error ⟨position, .nestedTooDeeply⟩) ∧
      (∀ n t t' op op' us vs ws a b c, Grammar.operator? t = some (n, op) →
        Grammar.operator? t' = some (n, op') → Grammar.Chain (n + 1) us a →
        Grammar.Chain (n + 1) vs b → Grammar.Chain (n + 1) ws c →
        ∀ e, Grammar.Chain n (us ++ t :: (vs ++ t' :: ws)) e ↔
          e = .binary op' (.binary op a b) c) := by
  obtain ⟨word, hword, heof⟩ := Token.tokensFrom_word h
  have hparse : Expression.parse source = (Parse.whole.run { tokens := ts }).map (·.1) := by
    unfold Expression.parse
    rw [h]
    rfl
  refine ⟨word, hword, heof, fun e he => ?_, fun e e' he he' => he.unique he', fun e he => ?_,
    fun n t t' op op' us vs ws a b c ht ht' ha hb hc => ha.leftAssociative ht ht' hb hc⟩
  · rw [hparse] at he
    cases hr : Parse.whole.run { tokens := ts } with
    | error x =>
      rw [hr] at he
      exact nomatch he
    | ok x =>
      rw [hr] at he
      cases he
      exact Parse.whole_sound (s := { tokens := ts }) hword heof hr
  · rw [hparse]
    rcases Parse.whole_finds he { tokens := ts } hword with ⟨s', hrun, -⟩ | ⟨position, hrun⟩
    · exact .inl (by rw [hrun]; rfl)
    · exact .inr ⟨position, by rw [hrun]; rfl⟩

/-- Differences of three properties subtract the second one first. -/
theorem difference_parse_formula :
    Token.tokens "#a-#b-#c" = .ok [⟨.property "a", 0⟩, ⟨.minus, 2⟩, ⟨.property "b", 3⟩, ⟨.minus, 5⟩,
      ⟨.property "c", 6⟩, ⟨.eof, 8⟩] ∧
    ∀ e, Grammar.Formula [.property "a", .minus, .property "b", .minus, .property "c"] e ↔
      e = .binary .sub (.binary .sub (.selfProperty "a") (.selfProperty "b")) (.selfProperty "c") := by
  have htokens : Token.tokens "#a-#b-#c" = .ok [⟨.property "a", 0⟩, ⟨.minus, 2⟩, ⟨.property "b", 3⟩,
      ⟨.minus, 5⟩, ⟨.property "c", 6⟩, ⟨.eof, 8⟩] := by decide +kernel
  refine ⟨htokens, ?_⟩
  have hparse : Expression.parse "#a-#b-#c" =
      .ok (.binary .sub (.binary .sub (.selfProperty "a") (.selfProperty "b")) (.selfProperty "c")) := by
    unfold Expression.parse
    rw [htokens]
    rfl
  obtain ⟨word, hword, -, hsound, hunique, -⟩ := Expression.parse_formula htokens
  obtain rfl : word = [.property "a", .minus, .property "b", .minus, .property "c"] :=
    List.append_cancel_right hword.symm
  intro e
  constructor
  · exact fun he => hunique e _ he (hsound _ hparse)
  · rintro rfl
    exact hsound _ hparse

end EntityFormulas
