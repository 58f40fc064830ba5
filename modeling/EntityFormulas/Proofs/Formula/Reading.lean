/-
  EntityFormulas/Proofs/Formula/Reading.lean
  ==========================================
  **What is read follows the grammar.**

  `Takes p P` says of a parser what it takes from the cursor when it succeeds:
  tokens, none of them the end of input, that are in the relation `P` to the
  result.  Each parser takes what one symbol of the grammar derives; fuel does
  not matter, as a parser without it fails.
-/
import EntityFormulas.Formula.Expression.Parse
import EntityFormulas.Proofs.Formula.Grammar
import Mathlib.Data.List.Nodup

namespace EntityFormulas

/-! ### The cursor -/

namespace Cursor

/-- The tokens not yet read, without their positions. -/
def word (s : Cursor) : List Token := s.tokens.map PlacedToken.token

/-- The token that is read next; behind the last one stands the end of input. -/
def head (s : Cursor) : Token := s.word.headD .eof

theorem eq_cons_of_headD {ts : List Token} {t : Token} (h : ts.headD .eof = t) (ht : t ≠ .eof) :
    ts = t :: ts.tail := by
  cases ts with
  | nil => exact absurd h.symm ht
  | cons t' rest =>
    cases h
    rfl

end Cursor

namespace Parse

theorem bind_run {α β : Type} (p : Parse α) (f : α → Parse β) (s : Cursor) :
    (p >>= f).run s = (p.run s).bind fun x => (f x.1).run x.2 := rfl

theorem current_run (s : Cursor) : current.run s = .ok (s.tokens.headD ⟨.eof, 0⟩, s) := rfl

theorem token_headD (s : Cursor) : (s.tokens.headD ⟨.eof, 0⟩).token = s.head := by
  unfold Cursor.head Cursor.word
  cases s.tokens with
  | nil => rfl
  | cons t rest => rfl

theorem peek_run (s : Cursor) : peek.run s = .ok (s.head, s) := by
  rw [← token_headD]
  rfl

theorem advance_run (s : Cursor) : advance.run s = .ok ((), { s with tokens := s.tokens.drop 1 }) :=
  rfl

theorem nest_run (s : Cursor) : nest.run s =
    if maxNesting ≤ s.depth then .error ⟨(s.tokens.headD ⟨.eof, 0⟩).position, .nestedTooDeeply⟩
    else .ok ((), { s with depth := s.depth + 1 }) := by
  unfold nest
  rw [bind_run]
  change (if maxNesting ≤ s.depth then fail .nestedTooDeeply else modify _ : Parse Unit).run s = _
  split
  · rfl
  · rfl

/-! ### What parsers take -/

/-- A parser that succeeds takes tokens that are in a relation to its result. -/
def Takes {α : Type} (p : Parse α) (P : List Token → α → Prop) : Prop :=
  ∀ s a s', p.run s = .ok (a, s') → ∃ us, s.word = us ++ s'.word ∧ .eof ∉ us ∧ P us a

/-- The same of a parser that starts at a token. -/
def TakesAt {α : Type} (t : Token) (p : Parse α) (P : List Token → α → Prop) : Prop :=
  ∀ s a s', s.head = t → p.run s = .ok (a, s') → ∃ us, s.word = us ++ s'.word ∧ .eof ∉ us ∧ P us a

namespace Takes

variable {α β : Type} {p : Parse α} {f : α → Parse β} {P : List Token → α → Prop}
  {Q : List Token → β → Prop}

theorem mono {P' : List Token → α → Prop} (h : Takes p P) (hP : ∀ us a, P us a → P' us a) :
    Takes p P' := by
  intro s a s' hs
  obtain ⟨us, hw, he, hus⟩ := h s a s' hs
  exact ⟨us, hw, he, hP us a hus⟩

theorem takesAt (h : Takes p P) (t : Token) : TakesAt t p P := fun s a s' _ => h s a s'

theorem pure {a : α} (h : P [] a) : Takes (pure a) P := by
  intro s b s' hs
  cases hs
  exact ⟨[], rfl, List.not_mem_nil, h⟩

theorem throw (e : ParseError) : Takes (throw e : Parse α) P := fun _ _ _ hs => nomatch hs

theorem failAt (position : Nat) (fault : ParseFault) : Takes (failAt position fault : Parse α) P :=
  throw _

/-- What follows a parser takes up where it ended. -/
theorem bind (hp : Takes p P) (hf : ∀ us a, P us a → Takes (f a) fun vs b => Q (us ++ vs) b) :
    Takes (p >>= f) Q := by
  intro s b s' hs
  rw [bind_run] at hs
  cases hr : p.run s with
  | error e =>
    rw [hr] at hs
    exact nomatch hs
  | ok x =>
    obtain ⟨a, s₁⟩ := x
    rw [hr] at hs
    obtain ⟨us, hus, heu, hPu⟩ := hp s a s₁ hr
    obtain ⟨vs, hvs, hev, hQv⟩ := hf us a hPu s₁ b s' hs
    refine ⟨us ++ vs, ?_, ?_, hQv⟩
    · rw [hus, hvs, List.append_assoc]
    · rw [List.mem_append]
      exact not_or.2 ⟨heu, hev⟩

/-- A step that takes no token. -/
theorem silent (hp : Takes p fun us _ => us = []) (hf : ∀ a, Takes (f a) Q) : Takes (p >>= f) Q :=
  bind hp fun us a hus => by
    subst hus
    exact hf a

theorem peek {f : Token → Parse β} (hf : ∀ t, TakesAt t (f t) Q) : Takes (peek >>= f) Q := by
  intro s b s' hs
  rw [bind_run, peek_run] at hs
  exact hf s.head s b s' rfl hs

theorem current {f : PlacedToken → Parse β} (hf : ∀ t, TakesAt t.token (f t) Q) :
    Takes (current >>= f) Q := by
  intro s b s' hs
  rw [bind_run, current_run] at hs
  exact hf _ s b s' (token_headD s).symm hs

theorem fail (fault : ParseFault) : Takes (fail fault : Parse α) P :=
  current fun t => (failAt t.position fault).takesAt _

theorem unexpected (wanted : Expected) : Takes (unexpected wanted : Parse α) P :=
  current fun t => (failAt t.position _).takesAt _

theorem ite {c : Prop} [Decidable c] {q : Parse α} (hp : c → Takes p P) (hq : ¬ c → Takes q P) :
    Takes (if c then p else q) P := by
  split
  · exact hp ‹_›
  · exact hq ‹_›

theorem nest : Takes nest fun us _ => us = [] := by
  refine silent (p := get) (fun s a s' hs => ?_) fun s => ite (fun _ => fail _) fun _ => ?_
  · cases hs
    exact ⟨[], rfl, List.not_mem_nil, rfl⟩
  · intro s a s' hs
    cases hs
    exact ⟨[], rfl, List.not_mem_nil, rfl⟩

theorem leave : Takes leave fun us _ => us = [] := by
  intro s a s' hs
  cases hs
  exact ⟨[], rfl, List.not_mem_nil, rfl⟩

theorem remaining : Takes remaining fun us _ => us = [] := by
  intro s a s' hs
  cases hs
  exact ⟨[], rfl, List.not_mem_nil, rfl⟩

theorem nested (hp : Takes p P) : Takes (nested p) P :=
  silent nest fun _ => bind hp fun us a h => silent leave fun _ => pure (by rwa [List.append_nil])

theorem keepDepth (hp : Takes p P) : Takes (keepDepth p) P := by
  refine silent (p := get) (fun s a s' hs => ?_) fun s => bind hp fun us a h => silent ?_ fun _ => ?_
  · cases hs
    exact ⟨[], rfl, List.not_mem_nil, rfl⟩
  · intro s a s' hs
    cases hs
    exact ⟨[], rfl, List.not_mem_nil, rfl⟩
  · exact pure (by rwa [List.append_nil])

end Takes

namespace TakesAt

variable {α β : Type} {t : Token} {p : Parse α} {P : List Token → α → Prop}
  {Q : List Token → β → Prop}

theorem advance {f : Unit → Parse β} (ht : t ≠ .eof)
    (hf : Takes (f ()) fun vs b => Q (t :: vs) b) : TakesAt t (advance >>= f) Q := by
  intro s b s' hhead hs
  rw [bind_run, advance_run] at hs
  obtain ⟨vs, hvs, hev, hQ⟩ := hf _ b s' hs
  refine ⟨t :: vs, ?_, ?_, hQ⟩
  · rw [Cursor.eq_cons_of_headD hhead ht, List.cons_append, ← hvs]
    simp [Cursor.word]
  · rw [List.mem_cons]
    exact not_or.2 ⟨ht.symm, hev⟩

theorem ite {c : Prop} [Decidable c] {q : Parse α} (hp : c → TakesAt t p P)
    (hq : ¬ c → TakesAt t q P) : TakesAt t (if c then p else q) P := by
  split
  · exact hp ‹_›
  · exact hq ‹_›

end TakesAt

theorem expect_takes (token : Token) (ht : token ≠ .eof) (wanted : Expected) :
    Takes (expect token wanted) fun us _ => us = [token] :=
  .peek fun t => .ite
    (fun h => by
      subst h
      exact TakesAt.advance ht (.pure rfl))
    fun _ => (Takes.unexpected wanted).takesAt t

/-! ### Chains -/

open Grammar

/-- The parser's levels of operators are those of the grammar. -/
theorem levels_drop {n : Nat} (h : n < 6) : ∃ level, levels.drop n = level :: levels.drop (n + 1) ∧
    ∀ t op, level t = some op ↔ operator? t = some (n, op) := by
  have hn : n = 0 ∨ n = 1 ∨ n = 2 ∨ n = 3 ∨ n = 4 ∨ n = 5 := by omega
  rcases hn with rfl | rfl | rfl | rfl | rfl | rfl <;>
    exact ⟨_, rfl, fun t op => by cases t <;> simp [operator?]⟩

section Chains

variable {level : Level} {n : Nat} {operand : Parse Expression}

theorem operators_takes (hlevel : ∀ t op, level t = some op ↔ operator? t = some (n, op))
    (h : Takes operand (Chain (n + 1))) (fuel : Nat) (l : Expression) :
    Takes (operators level operand fuel l) (Operators n l) := by
  induction fuel generalizing l with
  | zero => exact .fail _
  | succ fuel ih =>
    refine .peek fun t => ?_
    cases hop : level t with
    | none => exact (Takes.pure .none).takesAt t
    | some op =>
      have hop := (hlevel t op).1 hop
      refine .advance (by rintro rfl; exact nomatch hop) (.silent .nest fun _ => ?_)
      exact .bind h fun us r hr => (ih _).mono fun vs e hvs => .next hop hr hvs

theorem chains_takes {k : Nat} (hk : n + k = 6) (h : Takes operand Unary) :
    Takes (chains operand (levels.drop n)) (Chain n) := by
  induction k generalizing n with
  | zero =>
    obtain rfl : n = 6 := hk
    exact h.mono fun us e hu => .operand hu
  | succ k ih =>
    obtain ⟨level, hdrop, hlevel⟩ := levels_drop (show n < 6 by omega)
    have hnext := ih (n := n + 1) (by omega)
    rw [hdrop]
    refine .keepDepth (.bind hnext fun us l hl => ?_)
    exact (operators_takes hlevel hnext _ l).mono fun vs e hvs => .operators (by omega) hl hvs

end Chains

/-! ### Operands -/

section Operands

variable {element : Parse Expression} (h : Takes element (Chain 0))
include h

theorem arguments_takes (fuel : Nat) : Takes (arguments element fuel) fun us es =>
    ∃ ts, us = ts ++ [.rightParen] ∧ Sequence ts es := by
  induction fuel with
  | zero => exact .unexpected _
  | succ fuel ih =>
    refine .bind h fun us e he => .peek fun t => ?_
    split
    · refine .advance nofun (.bind ih fun vs es hes => .pure ?_)
      obtain ⟨ts, rfl, hts⟩ := hes
      exact ⟨us ++ .comma :: ts, by simp, .more he hts⟩
    · exact .advance nofun (.pure ⟨us, by simp, .one he⟩)
    · exact (Takes.unexpected _).takesAt _

theorem items_takes (fuel : Nat) : Takes (items element fuel) fun us es =>
    ∃ ts, us = ts ++ [.rightBracket] ∧ Items ts es := by
  induction fuel with
  | zero => exact .unexpected _
  | succ fuel ih =>
    refine .peek fun t => .ite (fun ht => ?_) fun _ => Takes.takesAt (.bind h fun us e he => .peek fun t => ?_) _
    · subst ht
      exact .advance nofun (.pure ⟨[], rfl, .none⟩)
    · split
      · refine .advance nofun (.bind ih fun vs es hes => .pure ?_)
        obtain ⟨ts, rfl, hts⟩ := hes
        exact ⟨us ++ .comma :: ts, by simp, .cons he hts⟩
      · refine .advance nofun (.pure ⟨us, by simp, ?_⟩)
        have hone := Items.some (.one he) (.inl rfl)
        rwa [List.append_nil] at hone
      · exact (Takes.unexpected _).takesAt _

omit h in
theorem key_takes (seen : List String) :
    Takes (key seen) fun us k => ∃ t, us = [t] ∧ key? t = some k ∧ k ∉ seen := by
  refine .current fun t => ?_
  have hread {k : String} (hk : key? t.token = some k) : TakesAt t.token (do
      advance
      if k ∈ seen then failAt t.position (.repeatedKey k) else return k)
      fun us k => ∃ t, us = [t] ∧ key? t = some k ∧ k ∉ seen := by
    refine .advance (by rintro he; rw [he] at hk; exact nomatch hk) (.ite (fun _ => .failAt _ _) fun hseen => ?_)
    exact .pure ⟨_, rfl, hk, hseen⟩
  split
  · rename_i ht
    rw [ht] at hread ⊢
    exact hread rfl
  · rename_i ht
    rw [ht] at hread ⊢
    exact hread rfl
  · exact (Takes.unexpected _).takesAt _

theorem fields_takes (fuel : Nat) (seen : List String) : Takes (fields element fuel seen) fun us fs =>
    ∃ ts, us = ts ++ [.rightBrace] ∧ Entries ts fs ∧ (fs.map Prod.fst).Nodup ∧
      ∀ k ∈ fs.map Prod.fst, k ∉ seen := by
  induction fuel generalizing seen with
  | zero => exact .unexpected _
  | succ fuel ih =>
    refine .peek fun t => .ite (fun ht => ?_) fun _ => Takes.takesAt (.bind (key_takes seen) ?_) _
    · subst ht
      exact .advance nofun (.pure ⟨[], rfl, .none, List.nodup_nil, nofun⟩)
    · rintro us k ⟨t, rfl, hk, hseen⟩
      refine .bind (expect_takes .colon nofun _) ?_
      rintro us - rfl
      refine .bind h fun us e he => .peek fun t' => ?_
      split
      · refine .advance nofun (.bind (ih (k :: seen)) fun vs fs hfs => .pure ?_)
        obtain ⟨ts, rfl, hts, hnodup, hfresh⟩ := hfs
        refine ⟨t :: .colon :: (us ++ .comma :: ts), by simp, .cons hk he hts, ?_, ?_⟩
        · rw [List.map_cons, List.nodup_cons]
          exact ⟨fun hmem => hfresh k hmem List.mem_cons_self, hnodup⟩
        · intro k' hk'
          rcases List.mem_cons.1 hk' with rfl | hk'
          · exact hseen
          · exact fun hmem => hfresh k' hk' (List.mem_cons_of_mem _ hmem)
      · refine .advance nofun (.pure ⟨t :: .colon :: us, by simp, ?_, List.nodup_singleton k, ?_⟩)
        · have hone := Entries.some (.one hk he) (.inl rfl)
          rwa [List.append_nil] at hone
        · intro k' hk'
          rw [List.mem_singleton.1 hk']
          exact hseen
      · exact (Takes.unexpected _).takesAt _

theorem callArguments_takes : Takes (callArguments element) fun us es =>
    ∃ ts, us = ts ++ [.rightParen] ∧ Arguments ts es := by
  refine .peek fun t => .ite (fun ht => ?_) fun _ => Takes.takesAt (.silent .remaining fun k => ?_) _
  · subst ht
    exact .advance nofun (.pure ⟨[], rfl, .none⟩)
  · refine (arguments_takes h k).mono fun us es hes => ?_
    obtain ⟨ts, rfl, hts⟩ := hes
    exact ⟨ts, rfl, .some hts⟩

theorem wordForm_takes (name : String) (position : Nat) :
    TakesAt (.word name) (wordForm element name position) Primary := by
  have hconstant {e : Expression} (hk : keyword? name = some e) :
      Takes (pure e : Parse Expression) fun us e => Primary (.word name :: us) e :=
    .pure (.constant hk)
  refine .advance nofun (.ite ?_ fun h₁ => .ite ?_ fun h₂ => .ite ?_ fun h₃ => .ite ?_ fun h₄ => ?_)
  · rintro rfl
    exact hconstant rfl
  · rintro rfl
    exact hconstant rfl
  · rintro rfl
    exact hconstant rfl
  · rintro rfl
    exact hconstant rfl
  · have hfree : keyword? name = none := keyword?_eq_none_iff.2 ⟨h₁, h₂, h₃, h₄⟩
    refine .peek fun t => .ite (fun ht => ?_) fun _ => (Takes.failAt _ _).takesAt _
    subst ht
    refine .advance nofun (.bind (callArguments_takes h) fun us es hes => .pure ?_)
    obtain ⟨ts, rfl, hts⟩ := hes
    have hcall := Primary.call hfree hts
    simpa using hcall

theorem primary_takes : Takes (primary element) Primary := by
  refine .current fun t => ?_
  split
  · rename_i ht
    rw [ht]
    exact .advance nofun (.pure (.constant rfl))
  · rename_i ht
    rw [ht]
    exact .advance nofun (.pure (.constant rfl))
  · rename_i ht
    rw [ht]
    exact .advance nofun (.pure (.constant rfl))
  · rename_i ht
    rw [ht]
    exact .advance nofun (.pure (.constant rfl))
  · rename_i ht
    rw [ht]
    refine .advance nofun (.peek fun t => ?_)
    split
    · exact .ite (fun _ => (Takes.unexpected _).takesAt _) fun hid =>
        .advance nofun (.pure (.entity hid))
    · exact (Takes.unexpected _).takesAt _
  · rename_i ht
    rw [ht]
    refine .advance nofun (.bind h fun us e he => .bind (expect_takes .rightParen nofun _) ?_)
    rintro vs - rfl
    exact .pure (by simpa using Primary.group he)
  · rename_i ht
    rw [ht]
    refine .advance nofun (.silent .remaining fun k => .bind (items_takes h k) fun us es hes => ?_)
    obtain ⟨ts, rfl, hts⟩ := hes
    exact .pure (by simpa using Primary.list hts)
  · rename_i ht
    rw [ht]
    refine .advance nofun (.silent .remaining fun k => .bind (fields_takes h k []) fun us fs hfs => ?_)
    obtain ⟨ts, rfl, hts, hnodup, -⟩ := hfs
    exact .pure (by simpa using Primary.record hts hnodup)
  · rename_i ht
    rw [ht]
    exact wordForm_takes h _ _
  · exact (Takes.unexpected _).takesAt _

omit h in
theorem members_takes (fuel : Nat) (o : Expression) : Takes (members fuel o) (Members o) := by
  induction fuel generalizing o with
  | zero => exact .fail _
  | succ fuel ih =>
    refine .peek fun t => .ite (fun ht => ?_) fun _ => (Takes.pure .none).takesAt _
    subst ht
    refine .advance nofun (.silent .nest fun _ => .peek fun t => ?_)
    split
    · exact .advance nofun ((ih _).mono fun vs e hvs => .next hvs)
    · exact (Takes.unexpected _).takesAt _

theorem access_takes : Takes (access element) Unary :=
  .keepDepth (.bind (primary_takes h) fun _ o ho =>
    (members_takes _ o).mono fun _ _ hvs => .access ho hvs)

theorem unary_takes (fuel : Nat) : Takes (unary element fuel) Unary := by
  induction fuel with
  | zero => exact .fail _
  | succ fuel ih =>
    refine .nested (.peek fun t => ?_)
    split
    · exact .advance nofun (.bind ih fun us e he => .pure (by simpa using Unary.not he))
    · exact .advance nofun (.bind ih fun us e he => .pure (by simpa using Unary.neg he))
    · exact (access_takes h).takesAt _

end Operands

/-! ### Formulas -/

theorem expression_takes (fuel : Nat) : Takes (expression fuel) (Chain 0) := by
  induction fuel with
  | zero => exact .fail _
  | succ fuel ih => exact chains_takes (n := 0) (k := 6) rfl (unary_takes ih _)

end Parse

end EntityFormulas
