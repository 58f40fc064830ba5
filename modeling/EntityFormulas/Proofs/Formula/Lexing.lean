/-
  EntityFormulas/Proofs/Formula/Lexing.lean
  =========================================
  **The tokens of a text without their positions.**

  `Lexes` says which tokens stand in a list of characters.  Blanks at both ends
  change nothing about them, and positions nothing about what is read, so a formula
  that is read is also read without the blanks around it (`parse_trim`).
-/
import EntityFormulas.Proofs.Formula.Positions
import EntityFormulas.Proofs.Formula.Scanning
import Mathlib.Data.List.TakeWhile

namespace EntityFormulas

open Text

namespace Token

/-! ### All tokens -/

/-- The tokens of a text, without the end of input. -/
inductive Lexes : List Char → List Token → Prop
  | done : Lexes [] []
  | blank {c : Char} {cs : List Char} {ts : List Token} (hc : isBlank c = true)
      (rest : Lexes cs ts) : Lexes (c :: cs) ts
  | token {c : Char} {cs : List Char} {t : Token} {k : Nat} {ts : List Token}
      (hc : isBlank c = false) (first : scan c cs = .ok (t, k)) (rest : Lexes (cs.drop k) ts) :
      Lexes (c :: cs) (t :: ts)

theorem tokensFrom_lexes {position skip : Nat} {cs : List Char} {ts : List PlacedToken}
    (h : tokensFrom position skip cs = .ok ts) :
    ∃ word, ts.map PlacedToken.token = word ++ [.eof] ∧ Lexes (cs.drop skip) word := by
  induction cs generalizing position skip ts with
  | nil =>
    cases h
    rw [List.drop_nil]
    exact ⟨[], rfl, .done⟩
  | cons c cs ih =>
    unfold tokensFrom at h
    split at h
    · exact ih h
    · split at h
      · rename_i hc
        obtain ⟨word, hword, hlexes⟩ := ih h
        exact ⟨word, hword, .blank hc hlexes⟩
      · rename_i hc
        split at h
        · exact nomatch h
        · rename_i t k hscan
          cases hrest : tokensFrom (position + 1) k cs with
          | error e =>
            rw [hrest] at h
            exact nomatch h
          | ok us =>
            rw [hrest] at h
            cases h
            obtain ⟨word, hword, hlexes⟩ := ih hrest
            refine ⟨t :: word, ?_, .token (Bool.eq_false_iff.2 hc) hscan hlexes⟩
            rw [List.map_cons, hword]
            rfl

theorem tokensFrom_drop {k : Nat} {cs : List Char} (h : k ≤ cs.length) (position : Nat) :
    tokensFrom position k cs = tokensFrom (position + k) 0 (cs.drop k) := by
  induction k generalizing position cs with
  | zero => rfl
  | succ k ih =>
    cases cs with
    | nil => exact absurd h (Nat.not_succ_le_zero k)
    | cons c cs =>
      rw [List.drop_succ_cons, show position + (k + 1) = position + 1 + k by omega]
      exact ih (Nat.le_of_succ_le_succ h) (position + 1)

theorem Lexes.tokensFrom {cs : List Char} {word : List Token} (h : Lexes cs word)
    (position : Nat) : ∃ ts, tokensFrom position 0 cs = .ok ts ∧
      ts.map PlacedToken.token = word ++ [.eof] := by
  induction h generalizing position with
  | done => exact ⟨[⟨.eof, position⟩], rfl, rfl⟩
  | blank hc rest ih =>
    obtain ⟨ts, hts, hword⟩ := ih (position + 1)
    refine ⟨ts, ?_, hword⟩
    unfold Token.tokensFrom
    rwa [if_pos hc]
  | token hc first rest ih =>
    rename_i c cs t k word
    obtain ⟨ts, hts, hword⟩ := ih (position + 1 + k)
    refine ⟨⟨t, position⟩ :: ts, ?_, by rw [List.map_cons, hword]; rfl⟩
    unfold Token.tokensFrom
    dsimp only
    rw [if_neg (Bool.eq_false_iff.1 hc), first]
    dsimp only
    rw [tokensFrom_drop (scan_le first), hts]
    rfl

theorem Lexes.of_blanks_append {lead cs : List Char} {word : List Token}
    (hlead : ∀ c ∈ lead, isBlank c = true) (h : Lexes (lead ++ cs) word) : Lexes cs word := by
  induction lead with
  | nil => exact h
  | cons c lead ih =>
    have hc := hlead c List.mem_cons_self
    cases h with
    | blank _ rest => exact ih (fun d hd => hlead d (List.mem_cons_of_mem _ hd)) rest
    | token hc' first rest => exact absurd hc (Bool.eq_false_iff.1 hc')

theorem Lexes.of_append_blanks {cs trail : List Char} {word : List Token}
    (htrail : ∀ c ∈ trail, isBlank c = true) (h : Lexes (cs ++ trail) word) : Lexes cs word := by
  generalize hall : cs ++ trail = all at h
  induction h generalizing cs with
  | done =>
    rw [(List.append_eq_nil_iff.1 hall).1]
    exact .done
  | blank hc rest ih =>
    cases cs with
    | nil =>
      have hblanks := Lexes.blank hc rest
      rw [← hall, List.nil_append, ← List.append_nil trail] at hblanks
      exact hblanks.of_blanks_append htrail
    | cons d cs =>
      obtain ⟨rfl, hrest⟩ := List.cons.inj hall
      exact .blank hc (ih hrest)
  | token hc first rest ih =>
    cases cs with
    | nil =>
      subst hall
      exact absurd (htrail _ List.mem_cons_self) (Bool.eq_false_iff.1 hc)
    | cons d cs =>
      obtain ⟨rfl, rfl⟩ := List.cons.inj hall
      have hfirst := scan_of_append_blanks htrail first
      exact .token hc hfirst (ih (List.drop_append_of_le_length (scan_le hfirst)).symm)

end Token

/-! ### Trimming -/

namespace Text

/-- Trimming takes blanks off both ends. -/
theorem trimBlanks_eq (cs : List Char) : ∃ lead trail, cs = lead ++ trimBlanks cs ++ trail ∧
    (∀ c ∈ lead, isBlank c = true) ∧ ∀ c ∈ trail, isBlank c = true := by
  refine ⟨cs.takeWhile isBlank, ((cs.dropWhile isBlank).reverse.takeWhile isBlank).reverse,
    ?_, fun c hc => List.mem_takeWhile_imp hc, fun c hc => ?_⟩
  · unfold trimBlanks
    rw [List.append_assoc, ← List.reverse_append, List.takeWhile_append_dropWhile,
      List.reverse_reverse, List.takeWhile_append_dropWhile]
  · exact List.mem_takeWhile_imp (List.mem_reverse.1 hc)

end Text

/-- A formula can be read without the blanks around it. -/
theorem Expression.parse_trim {source : String} {e : Expression}
    (h : Expression.parse source = .ok e) : Expression.parse (Text.trim source) = .ok e := by
  unfold Expression.parse at h ⊢
  cases htokens : Token.tokens source with
  | error x =>
    rw [htokens] at h
    exact nomatch h
  | ok ts =>
    rw [htokens] at h
    obtain ⟨word, hword, hlexes⟩ := Token.tokensFrom_lexes htokens
    obtain ⟨lead, trail, hsource, hlead, htrail⟩ := trimBlanks_eq source.toList
    rw [List.drop_zero, hsource, List.append_assoc] at hlexes
    have hmiddle := (hlexes.of_blanks_append hlead).of_append_blanks htrail
    obtain ⟨ts', hts', hword'⟩ := hmiddle.tokensFrom 0
    have htrimmed : Token.tokens (Text.trim source) = .ok ts' := by
      unfold Token.tokens Text.trim
      rwa [String.toList_ofList]
    rw [htrimmed]
    rcases Expression.ofTokens_congr (hword.trans hword'.symm) with ⟨e', he, he'⟩ | ⟨_, _, _, he, _⟩
    · have heq : Expression.ofTokens ts = .ok e := h
      rw [he] at heq
      cases heq
      exact he'
    · have heq : Expression.ofTokens ts = .ok e := h
      rw [he] at heq
      exact nomatch heq

end EntityFormulas
