/-
  EntityFormulas/Proofs/Formula/Spans.lean
  ========================================
  **Every character belongs to one token or is blank.**

  A `Span` is a token with the range of characters that it was read from.  How far a
  token reaches is decided by the characters behind it, but what it is, is not: cut
  off behind its last character, it is read the same (`scan_take`).  The one token
  that is looked for first, the entity id, cannot come about by the cut, because no
  other token has hyphens where it has them (`startsEntityId_take`).

  `Spanned` says which spans stand in a text.  They come from reading its tokens
  (`tokensFrom_spanned`), and their order, the blanks between them and what each is
  alone follow by induction on it.
-/
import EntityFormulas.Proofs.Formula.Lexing

namespace EntityFormulas

open Text

theorem Leads.of_getElem? {p : Char → Bool} {n i : Nat} {c : Char} {cs : List Char}
    (h : Leads p n cs) (hi : i < n) (hc : cs[i]? = some c) : p c = true := by
  refine h.2 c (List.mem_of_getElem? (i := i) ?_)
  rwa [List.getElem?_take_of_lt hi]

namespace Token

/-! ### Cutting off what follows -/

theorem takeWhile_take {p : Char → Bool} {cs : List Char} {n : Nat}
    (h : (cs.takeWhile p).length ≤ n) : (cs.take n).takeWhile p = cs.takeWhile p := by
  rw [← List.take_takeWhile, List.take_of_length_le h]

theorem isEntityIdFrom_take {place : Nat} (hplace : place ≤ entityIdLength) {cs : List Char}
    (h : isEntityIdFrom place cs = true) :
    isEntityIdFrom place (cs.take (entityIdLength - place)) = true := by
  induction cs generalizing place with
  | nil => rwa [List.take_nil]
  | cons c cs ih =>
    unfold isEntityIdFrom at h
    split at h
    · rename_i hlt
      rw [Bool.and_eq_true] at h
      rw [show entityIdLength - place = entityIdLength - (place + 1) + 1 by omega,
        List.take_succ_cons]
      unfold isEntityIdFrom
      rw [if_pos hlt, h.1, ih hlt h.2]
      rfl
    · rename_i hlt
      obtain rfl : place = entityIdLength := by omega
      rw [Nat.sub_self]
      rfl

theorem quotedText_take {mark : Char} {cs content : List Char} {k : Nat}
    (h : quotedText mark cs = .ok (content, k)) :
    quotedText mark (cs.take k) = .ok (content, k) := by
  induction cs using quotedText.induct mark generalizing content k with
  | case1 => cases h
  | case2 cs =>
    rw [quotedText_close] at h
    cases h
    exact quotedText_close _ _
  | case3 hmark =>
    rw [quotedText_lone_escape hmark] at h
    cases h
  | case4 e rest hmark ih =>
    rw [quotedText_escape hmark] at h
    obtain ⟨r, hr, heq⟩ := map_ok h
    cases heq
    rw [List.take_succ_cons, List.take_succ_cons, quotedText_escape hmark, ih hr]
    rfl
  | case5 c cs hmark hescape ih =>
    rw [quotedText_other hmark hescape] at h
    obtain ⟨r, hr, heq⟩ := map_ok h
    cases heq
    rw [List.take_succ_cons, quotedText_other hmark hescape, ih hr]
    rfl

theorem fractionAt_take {cs : List Char} {n : Nat}
    (h : (if (fractionAt cs).isEmpty then 0 else (fractionAt cs).length + 1) ≤ n) :
    fractionAt (cs.take n) = fractionAt cs := by
  cases n with
  | zero =>
    split at h
    · rename_i hempty
      rw [List.isEmpty_iff.1 hempty]
      rfl
    · exact absurd h (Nat.not_succ_le_zero _)
  | succ n =>
    cases cs with
    | nil => rfl
    | cons c cs =>
      rw [List.take_succ_cons]
      by_cases hc : c = '.'
      · subst hc
        refine takeWhile_take (p := isDigit) ?_
        have hfraction : fractionAt ('.' :: cs) = cs.takeWhile isDigit := rfl
        rw [hfraction] at h
        split at h
        · rename_i hempty
          rw [List.isEmpty_iff.1 hempty]
          exact Nat.zero_le n
        · exact Nat.le_of_succ_le_succ h
      · have hnone (rest : List Char) : fractionAt (c :: rest) = [] := by
          unfold fractionAt
          split
          · rename_i heq
            exact absurd (List.cons.inj heq).1 hc
          · rfl
        rw [hnone, hnone]

theorem signedDigits_cons {c : Char} (hminus : c ≠ '-') (hplus : c ≠ '+') (cs : List Char) :
    signedDigits (c :: cs) = (false, 0, (c :: cs).takeWhile isDigit) := by
  apply signedDigits_unsigned
  intro rest
  constructor
  · intro h
    exact hminus (List.cons.inj h).1
  · intro h
    exact hplus (List.cons.inj h).1

theorem signedDigits_take {cs : List Char} {n : Nat}
    (h : (signedDigits cs).2.1 + (signedDigits cs).2.2.length ≤ n) :
    signedDigits (cs.take n) = signedDigits cs := by
  cases cs with
  | nil => rw [List.take_nil]
  | cons c cs =>
    by_cases hminus : c = '-'
    · subst hminus
      have h : 1 + (cs.takeWhile isDigit).length ≤ n := h
      obtain ⟨m, rfl⟩ : ∃ m, n = m + 1 := ⟨n - 1, by omega⟩
      exact congrArg (fun digits => (true, 1, digits)) (takeWhile_take (by omega))
    · by_cases hplus : c = '+'
      · subst hplus
        have h : 1 + (cs.takeWhile isDigit).length ≤ n := h
        obtain ⟨m, rfl⟩ : ∃ m, n = m + 1 := ⟨n - 1, by omega⟩
        exact congrArg (fun digits => (false, 1, digits)) (takeWhile_take (by omega))
      · rw [signedDigits_cons hminus hplus] at h ⊢
        rw [Nat.zero_add] at h
        have hdigits := takeWhile_take h
        cases n with
        | zero => rw [← hdigits]; rfl
        | succ n =>
          rw [List.take_succ_cons] at hdigits ⊢
          rw [signedDigits_cons hminus hplus, hdigits]

/-- Fewer characters make no digits behind a sign where there were none. -/
theorem signedDigits_take_nil {cs : List Char} (h : (signedDigits cs).2.2 = []) (n : Nat) :
    (signedDigits (cs.take n)).2.2 = [] := by
  cases n with
  | zero => rfl
  | succ n =>
    by_cases hle : (signedDigits cs).2.1 ≤ n + 1
    · rw [signedDigits_take (by rwa [h]), h]
    · exfalso
      apply hle
      unfold signedDigits
      split <;> simp

theorem exponentAt_take {cs : List Char} {n : Nat} (h : (exponentAt cs).2.2 ≤ n) :
    exponentAt (cs.take n) = exponentAt cs := by
  cases cs with
  | nil => rw [List.take_nil]
  | cons e cs =>
    rw [exponentAt_cons] at h ⊢
    cases n with
    | zero =>
      split at h
      · rename_i he
        split at h
        · rename_i hempty
          rw [if_pos he, if_pos hempty]
          rfl
        · exact absurd h (by dsimp only; omega)
      · rename_i he
        rw [if_neg he]
        rfl
    | succ n =>
      rw [List.take_succ_cons, exponentAt_cons]
      split
      · rename_i he
        rw [if_pos he] at h
        split at h
        · rename_i hempty
          rw [if_pos hempty, signedDigits_take_nil (List.isEmpty_iff.1 hempty)]
          rfl
        · rename_i hempty
          dsimp only at h
          rw [signedDigits_take (by omega)]
      · rfl

theorem decimalAt_take (cs : List Char) :
    decimalAt (cs.take (decimalAt cs).2) = decimalAt cs := by
  generalize hwhole : (cs.takeWhile isDigit).length = w
  generalize hfraction : (if (fractionAt (cs.drop w)).isEmpty then 0
    else (fractionAt (cs.drop w)).length + 1) = f
  generalize hexponent : (exponentAt ((cs.drop w).drop f)).2.2 = e
  have hlength : (decimalAt cs).2 = w + f + e := by
    unfold decimalAt
    simp only [hwhole, hfraction, hexponent]
  have hdigits : (cs.take (w + f + e)).takeWhile isDigit = cs.takeWhile isDigit :=
    takeWhile_take (by omega)
  have hrest : (cs.take (w + f + e)).drop w = (cs.drop w).take (f + e) := by
    rw [List.drop_take]
    congr 1
    omega
  have hpoint : fractionAt ((cs.drop w).take (f + e)) = fractionAt (cs.drop w) :=
    fractionAt_take (by omega)
  have hpower : exponentAt (((cs.drop w).take (f + e)).drop f) =
      exponentAt ((cs.drop w).drop f) := by
    rw [List.drop_take, Nat.add_sub_cancel_left]
    exact exponentAt_take (by omega)
  rw [hlength]
  unfold decimalAt
  simp only [hdigits, hwhole, hrest, hpoint, hfraction, hpower]

theorem operatorAt_take {c : Char} {cs : List Char} {t : Token} {k : Nat}
    (h : operatorAt c cs = some (t, k)) : operatorAt c (cs.take k) = some (t, k) := by
  unfold operatorAt at h
  cases htwo : cs.head?.bind (operator2 c) with
  | some t' =>
    rw [htwo] at h
    cases h
    cases cs with
    | nil => exact nomatch htwo
    | cons d cs =>
      unfold operatorAt
      rw [List.take_succ_cons, List.head?_cons]
      rw [List.head?_cons] at htwo
      rw [htwo]
  | none =>
    rw [htwo] at h
    obtain ⟨t', ht', heq⟩ := Option.map_eq_some_iff.1 h
    cases heq
    unfold operatorAt
    rw [List.take_zero, List.head?_nil, ht']
    rfl

theorem operatorAt_take_none {c : Char} {cs : List Char} (h : operatorAt c cs = none) (n : Nat) :
    operatorAt c (cs.take n) = none := by
  unfold operatorAt at h
  cases htwo : cs.head?.bind (operator2 c) with
  | some t =>
    rw [htwo] at h
    exact nomatch h
  | none =>
    rw [htwo] at h
    have hcut : (cs.take n).head?.bind (operator2 c) = none := by
      cases n with
      | zero => rfl
      | succ n => rwa [List.head?_take, if_neg (Nat.succ_ne_zero n)]
    unfold operatorAt
    rw [hcut]
    exact h

/-! ### Entity ids -/

theorem isEntityIdFrom_getElem? {place : Nat} {cs : List Char}
    (h : isEntityIdFrom place cs = true) {i : Nat} (hi : place + i < entityIdLength) :
    ∃ c, cs[i]? = some c ∧ fitsEntityId (place + i) c = true := by
  induction cs generalizing place i with
  | nil =>
    obtain rfl : place = entityIdLength := by simpa [isEntityIdFrom] using h
    omega
  | cons c cs ih =>
    unfold isEntityIdFrom at h
    rw [if_pos (by omega), Bool.and_eq_true] at h
    cases i with
    | zero => exact ⟨c, rfl, h.1⟩
    | succ i =>
      obtain ⟨d, hd, hfits⟩ := ih h.2 (show place + 1 + i < entityIdLength by omega)
      refine ⟨d, hd, ?_⟩
      rwa [show place + (i + 1) = place + 1 + i by omega]

/-- The first two hyphens of an entity id. -/
theorem startsEntityId_hyphens {cs : List Char} (h : startsEntityId cs = true) :
    cs[8]? = some '-' ∧ cs[13]? = some '-' := by
  have hplace {i : Nat} (hi : i = 8 ∨ i = 13) : cs[i]? = some '-' := by
    obtain ⟨c, hc, hfits⟩ := isEntityIdFrom_getElem? h (i := i) (by unfold entityIdLength; omega)
    unfold fitsEntityId at hfits
    rw [if_pos (by omega)] at hfits
    rw [hc, eq_of_beq hfits]
  exact ⟨hplace (.inl rfl), hplace (.inr rfl)⟩

theorem startsEntityId_head {c : Char} {cs : List Char} (h : startsEntityId (c :: cs) = true) :
    isHexDigit c = true := by
  obtain ⟨d, hd, hfits⟩ := isEntityIdFrom_getElem? h (i := 0) (by decide)
  cases hd
  exact hfits

/-- Behind its first character, what follows the letter of an exponent is digits. -/
theorem signedDigits_digit {cs : List Char} {i : Nat} {c : Char}
    (hi : i + 1 < (signedDigits cs).2.1 + (signedDigits cs).2.2.length)
    (hc : cs[i + 1]? = some c) : isDigit c = true := by
  cases cs with
  | nil => exact nomatch hc
  | cons d cs =>
    rw [List.getElem?_cons_succ] at hc
    by_cases hminus : d = '-'
    · subst hminus
      have hi : i + 1 < 1 + (cs.takeWhile isDigit).length := hi
      exact Leads.of_getElem? (.takeWhile _ _) (by omega) hc
    · by_cases hplus : d = '+'
      · subst hplus
        have hi : i + 1 < 1 + (cs.takeWhile isDigit).length := hi
        exact Leads.of_getElem? (.takeWhile _ _) (by omega) hc
      · rw [signedDigits_cons hminus hplus, Nat.zero_add] at hi
        exact Leads.of_getElem? (.takeWhile _ (d :: cs)) hi hc

/-- In an exponent a hyphen stands at most behind the letter. -/
theorem exponentAt_hyphen {cs : List Char} {i : Nat} (hi : i < (exponentAt cs).2.2)
    (h : cs[i]? = some '-') : i = 1 := by
  cases cs with
  | nil => exact nomatch h
  | cons e cs =>
    rw [exponentAt_cons] at hi
    split at hi
    · rename_i he
      split at hi
      · exact absurd hi (Nat.not_lt_zero i)
      · dsimp only at hi
        match i, hi, h with
        | 0, _, h =>
          cases h
          exact absurd he (by decide)
        | 1, _, _ => rfl
        | i + 2, hi, h =>
          rw [List.getElem?_cons_succ] at h
          exact absurd (signedDigits_digit (by omega) h) (by decide)
    · exact absurd hi (Nat.not_lt_zero i)

/-- A number has at most one hyphen. -/
theorem decimalAt_hyphen (cs : List Char) :
    ∃ n, ∀ i, i < (decimalAt cs).2 → cs[i]? = some '-' → i = n := by
  generalize hwhole : (cs.takeWhile isDigit).length = w
  generalize hfraction : (if (fractionAt (cs.drop w)).isEmpty then 0
    else (fractionAt (cs.drop w)).length + 1) = f
  have hlength : (decimalAt cs).2 = w + f + (exponentAt ((cs.drop w).drop f)).2.2 := by
    unfold decimalAt
    simp only [hwhole, hfraction]
  refine ⟨w + f + 1, ?_⟩
  intro i hi h
  rw [hlength] at hi
  by_cases hdigit : i < w
  · rw [← hwhole] at hdigit
    exact absurd (Leads.of_getElem? (.takeWhile _ _) hdigit h) (by decide)
  · obtain ⟨j, rfl⟩ : ∃ j, i = w + j := ⟨i - w, by omega⟩
    rw [← List.getElem?_drop] at h
    by_cases hpoint : j < f
    · have hleads := fractionAt_leads (cs.drop w)
      rw [hfraction] at hleads
      exact absurd (hleads.of_getElem? hpoint h) (by decide)
    · obtain ⟨l, rfl⟩ : ∃ l, j = f + l := ⟨j - f, by omega⟩
      rw [← List.getElem?_drop] at h
      have := exponentAt_hyphen (by omega) h
      omega

theorem operatorAt_not_hexDigit {c : Char} {cs : List Char} {found : Token × Nat}
    (h : operatorAt c cs = some found) : isHexDigit c = false := by
  unfold operatorAt at h
  cases htwo : cs.head?.bind (operator2 c) with
  | some t =>
    obtain ⟨d, -, hd⟩ := Option.bind_eq_some_iff.1 htwo
    unfold operator2 at hd
    split at hd <;> first | rfl | exact nomatch hd
  | none =>
    rw [htwo] at h
    obtain ⟨t, ht, -⟩ := Option.map_eq_some_iff.1 h
    unfold operator1 at ht
    split at ht <;> first | rfl | exact nomatch ht

/-- Cut off behind a token of another kind, the text does not start with an entity id either. -/
theorem startsEntityId_take {c : Char} {cs : List Char} {t : Token} {k : Nat}
    (h : scan c cs = .ok (t, k)) : startsEntityId (c :: cs.take k) = startsEntityId (c :: cs) := by
  unfold scan at h
  split at h
  · rename_i hid
    cases h
    rw [hid]
    exact isEntityIdFrom_take (Nat.zero_le _) hid
  · rename_i hid
    rw [Bool.not_eq_true] at hid
    rw [hid, Bool.eq_false_iff]
    intro hcut
    have hhex := startsEntityId_head hcut
    obtain ⟨h8, h13⟩ := startsEntityId_hyphens hcut
    split at h
    · rename_i hmark
      rcases hmark with rfl | rfl <;> exact absurd hhex (by decide)
    · split at h
      · rename_i hdigit
        have heq : Except.ok (.number (decimalAt (c :: cs)).1.nearest, (decimalAt (c :: cs)).2 - 1) =
          Except.ok (t, k) := h
        obtain ⟨-, rfl⟩ := Prod.mk.inj (Except.ok.inj heq)
        have hpos : 1 ≤ (decimalAt (c :: cs)).2 := decimalAt_pos hdigit
        rw [← List.take_succ_cons, Nat.sub_add_cancel hpos] at h8 h13
        obtain ⟨n, hn⟩ := decimalAt_hyphen (c :: cs)
        have hwithin {i : Nat} (hi : ((c :: cs).take (decimalAt (c :: cs)).2)[i]? = some '-') :
            i = n := by
          rw [List.getElem?_take] at hi
          split at hi
          · exact hn i ‹_› hi
          · exact nomatch hi
        have := hwithin h8
        have := hwithin h13
        omega
      · split at h
        · rename_i hhash
          subst hhash
          exact absurd hhex (by decide)
        · split at h
          · rename_i found hop
            rw [operatorAt_not_hexDigit hop] at hhex
            exact nomatch hhex
          · split at h
            · cases h
              rw [List.getElem?_cons_succ, List.getElem?_take] at h8
              split at h8
              · rename_i hlt
                exact absurd (Leads.of_getElem? (.takeWhile _ _) hlt h8) (by decide)
              · exact nomatch h8
            · exact nomatch h

/-- A token does not depend on what follows it. -/
theorem scan_take {c : Char} {cs : List Char} {t : Token} {k : Nat} (h : scan c cs = .ok (t, k)) :
    scan c (cs.take k) = .ok (t, k) := by
  have hid := startsEntityId_take h
  unfold scan at h ⊢
  rw [hid]
  split at h
  · rename_i hstarts
    rw [if_pos hstarts]
    cases h
    rw [← List.take_succ_cons, List.take_take]
    rfl
  · rename_i hstarts
    rw [if_neg hstarts]
    split at h
    · rename_i hmark
      rw [if_pos hmark]
      obtain ⟨⟨content, k'⟩, hquoted, heq⟩ := map_ok h
      cases heq
      rw [quotedText_take hquoted]
      rfl
    · rename_i hmark
      rw [if_neg hmark]
      split at h
      · rename_i hdigit
        rw [if_pos hdigit]
        have heq : Except.ok (.number (decimalAt (c :: cs)).1.nearest, (decimalAt (c :: cs)).2 - 1) =
          Except.ok (t, k) := h
        obtain ⟨rfl, rfl⟩ := Prod.mk.inj (Except.ok.inj heq)
        rw [← List.take_succ_cons, Nat.sub_add_cancel (decimalAt_pos hdigit), decimalAt_take]
      · rename_i hdigit
        rw [if_neg hdigit]
        split at h
        · rename_i hhash
          rw [if_pos hhash]
          dsimp only at h ⊢
          have hname : k = (cs.takeWhile isNameChar).length := by
            split at h
            · cases h
            · rename_i heq
              split at h
              · cases h
                rfl
              · cases h
          rw [hname, takeWhile_take (Nat.le_refl _)]
          exact hname ▸ h
        · rename_i hhash
          rw [if_neg hhash]
          split at h
          · rename_i found hop
            cases h
            rw [operatorAt_take hop]
          · rename_i hop
            rw [operatorAt_take_none hop]
            split at h
            · rename_i hstart
              cases h
              rw [if_pos hstart, takeWhile_take (Nat.le_refl _)]
            · cases h

/-! ### Spans -/

/-- A token with the range of characters that it was read from. -/
structure Span where
  token : Token
  start : Nat
  /-- The position behind the last character. -/
  stop : Nat
deriving DecidableEq, Repr

namespace Span

/-- The token at its recorded position. -/
def placed (s : Span) : PlacedToken := ⟨s.token, s.start⟩

/-- Whether the character at a position belongs to the token. -/
def Holds (s : Span) (i : Nat) : Prop := s.start ≤ i ∧ i < s.stop

/-- The characters of the token. -/
def cut (s : Span) (source : String) : String :=
  String.ofList ((source.toList.drop s.start).take (s.stop - s.start))

end Span

/-- The spans of a text whose first character is at a position. -/
inductive Spanned : Nat → List Char → List Span → Prop
  | done {position : Nat} : Spanned position [] []
  | blank {position : Nat} {c : Char} {cs : List Char} {ss : List Span} (hc : isBlank c = true)
      (rest : Spanned (position + 1) cs ss) : Spanned position (c :: cs) ss
  | token {position : Nat} {c : Char} {cs : List Char} {t : Token} {k : Nat} {ss : List Span}
      (hc : isBlank c = false) (first : scan c cs = .ok (t, k))
      (rest : Spanned (position + (k + 1)) (cs.drop k) ss) :
      Spanned position (c :: cs) (⟨t, position, position + (k + 1)⟩ :: ss)

theorem tokensFrom_spanned {n position : Nat} {cs : List Char} (hn : cs.length ≤ n)
    {ts : List PlacedToken} (h : tokensFrom position 0 cs = .ok ts) :
    ∃ ss, ts = ss.map Span.placed ++ [⟨.eof, position + cs.length⟩] ∧ Spanned position cs ss := by
  induction n generalizing position cs ts with
  | zero =>
    obtain rfl : cs = [] := List.length_eq_zero_iff.1 (Nat.le_zero.1 hn)
    cases h
    exact ⟨[], rfl, .done⟩
  | succ n ih =>
    cases cs with
    | nil =>
      cases h
      exact ⟨[], rfl, .done⟩
    | cons c cs =>
      rw [List.length_cons] at hn
      unfold tokensFrom at h
      dsimp only at h
      split at h
      · rename_i hc
        obtain ⟨ss, rfl, hss⟩ := ih (by omega) h
        refine ⟨ss, ?_, .blank hc hss⟩
        rw [List.length_cons, show position + 1 + cs.length = position + (cs.length + 1) by omega]
      · rename_i hc
        split at h
        · exact nomatch h
        · rename_i t k hscan
          have hk := scan_le hscan
          rw [tokensFrom_drop hk] at h
          cases hrest : tokensFrom (position + 1 + k) 0 (cs.drop k) with
          | error e =>
            rw [hrest] at h
            exact nomatch h
          | ok us =>
            rw [hrest] at h
            cases h
            rw [show position + 1 + k = position + (k + 1) by omega] at hrest
            have hlength : (cs.drop k).length = cs.length - k := List.length_drop
            obtain ⟨ss, rfl, hss⟩ := ih (by omega) hrest
            refine ⟨_ :: ss, ?_, .token (Bool.eq_false_iff.2 hc) hscan hss⟩
            rw [List.length_cons, hlength,
              show position + (k + 1) + (cs.length - k) = position + (cs.length + 1) by omega]
            rfl

/-- A fault is found at a character. -/
theorem tokensFrom_error {position skip : Nat} {cs : List Char} {e : ParseError}
    (h : tokensFrom position skip cs = .error e) : e.position < position + cs.length := by
  induction cs generalizing position skip with
  | nil => cases h
  | cons c cs ih =>
    rw [List.length_cons]
    unfold tokensFrom at h
    split at h
    · have := ih h
      omega
    · split at h
      · have := ih h
        omega
      · split at h
        · cases h
          dsimp only
          omega
        · rename_i t k hscan
          cases hrest : tokensFrom (position + 1) k cs with
          | error e' =>
            rw [hrest] at h
            cases h
            have := ih hrest
            omega
          | ok us =>
            rw [hrest] at h
            cases h

/-- A token alone in a text. -/
theorem tokensFrom_alone {c : Char} {cs : List Char} {t : Token} {k : Nat}
    (hc : isBlank c = false) (h : scan c cs = .ok (t, k)) :
    tokensFrom 0 0 (c :: cs.take k) = .ok [⟨t, 0⟩, ⟨.eof, k + 1⟩] := by
  have hlength : (cs.take k).length = k := List.length_take_of_le (scan_le h)
  unfold tokensFrom
  dsimp only
  rw [if_neg (Bool.eq_false_iff.1 hc), scan_take h]
  dsimp only
  rw [tokensFrom_drop (Nat.le_of_eq hlength.symm), List.drop_of_length_le (Nat.le_of_eq hlength),
    show 0 + 1 + k = k + 1 by omega]
  rfl

namespace Spanned

variable {position : Nat} {cs : List Char} {ss : List Span}

theorem bounds (h : Spanned position cs ss) {s : Span} (hs : s ∈ ss) :
    position ≤ s.start ∧ s.start < s.stop ∧ s.stop ≤ position + cs.length := by
  induction h with
  | done => exact absurd hs List.not_mem_nil
  | blank hc rest ih =>
    have := ih hs
    rw [List.length_cons]
    omega
  | @token position c cs t k ss hc first rest ih =>
    have hk := scan_le first
    rw [List.length_cons]
    rcases List.mem_cons.1 hs with rfl | hs
    · dsimp only
      omega
    · have := ih hs
      rw [List.length_drop] at this
      omega

theorem ordered (h : Spanned position cs ss) : ss.Pairwise fun s s' => s.stop ≤ s'.start := by
  induction h with
  | done => exact .nil
  | blank hc rest ih => exact ih
  | token hc first rest ih =>
    apply List.Pairwise.cons _ ih
    intro s hs
    exact (rest.bounds hs).1

theorem blanks (h : Spanned position cs ss) {i : Nat} {c : Char} (hc : cs[i]? = some c)
    (hout : ∀ s ∈ ss, ¬ s.Holds (position + i)) : isBlank c = true := by
  induction h generalizing i with
  | done => exact nomatch hc
  | @blank position d cs ss hd rest ih =>
    cases i with
    | zero =>
      cases hc
      exact hd
    | succ i =>
      apply ih hc
      intro s hs
      rw [show position + 1 + i = position + (i + 1) by omega]
      exact hout s hs
  | @token position d cs t k ss hd first rest ih =>
    have hbehind : k < i := by
      have hfirst := hout _ List.mem_cons_self
      unfold Span.Holds at hfirst
      dsimp only at hfirst
      omega
    obtain ⟨j, rfl⟩ : ∃ j, i = k + j + 1 := ⟨i - k - 1, by omega⟩
    rw [List.getElem?_cons_succ, ← List.getElem?_drop] at hc
    apply ih hc
    intro s hs
    rw [show position + (k + 1) + j = position + (k + j + 1) by omega]
    exact hout s (List.mem_cons_of_mem _ hs)

theorem alone (h : Spanned position cs ss) {s : Span} (hs : s ∈ ss) :
    tokensFrom 0 0 ((cs.drop (s.start - position)).take (s.stop - s.start)) =
      .ok [⟨s.token, 0⟩, ⟨.eof, s.stop - s.start⟩] := by
  induction h with
  | done => exact absurd hs List.not_mem_nil
  | @blank position c cs ss hc rest ih =>
    have hstart := (rest.bounds hs).1
    rw [show s.start - position = s.start - (position + 1) + 1 by omega, List.drop_succ_cons]
    exact ih hs
  | @token position c cs t k ss hc first rest ih =>
    rcases List.mem_cons.1 hs with rfl | hs
    · dsimp only
      rw [Nat.sub_self, List.drop_zero, Nat.add_sub_cancel_left, List.take_succ_cons]
      exact tokensFrom_alone hc first
    · have hstart := (rest.bounds hs).1
      have hrest := ih hs
      rw [List.drop_drop] at hrest
      rwa [show s.start - position = k + (s.start - (position + (k + 1))) + 1 by omega,
        List.drop_succ_cons]

end Spanned

/-- The tokens of a text take up ranges of its characters, each at least one, in their order and
    apart from each other.  Blanks are all that is left over, and every range by itself is read as
    its token.  A text without tokens is at fault at one of its characters. -/
theorem tokens_lossless (source : String) :
    match tokens source with
    | .ok ts => ∃ ss : List Span,
        ts = ss.map Span.placed ++ [⟨.eof, source.length⟩] ∧
        (∀ s ∈ ss, s.start < s.stop ∧ s.stop ≤ source.length) ∧
        ss.Pairwise (fun s s' => s.stop ≤ s'.start) ∧
        (∀ i c, source.toList[i]? = some c → (∀ s ∈ ss, ¬ s.Holds i) → isBlank c = true) ∧
        ∀ s ∈ ss, tokens (s.cut source) = .ok [⟨s.token, 0⟩, ⟨.eof, s.stop - s.start⟩]
    | .error e => e.position < source.length := by
  split
  · rename_i ts h
    obtain ⟨ss, rfl, hss⟩ := tokensFrom_spanned (Nat.le_refl _) h
    rw [Nat.zero_add, String.length_toList]
    refine ⟨ss, rfl, ?_, hss.ordered, ?_, ?_⟩
    · intro s hs
      have hbounds := hss.bounds hs
      rw [Nat.zero_add, String.length_toList] at hbounds
      exact hbounds.2
    · intro i c hc hout
      apply hss.blanks hc
      intro s hs
      rw [Nat.zero_add]
      exact hout s hs
    · intro s hs
      unfold tokens Span.cut
      rw [String.toList_ofList]
      exact hss.alone hs
  · rename_i e h
    have hposition := tokensFrom_error h
    rwa [Nat.zero_add, String.length_toList] at hposition

/-- A comparison with a blank and an operator of two characters. -/
theorem comparison_lossless :
    tokens "#a <=7" = .ok [⟨.property "a", 0⟩, ⟨.lte, 3⟩, ⟨.number 7, 5⟩, ⟨.eof, 6⟩] ∧
      ∃ ss : List Span, ss.map Span.placed = [⟨.property "a", 0⟩, ⟨.lte, 3⟩, ⟨.number 7, 5⟩] ∧
        (∀ s ∈ ss, s.start < s.stop ∧ s.stop ≤ 6) ∧ ss.Pairwise (fun s s' => s.stop ≤ s'.start) ∧
        ((∀ s ∈ ss, ¬ s.Holds 2) → isBlank ' ' = true) ∧
        ∀ s ∈ ss, tokens (s.cut "#a <=7") = .ok [⟨s.token, 0⟩, ⟨.eof, s.stop - s.start⟩] := by
  have htokens : tokens "#a <=7" =
      .ok [⟨.property "a", 0⟩, ⟨.lte, 3⟩, ⟨.number 7, 5⟩, ⟨.eof, 6⟩] := by decide +kernel
  have hlossless := tokens_lossless "#a <=7"
  rw [htokens] at hlossless
  obtain ⟨ss, hss, hbounds, hordered, hblanks, halone⟩ := hlossless
  have hplaced : [⟨.property "a", 0⟩, ⟨.lte, 3⟩, ⟨.number 7, 5⟩] = ss.map Span.placed :=
    List.append_cancel_right hss
  exact ⟨htokens, ss, hplaced.symm, hbounds, hordered, hblanks 2 ' ' (by decide), halone⟩

end Token

end EntityFormulas
