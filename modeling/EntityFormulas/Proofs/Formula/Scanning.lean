/-
  EntityFormulas/Proofs/Formula/Scanning.lean
  ===========================================
  **Where a token ends.**

  A token takes characters that are there (`scan_le`), and which ones follows from
  its kind: quoted text ends with its mark, a brace stands alone, and every other
  token is made of characters that neither quote nor nest (`scan_cases`).  Blanks
  behind the text do not go into its last token (`scan_of_append_blanks`).
-/
import EntityFormulas.Formula.Token.Scan

namespace EntityFormulas

open Text

/-! ### Classes of characters -/

/-- Whether a character neither opens or closes quoted text nor is a brace. -/
def isOrdinary (c : Char) : Bool := c ≠ '"' && c ≠ '\'' && c ≠ '\x7b' && c ≠ '\x7d'

/-- A class is of ordinary characters if it has none of the four others. -/
theorem isOrdinary_of {p : Char → Bool} (hdouble : p '"' = false) (hsingle : p '\'' = false)
    (hopen : p '\x7b' = false) (hclose : p '\x7d' = false) {c : Char} (h : p c = true) :
    isOrdinary c = true := by
  unfold isOrdinary
  simp only [ne_eq, Bool.and_eq_true, decide_eq_true_eq]
  refine ⟨⟨⟨?_, ?_⟩, ?_⟩, ?_⟩ <;> rintro rfl
  · exact Bool.false_ne_true (hdouble.symm.trans h)
  · exact Bool.false_ne_true (hsingle.symm.trans h)
  · exact Bool.false_ne_true (hopen.symm.trans h)
  · exact Bool.false_ne_true (hclose.symm.trans h)

theorem isOrdinary_of_isNameChar {c : Char} (h : Token.isNameChar c = true) :
    isOrdinary c = true :=
  isOrdinary_of (by decide) (by decide) (by decide) (by decide) h

theorem isOrdinary_of_isNameStart {c : Char} (h : Token.isNameStart c = true) :
    isOrdinary c = true :=
  isOrdinary_of (by decide) (by decide) (by decide) (by decide) h

/-- No blank belongs to a name, a number or an entity id. -/
theorem blankRanges_apart : ∀ r ∈ blankRanges, ∀ n ∈ List.range' r.1 (r.2 + 1 - r.1),
    inRanges n letterRanges = false ∧ inRanges n numeralRanges = false ∧ ¬ (48 ≤ n ∧ n ≤ 57) ∧
      ¬ (65 ≤ n ∧ n ≤ 70) ∧ ¬ (97 ≤ n ∧ n ≤ 102) ∧ n ≠ 95 := by
  decide +kernel

theorem blank_apart {c : Char} (h : isBlank c = true) :
    isLetter c = false ∧ isNumeral c = false ∧ ¬ (48 ≤ c.toNat ∧ c.toNat ≤ 57) ∧
      ¬ (65 ≤ c.toNat ∧ c.toNat ≤ 70) ∧ ¬ (97 ≤ c.toNat ∧ c.toNat ≤ 102) ∧ c.toNat ≠ 95 := by
  obtain ⟨r, hr, hfirst, hlast⟩ := inRanges_sound h
  refine blankRanges_apart r hr c.toNat ?_
  rw [List.mem_range'_1]
  omega

theorem isDigit_eq {c : Char} : isDigit c = decide (48 ≤ c.toNat ∧ c.toNat ≤ 57) := by
  unfold isDigit
  rw [Bool.decide_and]
  rfl

theorem isDigit_blank {c : Char} (h : isBlank c = true) : isDigit c = false := by
  rw [isDigit_eq]
  exact decide_eq_false (blank_apart h).2.2.1

theorem isHexDigit_blank {c : Char} (h : isBlank c = true) : isHexDigit c = false := by
  obtain ⟨-, -, hdigit, hupper, hlower, -⟩ := blank_apart h
  have hlow : ('a' ≤ c && c ≤ 'f') = decide (97 ≤ c.toNat ∧ c.toNat ≤ 102) := by
    rw [Bool.decide_and]
    rfl
  have hup : ('A' ≤ c && c ≤ 'F') = decide (65 ≤ c.toNat ∧ c.toNat ≤ 70) := by
    rw [Bool.decide_and]
    rfl
  unfold isHexDigit
  rw [isDigit_blank h, hlow, hup, decide_eq_false hlower, decide_eq_false hupper]
  rfl

theorem isNameChar_blank {c : Char} (h : isBlank c = true) : Token.isNameChar c = false := by
  obtain ⟨hletter, hnumeral, -, -, -, hline⟩ := blank_apart h
  unfold Token.isNameChar isLetterOrNumeral
  rw [hletter, hnumeral, Bool.false_or, Bool.false_or, beq_eq_false_iff_ne]
  rintro rfl
  exact hline rfl

theorem blank_ne {c d : Char} (h : isBlank c = true) (hd : isBlank d = false) : c ≠ d := by
  rintro rfl
  exact Bool.false_ne_true (hd.symm.trans h)

/-! ### Leading characters -/

/-- There are `n` characters at the front, all in a class. -/
def Leads (p : Char → Bool) (n : Nat) (cs : List Char) : Prop :=
  n ≤ cs.length ∧ ∀ c ∈ cs.take n, p c = true

namespace Leads

variable {p q : Char → Bool} {m n : Nat} {c : Char} {cs : List Char}

theorem zero : Leads p 0 cs := ⟨Nat.zero_le _, by simp⟩

theorem cons (hc : p c = true) (h : Leads p n cs) : Leads p (n + 1) (c :: cs) := by
  refine ⟨Nat.succ_le_succ h.1, fun d hd => ?_⟩
  rw [List.take_succ_cons, List.mem_cons] at hd
  rcases hd with rfl | hd
  · exact hc
  · exact h.2 d hd

theorem tail (h : Leads p (n + 1) (c :: cs)) : Leads p n cs :=
  ⟨Nat.le_of_succ_le_succ h.1, fun d hd => h.2 d (by
    rw [List.take_succ_cons]
    exact List.mem_cons_of_mem _ hd)⟩

theorem head (h : Leads p (n + 1) (c :: cs)) : p c = true :=
  h.2 c (by
    rw [List.take_succ_cons]
    exact List.mem_cons_self)

theorem append (h : Leads p m cs) (h' : Leads p n (cs.drop m)) : Leads p (m + n) cs := by
  have hlen := h'.1
  rw [List.length_drop] at hlen
  have hm := h.1
  refine ⟨by omega, fun d hd => ?_⟩
  rw [List.take_add, List.mem_append] at hd
  rcases hd with hd | hd
  · exact h.2 d hd
  · exact h'.2 d hd

theorem mono (h : Leads p n cs) (hpq : ∀ c, p c = true → q c = true) : Leads q n cs :=
  ⟨h.1, fun d hd => hpq d (h.2 d hd)⟩

theorem takeWhile (p : Char → Bool) (cs : List Char) : Leads p (cs.takeWhile p).length cs := by
  induction cs with
  | nil => exact zero
  | cons c cs ih =>
    rw [List.takeWhile_cons]
    split
    · exact cons ‹_› ih
    · exact zero

end Leads

namespace Token

/-! ### The characters of a token -/

theorem isEntityIdFrom_leads {place : Nat} {cs : List Char} (h : isEntityIdFrom place cs = true)
    (hplace : place ≤ entityIdLength) :
    Leads (fun c => isHexDigit c || c == '-') (entityIdLength - place) cs := by
  induction cs generalizing place with
  | nil =>
    obtain rfl : place = entityIdLength := by simpa [isEntityIdFrom] using h
    rw [Nat.sub_self]
    exact .zero
  | cons c cs ih =>
    unfold isEntityIdFrom at h
    split at h
    · rename_i hlt
      rw [Bool.and_eq_true] at h
      rw [show entityIdLength - place = entityIdLength - (place + 1) + 1 by omega]
      refine .cons ?_ (ih h.2 hlt)
      have hfits := h.1
      unfold fitsEntityId at hfits
      split at hfits
      · rw [hfits, Bool.or_true]
      · rw [hfits, Bool.true_or]
    · rw [show entityIdLength - place = 0 by omega]
      exact .zero

theorem fractionAt_leads (cs : List Char) :
    Leads (fun c => isDigit c || c == '.')
      (if (fractionAt cs).isEmpty then 0 else (fractionAt cs).length + 1) cs := by
  split
  · exact .zero
  · rename_i h
    unfold fractionAt at h ⊢
    split at h
    · refine .cons rfl ((Leads.takeWhile _ _).mono fun c hc => ?_)
      rw [hc, Bool.true_or]
    · exact absurd rfl h

/-- A character of an exponent. -/
def isExponentChar (c : Char) : Bool := isDigit c || c == 'e' || c == 'E' || c == '-' || c == '+'

/-- The sign of an exponent, its length and the digits behind it. -/
def signedDigits : List Char → Bool × Nat × List Char
  | '-' :: cs => (true, 1, cs.takeWhile isDigit)
  | '+' :: cs => (false, 1, cs.takeWhile isDigit)
  | cs => (false, 0, cs.takeWhile isDigit)

theorem signedDigits_unsigned {cs : List Char}
    (h : ∀ rest, cs ≠ '-' :: rest ∧ cs ≠ '+' :: rest) :
    signedDigits cs = (false, 0, cs.takeWhile isDigit) := by
  unfold signedDigits
  split
  · exact absurd rfl (h _).1
  · exact absurd rfl (h _).2
  · rfl

theorem exponentAt_cons (e : Char) (cs : List Char) : exponentAt (e :: cs) =
    if e = 'e' ∨ e = 'E' then
      if (signedDigits cs).2.2.isEmpty then (false, [], 0)
      else ((signedDigits cs).1, (signedDigits cs).2.2,
        1 + (signedDigits cs).2.1 + (signedDigits cs).2.2.length)
    else (false, [], 0) := rfl

theorem signedDigits_leads (cs : List Char) :
    Leads isExponentChar ((signedDigits cs).2.1 + (signedDigits cs).2.2.length) cs := by
  have hdigits (cs : List Char) : Leads isExponentChar (cs.takeWhile isDigit).length cs :=
    (Leads.takeWhile _ _).mono fun c hc => by simp [isExponentChar, hc]
  unfold signedDigits
  split
  · rw [Nat.add_comm]
    exact .cons rfl (hdigits _)
  · rw [Nat.add_comm]
    exact .cons rfl (hdigits _)
  · rw [Nat.zero_add]
    exact hdigits _

theorem exponentAt_leads (cs : List Char) : Leads isExponentChar (exponentAt cs).2.2 cs := by
  cases cs with
  | nil => exact .zero
  | cons e cs =>
    rw [exponentAt_cons]
    split
    · rename_i he
      split
      · exact .zero
      · dsimp only
        rw [Nat.add_assoc, Nat.add_comm 1]
        refine .cons ?_ (signedDigits_leads cs)
        rcases he with rfl | rfl <;> rfl
    · exact .zero

/-- A character of a number. -/
def isNumberChar (c : Char) : Bool := isExponentChar c || c == '.'

theorem decimalAt_leads (cs : List Char) : Leads isNumberChar (decimalAt cs).2 cs := by
  have hwhole : Leads isNumberChar (cs.takeWhile isDigit).length cs :=
    (Leads.takeWhile _ _).mono fun c hc => by simp [isNumberChar, isExponentChar, hc]
  have hfraction := (fractionAt_leads (cs.drop (cs.takeWhile isDigit).length)).mono
    (q := isNumberChar) fun c hc => by
      rcases Bool.or_eq_true_iff.1 hc with hc | hc <;> simp [isNumberChar, isExponentChar, hc]
  have hexponent (cs : List Char) : Leads isNumberChar (exponentAt cs).2.2 cs :=
    (exponentAt_leads cs).mono fun c hc => by simp [isNumberChar, hc]
  refine (hwhole.append hfraction).append ?_
  rw [← List.drop_drop]
  exact hexponent _

theorem decimalAt_pos {c : Char} {cs : List Char} (h : isDigit c = true) :
    1 ≤ (decimalAt (c :: cs)).2 := by
  change 1 ≤ ((c :: cs).takeWhile isDigit).length + _ + _
  rw [List.takeWhile_cons, if_pos h, List.length_cons]
  omega

theorem isOrdinary_of_isNumberChar {c : Char} (h : isNumberChar c = true) : isOrdinary c = true :=
  isOrdinary_of (by decide) (by decide) (by decide) (by decide) h

/-- `Quoted mark k cs`: the first `k` characters go on with quoted text up to its closing mark. -/
inductive Quoted (mark : Char) : Nat → List Char → Prop
  | close {cs : List Char} : Quoted mark 1 (mark :: cs)
  | escape {k : Nat} {c : Char} {cs : List Char} (hmark : '\\' ≠ mark) (more : Quoted mark k cs) :
      Quoted mark (k + 2) ('\\' :: c :: cs)
  | other {k : Nat} {c : Char} {cs : List Char} (hmark : c ≠ mark) (hescape : c ≠ '\\')
      (more : Quoted mark k cs) : Quoted mark (k + 1) (c :: cs)

theorem quotedText_close (mark : Char) (cs : List Char) :
    quotedText mark (mark :: cs) = .ok ([], 1) := by
  unfold quotedText
  rw [if_pos rfl]

theorem quotedText_escape {mark : Char} (h : '\\' ≠ mark) (e : Char) (cs : List Char) :
    quotedText mark ('\\' :: e :: cs) =
      (quotedText mark cs).map fun (content, k) => (unescape e ++ content, k + 2) := by
  rw [quotedText, if_neg h, if_pos rfl]

theorem quotedText_other {mark c : Char} (h : c ≠ mark) (hescape : c ≠ '\\') (cs : List Char) :
    quotedText mark (c :: cs) =
      (quotedText mark cs).map fun (content, k) => (c :: content, k + 1) := by
  rw [quotedText.eq_def]
  dsimp only
  rw [if_neg h, if_neg hescape]

theorem quotedText_lone_escape {mark : Char} (h : '\\' ≠ mark) :
    quotedText mark ['\\'] = .error .unterminatedEscape := by
  unfold quotedText
  rw [if_neg h, if_pos rfl]

theorem map_ok {α β : Type} {f : α → β} {x : Except ParseFault α} {b : β}
    (h : x.map f = .ok b) : ∃ a, x = .ok a ∧ f a = b := by
  cases x with
  | error fault => exact nomatch h
  | ok a => exact ⟨a, rfl, Except.ok.inj h⟩

theorem quotedText_quoted {mark : Char} {cs content : List Char} {k : Nat}
    (h : quotedText mark cs = .ok (content, k)) : Quoted mark k cs := by
  induction cs using quotedText.induct mark generalizing content k with
  | case1 => exact nomatch h
  | case2 cs =>
    rw [quotedText_close] at h
    cases h
    exact .close
  | case3 hmark =>
    rw [quotedText_lone_escape hmark] at h
    exact nomatch h
  | case4 e rest hmark ih =>
    rw [quotedText_escape hmark] at h
    obtain ⟨r, hr, heq⟩ := map_ok h
    cases heq
    exact .escape hmark (ih hr)
  | case5 c cs hmark hescape ih =>
    rw [quotedText_other hmark hescape] at h
    obtain ⟨r, hr, heq⟩ := map_ok h
    cases heq
    exact .other hmark hescape (ih hr)

theorem Quoted.le {mark : Char} {k : Nat} {cs : List Char} (h : Quoted mark k cs) :
    k ≤ cs.length := by
  induction h with
  | close => exact Nat.succ_le_succ (Nat.zero_le _)
  | escape hmark more ih => exact Nat.succ_le_succ (Nat.succ_le_succ ih)
  | other hmark hescape more ih => exact Nat.succ_le_succ ih

theorem operator2_chars {c d : Char} {t : Token} (h : operator2 c d = some t) :
    isOrdinary c = true ∧ isOrdinary d = true ∧ t ≠ .leftBrace ∧ t ≠ .rightBrace := by
  unfold operator2 at h
  split at h <;> cases h <;> decide

theorem operator1_chars {c : Char} {t : Token} (h : operator1 c = some t) :
    (c = '\x7b' ∧ t = .leftBrace) ∨ (c = '\x7d' ∧ t = .rightBrace) ∨
      (isOrdinary c = true ∧ t ≠ .leftBrace ∧ t ≠ .rightBrace) := by
  unfold operator1 at h
  split at h <;> cases h <;> decide

theorem operatorAt_chars {c : Char} {cs : List Char} {t : Token} {k : Nat}
    (h : operatorAt c cs = some (t, k)) :
    (c = '\x7b' ∧ t = .leftBrace ∧ k = 0) ∨ (c = '\x7d' ∧ t = .rightBrace ∧ k = 0) ∨
      (Leads isOrdinary (k + 1) (c :: cs) ∧ t ≠ .leftBrace ∧ t ≠ .rightBrace) := by
  unfold operatorAt at h
  cases ho : cs.head?.bind (operator2 c) with
  | some t' =>
    rw [ho] at h
    cases h
    obtain ⟨d, hhead, hd⟩ := Option.bind_eq_some_iff.1 ho
    obtain ⟨rest, rfl⟩ := List.head?_eq_some_iff.1 hhead
    obtain ⟨hc, hd, hopen, hclose⟩ := operator2_chars hd
    exact .inr (.inr ⟨.cons hc (.cons hd .zero), hopen, hclose⟩)
  | none =>
    rw [ho] at h
    obtain ⟨t', ht', heq⟩ := Option.map_eq_some_iff.1 h
    cases heq
    rcases operator1_chars ht' with ⟨hc, ht⟩ | ⟨hc, ht⟩ | ⟨hc, hopen, hclose⟩
    · exact .inl ⟨hc, ht, rfl⟩
    · exact .inr (.inl ⟨hc, ht, rfl⟩)
    · exact .inr (.inr ⟨.cons hc .zero, hopen, hclose⟩)

/-- What the characters of a token are, by its kind. -/
theorem scan_cases {c : Char} {cs : List Char} {t : Token} {k : Nat}
    (h : scan c cs = .ok (t, k)) :
    ((c = '"' ∨ c = '\'') ∧ (∃ content, t = .text content) ∧ Quoted c k cs) ∨
      (c = '\x7b' ∧ t = .leftBrace ∧ k = 0) ∨ (c = '\x7d' ∧ t = .rightBrace ∧ k = 0) ∨
      (Leads isOrdinary (k + 1) (c :: cs) ∧ t ≠ .leftBrace ∧ t ≠ .rightBrace) := by
  unfold scan at h
  split at h
  · rename_i hid
    cases h
    refine .inr (.inr (.inr ⟨?_, by simp, by simp⟩))
    refine (isEntityIdFrom_leads hid (Nat.zero_le _)).mono fun d hd => ?_
    exact isOrdinary_of (p := fun c => isHexDigit c || c == '-') (by decide) (by decide) (by decide)
      (by decide) hd
  · split at h
    · rename_i hmark
      cases hq : quotedText c cs with
      | error fault =>
        rw [hq] at h
        cases h
      | ok r =>
        rw [hq] at h
        cases h
        exact .inl ⟨hmark, ⟨_, rfl⟩, quotedText_quoted hq⟩
    · split at h
      · rename_i hdigit
        have heq : Except.ok (.number (decimalAt (c :: cs)).1.nearest, (decimalAt (c :: cs)).2 - 1) =
          Except.ok (t, k) := h
        obtain ⟨rfl, rfl⟩ := Prod.mk.inj (Except.ok.inj heq)
        refine .inr (.inr (.inr ⟨?_, by simp, by simp⟩))
        rw [Nat.sub_add_cancel (decimalAt_pos hdigit)]
        exact (decimalAt_leads (c :: cs)).mono fun _ => isOrdinary_of_isNumberChar
      · split at h
        · rename_i hhash
          dsimp only at h
          split at h
          · cases h
          · split at h
            · cases h
              subst hhash
              refine .inr (.inr (.inr ⟨.cons (by decide) ?_, by simp, by simp⟩))
              exact (Leads.takeWhile _ _).mono fun _ => isOrdinary_of_isNameChar
            · cases h
        · split at h
          · rename_i found hop
            cases h
            exact .inr (operatorAt_chars hop)
          · split at h
            · rename_i hstart
              cases h
              have hfirst := isOrdinary_of_isNameStart hstart
              refine .inr (.inr (.inr ⟨.cons hfirst ?_, by simp, by simp⟩))
              exact (Leads.takeWhile _ _).mono fun _ => isOrdinary_of_isNameChar
            · cases h

/-- A token ends within the text. -/
theorem scan_le {c : Char} {cs : List Char} {t : Token} {k : Nat} (h : scan c cs = .ok (t, k)) :
    k ≤ cs.length := by
  rcases scan_cases h with ⟨-, -, hquoted⟩ | ⟨-, -, rfl⟩ | ⟨-, -, rfl⟩ | ⟨hleads, -⟩
  · exact hquoted.le
  · exact Nat.zero_le _
  · exact Nat.zero_le _
  · exact Nat.le_of_succ_le_succ hleads.1

/-! ### Blanks behind a token -/

section Blanks

variable {trail : List Char} (hblank : ∀ c ∈ trail, isBlank c = true)
include hblank

theorem takeWhile_append_blanks {p : Char → Bool} (hp : ∀ c, isBlank c = true → p c = false)
    (cs : List Char) : (cs ++ trail).takeWhile p = cs.takeWhile p := by
  induction cs with
  | nil =>
    cases trail with
    | nil => rfl
    | cons c trail =>
      rw [List.nil_append, List.takeWhile_cons, hp c (hblank c List.mem_cons_self)]
      rfl
  | cons c cs ih => rw [List.cons_append, List.takeWhile_cons, List.takeWhile_cons, ih]

theorem isEntityIdFrom_append_blanks {place : Nat} (hplace : place ≤ entityIdLength)
    (cs : List Char) : isEntityIdFrom place (cs ++ trail) = isEntityIdFrom place cs := by
  induction cs generalizing place with
  | nil =>
    cases trail with
    | nil => rfl
    | cons c trail =>
      have hc := hblank c List.mem_cons_self
      rw [List.nil_append]
      unfold isEntityIdFrom
      split
      · rename_i hlt
        have hfits : fitsEntityId place c = false := by
          unfold fitsEntityId
          split
          · exact beq_eq_false_iff_ne.2 (blank_ne hc (by decide))
          · exact isHexDigit_blank hc
        rw [hfits, Bool.false_and]
        exact (beq_eq_false_iff_ne.2 (Nat.ne_of_lt hlt)).symm
      · rw [isNameChar_blank hc, show place = entityIdLength by omega]
        rfl
  | cons c cs ih =>
    rw [List.cons_append]
    unfold isEntityIdFrom
    split
    · rw [ih (by omega)]
    · rfl

theorem quotedText_blanks {mark : Char} (hmark : isBlank mark = false) :
    quotedText mark trail = .error .unterminatedText := by
  induction trail with
  | nil => rfl
  | cons c trail ih =>
    have hc := hblank c List.mem_cons_self
    unfold quotedText
    rw [if_neg (blank_ne hc hmark), if_neg (blank_ne hc (by decide)),
      ih fun d hd => hblank d (List.mem_cons_of_mem _ hd)]
    rfl

theorem quotedText_of_append_blanks {mark : Char} (hmark : isBlank mark = false)
    {cs : List Char} {r : List Char × Nat} (h : quotedText mark (cs ++ trail) = .ok r) :
    quotedText mark cs = .ok r := by
  induction cs using quotedText.induct mark generalizing r with
  | case1 =>
    rw [List.nil_append, quotedText_blanks hblank hmark] at h
    exact nomatch h
  | case2 cs =>
    rw [List.cons_append, quotedText_close] at h
    rwa [quotedText_close]
  | case3 hescape =>
    -- The backslash would escape a blank, with no closing mark behind it.
    cases trail with
    | nil => exact h
    | cons c trail =>
      rw [List.cons_append, List.nil_append, quotedText_escape hescape,
        quotedText_blanks (fun d hd => hblank d (List.mem_cons_of_mem _ hd)) hmark] at h
      exact nomatch h
  | case4 e rest hescape ih =>
    rw [List.cons_append, List.cons_append, quotedText_escape hescape] at h
    obtain ⟨a, ha, rfl⟩ := map_ok h
    rw [quotedText_escape hescape, ih ha]
    rfl
  | case5 c cs hc hescape ih =>
    rw [List.cons_append, quotedText_other hc hescape] at h
    obtain ⟨a, ha, rfl⟩ := map_ok h
    rw [quotedText_other hc hescape, ih ha]
    rfl

theorem fractionAt_append_blanks (cs : List Char) : fractionAt (cs ++ trail) = fractionAt cs := by
  cases cs with
  | nil =>
    cases trail with
    | nil => rfl
    | cons c trail =>
      have hdot := blank_ne (hblank c List.mem_cons_self) (d := '.') (by decide)
      rw [List.nil_append]
      unfold fractionAt
      split
      · rename_i heq
        exact absurd (List.cons.inj heq).1 hdot
      · rfl
  | cons c cs =>
    rw [List.cons_append]
    unfold fractionAt
    split
    · rename_i heq
      obtain ⟨rfl, rfl⟩ := List.cons.inj heq
      exact takeWhile_append_blanks hblank (fun _ => isDigit_blank) cs
    · rename_i hne
      split
      · rename_i rest heq
        obtain ⟨rfl, rfl⟩ := List.cons.inj heq
        exact absurd rfl (hne (cs ++ trail))
      · rfl

theorem signedDigits_append_blanks (cs : List Char) :
    signedDigits (cs ++ trail) = signedDigits cs := by
  have hdigits (cs : List Char) := takeWhile_append_blanks hblank (fun _ => isDigit_blank) cs
  cases cs with
  | nil =>
    cases trail with
    | nil => rfl
    | cons c trail =>
      have hc := hblank c List.mem_cons_self
      rw [List.nil_append, signedDigits_unsigned fun _ => by
        simp [blank_ne hc (d := '-') (by decide), blank_ne hc (d := '+') (by decide)]]
      rw [List.takeWhile_cons, isDigit_blank hc]
      rfl
  | cons c cs =>
    by_cases hminus : c = '-'
    · subst hminus
      exact congrArg (fun digits => (true, 1, digits)) (hdigits cs)
    · by_cases hplus : c = '+'
      · subst hplus
        exact congrArg (fun digits => (false, 1, digits)) (hdigits cs)
      · have hunsigned (cs rest : List Char) : c :: cs ≠ '-' :: rest ∧ c :: cs ≠ '+' :: rest :=
          ⟨fun h => hminus (List.cons.inj h).1, fun h => hplus (List.cons.inj h).1⟩
        rw [List.cons_append, signedDigits_unsigned (hunsigned _), signedDigits_unsigned (hunsigned _),
          ← List.cons_append, hdigits]

theorem exponentAt_append_blanks (cs : List Char) : exponentAt (cs ++ trail) = exponentAt cs := by
  cases cs with
  | nil =>
    cases trail with
    | nil => rfl
    | cons c trail =>
      have hc := hblank c List.mem_cons_self
      rw [List.nil_append, exponentAt_cons, if_neg]
      · rfl
      · exact not_or.2 ⟨blank_ne hc (by decide), blank_ne hc (by decide)⟩
  | cons c cs =>
    rw [List.cons_append, exponentAt_cons, exponentAt_cons, signedDigits_append_blanks hblank]

theorem decimalAt_append_blanks (cs : List Char) : decimalAt (cs ++ trail) = decimalAt cs := by
  have hrest (cs : List Char) : (cs ++ trail).drop (cs.takeWhile isDigit).length =
      cs.drop (cs.takeWhile isDigit).length ++ trail :=
    List.drop_append_of_le_length (Leads.takeWhile _ _).1
  unfold decimalAt
  simp only [takeWhile_append_blanks hblank (fun _ => isDigit_blank), hrest,
    fractionAt_append_blanks hblank]
  rw [List.drop_append_of_le_length (fractionAt_leads _).1, exponentAt_append_blanks hblank]

theorem operatorAt_append_blanks (c : Char) (cs : List Char) :
    operatorAt c (cs ++ trail) = operatorAt c cs := by
  cases cs with
  | nil =>
    cases trail with
    | nil => rfl
    | cons d trail =>
      have hd := hblank d List.mem_cons_self
      have hnone : operator2 c d = none := by
        unfold operator2
        split <;> first | rfl | exact absurd hd (by decide)
      unfold operatorAt
      rw [List.nil_append, List.head?_cons, Option.bind_some, hnone]
      rfl
  | cons d cs => rfl

/-- Blanks behind the text do not go into its last token. -/
theorem scan_of_append_blanks {c : Char} {cs : List Char} {r : Token × Nat}
    (h : scan c (cs ++ trail) = .ok r) : scan c cs = .ok r := by
  have hid : startsEntityId (c :: (cs ++ trail)) = startsEntityId (c :: cs) := by
    rw [← List.cons_append]
    exact isEntityIdFrom_append_blanks hblank (Nat.zero_le _) _
  have hdecimal : decimalAt (c :: (cs ++ trail)) = decimalAt (c :: cs) := by
    rw [← List.cons_append]
    exact decimalAt_append_blanks hblank _
  unfold scan at h ⊢
  rw [hid] at h
  split at h
  · rename_i hstarts
    rw [if_pos hstarts]
    have hlen : entityIdLength ≤ (c :: cs).length := (isEntityIdFrom_leads hstarts (Nat.zero_le _)).1
    rwa [← List.cons_append, List.take_append_of_le_length hlen] at h
  · rename_i hstarts
    rw [if_neg hstarts]
    split at h
    · rename_i hmark
      rw [if_pos hmark]
      obtain ⟨a, ha, rfl⟩ := map_ok h
      have hc : isBlank c = false := by
        rcases hmark with rfl | rfl <;> decide
      rw [quotedText_of_append_blanks hblank hc ha]
      rfl
    · rename_i hmark
      rw [if_neg hmark]
      rw [hdecimal, operatorAt_append_blanks hblank,
        takeWhile_append_blanks hblank (fun _ => isNameChar_blank)] at h
      exact h

end Blanks

end Token

end EntityFormulas
