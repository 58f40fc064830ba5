/-
  EntityFormulas/Proofs/Formula/Templates.lean
  ============================================
  **Templates can be written and read again.**

  `write` is the text of a list of parts: an opening in text is escaped, and a
  formula stands between its braces.  Reading that text gives the parts back
  (`parse_write`), because the scan for the closing brace agrees with the tokens of
  the formula (`bodyLength_lexes`), and in a formula the braces of records are
  balanced (`Neutral`).

  Blanks around a formula are not recorded; the text that is recorded is still read
  as the same formula.
-/
import EntityFormulas.Formula.Template
import EntityFormulas.Proofs.Formula.Acceptance
import EntityFormulas.Proofs.Formula.Lexing

namespace EntityFormulas

/-! ### Braces of a formula -/

namespace Grammar

/-- How many braces are open behind the tokens, unless one is closed that is not open. -/
def openBraces : Nat → List Token → Option Nat
  | n, [] => some n
  | n, .leftBrace :: ts => openBraces (n + 1) ts
  | 0, .rightBrace :: _ => none
  | n + 1, .rightBrace :: ts => openBraces n ts
  | n, _ :: ts => openBraces n ts

/-- The tokens close the braces that they open, and no others. -/
def Neutral (ts : List Token) : Prop := ∀ n us, openBraces n (ts ++ us) = openBraces n us

theorem openBraces_cons {t : Token} (hopen : t ≠ .leftBrace) (hclose : t ≠ .rightBrace) (n : Nat)
    (ts : List Token) : openBraces n (t :: ts) = openBraces n ts := by
  cases t with
  | leftBrace => exact absurd rfl hopen
  | rightBrace => exact absurd rfl hclose
  | _ => rfl

namespace Neutral

variable {ts us : List Token}

theorem nil : Neutral [] := fun _ _ => rfl

theorem cons {t : Token} (hopen : t ≠ .leftBrace) (hclose : t ≠ .rightBrace) (h : Neutral ts) :
    Neutral (t :: ts) := by
  intro n us
  rw [List.cons_append, openBraces_cons hopen hclose, h]

theorem append (h : Neutral ts) (h' : Neutral us) : Neutral (ts ++ us) := by
  intro n vs
  rw [List.append_assoc, h, h']

theorem braces (h : Neutral ts) : Neutral (.leftBrace :: (ts ++ [.rightBrace])) := by
  intro n us
  rw [List.cons_append, List.append_assoc]
  change openBraces (n + 1) (ts ++ _) = _
  rw [h]
  rfl

end Neutral

theorem Trailing.neutral {comma : List Token} (h : Trailing comma) : Neutral comma := by
  rcases h with rfl | rfl
  · exact .nil
  · exact .cons (by decide) (by decide) .nil

theorem Members.neutral {o e : Expression} {us : List Token} (h : Members o us e) :
    Neutral us := by
  induction h with
  | none => exact .nil
  | next more ih => exact .cons (by decide) (by decide) (.cons (by simp) (by simp) ih)

mutual

theorem Chain.neutral {n : Nat} {ts : List Token} {e : Expression} : Chain n ts e → Neutral ts
  | .operators _ left more => left.neutral.append more.neutral
  | .operand inner => inner.neutral
termination_by structural h => h

theorem Operators.neutral {n : Nat} {l e : Expression} {us : List Token} :
    Operators n l us e → Neutral us
  | .none => .nil
  | .next operator right more =>
    .cons (by rintro rfl; exact nomatch operator) (by rintro rfl; exact nomatch operator)
      (right.neutral.append more.neutral)
termination_by structural h => h

theorem Unary.neutral {ts : List Token} {e : Expression} : Unary ts e → Neutral ts
  | .not inner => .cons (by decide) (by decide) inner.neutral
  | .neg inner => .cons (by decide) (by decide) inner.neutral
  | .access object more => object.neutral.append more.neutral
termination_by structural h => h

theorem Primary.neutral {ts : List Token} {e : Expression} : Primary ts e → Neutral ts
  | .constant value =>
    .cons (by rintro rfl; exact nomatch value) (by rintro rfl; exact nomatch value) .nil
  | .entity _ => .cons (by decide) (by decide) (.cons (by simp) (by simp) .nil)
  | .group inner =>
    .cons (by decide) (by decide) (inner.neutral.append (.cons (by decide) (by decide) .nil))
  | .call _ args =>
    .cons (by simp) (by simp) (.cons (by decide) (by decide)
      (args.neutral.append (.cons (by decide) (by decide) .nil)))
  | .list items =>
    .cons (by decide) (by decide) (items.neutral.append (.cons (by decide) (by decide) .nil))
  | .record entries _ => entries.neutral.braces
termination_by structural h => h

theorem Arguments.neutral {ts : List Token} {es : List Expression} : Arguments ts es → Neutral ts
  | .none => .nil
  | .some args => args.neutral
termination_by structural h => h

theorem Items.neutral {ts : List Token} {es : List Expression} : Items ts es → Neutral ts
  | .none => .nil
  | .some items trailing => items.neutral.append trailing.neutral
termination_by structural h => h

theorem Entries.neutral {ts : List Token} {fs : List (String × Expression)} :
    Entries ts fs → Neutral ts
  | .none => .nil
  | .some fields trailing => fields.neutral.append trailing.neutral
termination_by structural h => h

theorem Sequence.neutral {ts : List Token} {es : List Expression} : Sequence ts es → Neutral ts
  | .one last => last.neutral
  | .more first rest => first.neutral.append (.cons (by decide) (by decide) rest.neutral)
termination_by structural h => h

theorem Fields.neutral {ts : List Token} {fs : List (String × Expression)} :
    Fields ts fs → Neutral ts
  | .one key last =>
    .cons (by rintro rfl; exact nomatch key) (by rintro rfl; exact nomatch key)
      (.cons (by decide) (by decide) last.neutral)
  | .more key first rest =>
    .cons (by rintro rfl; exact nomatch key) (by rintro rfl; exact nomatch key)
      (.cons (by decide) (by decide)
        (first.neutral.append (.cons (by decide) (by decide) rest.neutral)))
termination_by structural h => h

end

end Grammar

namespace Template

open Grammar Token

/-! ### The closing brace -/

theorem bodyLength_ordinary {c : Char} (h : isOrdinary c = true) (n : Nat) (cs : List Char) :
    bodyLength n (c :: cs) = (bodyLength n cs).map (· + 1) := by
  simp only [isOrdinary, ne_eq, Bool.and_eq_true, decide_eq_true_eq] at h
  obtain ⟨⟨⟨hdouble, hsingle⟩, hopen⟩, hclose⟩ := h
  rw [bodyLength.eq_def]
  dsimp only
  rw [if_neg (not_or.2 ⟨hdouble, hsingle⟩), if_neg hopen, if_neg hclose]

theorem bodyLength_quote {c : Char} (h : c = '"' ∨ c = '\'') (n : Nat) (cs : List Char) :
    bodyLength n (c :: cs) =
      (bodyLength n (cs.drop (quotedLength c cs))).map (· + (quotedLength c cs + 1)) := by
  rw [bodyLength.eq_def]
  dsimp only
  rw [if_pos h]

theorem bodyLength_open (n : Nat) (cs : List Char) :
    bodyLength n ('\x7b' :: cs) = (bodyLength (n + 1) cs).map (· + 1) := by
  rw [bodyLength.eq_def]
  rfl

theorem bodyLength_close (n : Nat) (cs : List Char) :
    bodyLength (n + 1) ('\x7d' :: cs) = (bodyLength n cs).map (· + 1) := by
  rw [bodyLength.eq_def]
  rfl

theorem bodyLength_end (cs : List Char) : bodyLength 0 ('\x7d' :: cs) = some 0 := by
  rw [bodyLength.eq_def]
  rfl

theorem map_add (x : Option Nat) (k l : Nat) :
    (x.map (· + k)).map (· + l) = x.map (· + (k + l)) := by
  rw [Option.map_map]
  congr 1
  funext m
  exact Nat.add_assoc m k l

theorem bodyLength_leads {k : Nat} {cs : List Char} (h : Leads isOrdinary k cs) (n : Nat)
    (tail : List Char) :
    bodyLength n (cs ++ tail) = (bodyLength n (cs.drop k ++ tail)).map (· + k) := by
  induction k generalizing cs with
  | zero => exact Option.map_id'.symm
  | succ k ih =>
    cases cs with
    | nil => exact absurd h.1 (Nat.not_succ_le_zero k)
    | cons c cs =>
      rw [List.cons_append, bodyLength_ordinary h.head, ih h.tail, map_add, List.drop_succ_cons]

theorem quotedLength_close (mark : Char) (cs : List Char) :
    quotedLength mark (mark :: cs) = 1 := by
  cases cs with
  | nil => rfl
  | cons d cs => exact if_pos rfl

theorem quotedLength_other {mark c : Char} (h : c ≠ mark) (hescape : c ≠ '\\') (cs : List Char) :
    quotedLength mark (c :: cs) = quotedLength mark cs + 1 := by
  cases cs with
  | nil => rfl
  | cons d cs =>
    rw [quotedLength.eq_def]
    dsimp only
    rw [if_neg h, if_neg hescape]

theorem quotedLength_escape {mark : Char} (h : '\\' ≠ mark) (c : Char) (cs : List Char) :
    quotedLength mark ('\\' :: c :: cs) = quotedLength mark cs + 2 := by
  rw [quotedLength.eq_def]
  dsimp only
  rw [if_neg h, if_pos rfl]

theorem quotedLength_quoted {mark : Char} {k : Nat} {cs : List Char} (h : Quoted mark k cs)
    (tail : List Char) : quotedLength mark (cs ++ tail) = k := by
  induction h with
  | close => exact quotedLength_close mark _
  | escape hmark more ih =>
    rw [List.cons_append, List.cons_append, quotedLength_escape hmark, ih]
  | other hmark hescape more ih => rw [List.cons_append, quotedLength_other hmark hescape, ih]

/-- The scan for the closing brace passes over one token. -/
theorem bodyLength_scan {c : Char} {cs : List Char} {t : Token} {k n m : Nat} {ts : List Token}
    (h : scan c cs = .ok (t, k)) (hopen : openBraces n (t :: ts) = some m) (tail : List Char) :
    ∃ l, openBraces l ts = some m ∧
      bodyLength n (c :: cs ++ tail) = (bodyLength l (cs.drop k ++ tail)).map (· + (k + 1)) := by
  rcases scan_cases h with ⟨hmark, ⟨content, rfl⟩, hquoted⟩ | ⟨rfl, rfl, rfl⟩ | ⟨rfl, rfl, rfl⟩ |
    ⟨hleads, hne, hne'⟩
  · refine ⟨n, hopen, ?_⟩
    rw [List.cons_append, bodyLength_quote hmark, quotedLength_quoted hquoted,
      List.drop_append_of_le_length hquoted.le]
  · exact ⟨n + 1, hopen, bodyLength_open n _⟩
  · cases n with
    | zero => exact nomatch hopen
    | succ n => exact ⟨n, hopen, bodyLength_close n _⟩
  · rw [openBraces_cons hne hne'] at hopen
    exact ⟨n, hopen, bodyLength_leads hleads n tail⟩

theorem isOrdinary_of_isBlank {c : Char} (h : Text.isBlank c = true) : isOrdinary c = true :=
  isOrdinary_of (by decide) (by decide) (by decide) (by decide) h

/-- The scan for the closing brace passes over a text as its tokens open and close braces. -/
theorem bodyLength_lexes {cs : List Char} {word : List Token} (h : Lexes cs word) {n m : Nat}
    (hopen : openBraces n word = some m) (tail : List Char) :
    bodyLength n (cs ++ tail) = (bodyLength m tail).map (· + cs.length) := by
  induction h generalizing n with
  | done =>
    cases hopen
    exact Option.map_id'.symm
  | blank hc rest ih =>
    rw [List.cons_append, bodyLength_ordinary (isOrdinary_of_isBlank hc), ih hopen, map_add]
    rfl
  | token hc first rest ih =>
    obtain ⟨l, hl, hbody⟩ := bodyLength_scan first hopen tail
    have hk := scan_le first
    rw [hbody, ih hl, map_add, List.length_drop, List.length_cons]
    congr 2
    funext x
    omega

theorem parse_lexes {source : String} {e : Expression} (h : Expression.parse source = .ok e) :
    ∃ word, Lexes source.toList word ∧ Formula word e := by
  obtain ⟨ts, word, htokens, hword, hformula⟩ := Expression.formula_of_parse h
  obtain ⟨word', hword', hlexes⟩ := tokensFrom_lexes htokens
  obtain rfl : word' = word := List.append_cancel_right (hword'.symm.trans hword)
  exact ⟨word', hlexes, hformula⟩

/-- The closing brace behind a formula is the one that is found. -/
theorem bodyLength_formula {source : String} {e : Expression}
    (h : Expression.parse source = .ok e) (rest : List Char) :
    bodyLength 0 (source.toList ++ '\x7d' :: rest) = some source.toList.length := by
  obtain ⟨word, hlexes, hformula⟩ := parse_lexes h
  have hopen : openBraces 0 word = some 0 := by
    have hneutral := hformula.neutral 0 []
    rwa [List.append_nil] at hneutral
  rw [bodyLength_lexes hlexes hopen, bodyLength_end, Option.map_some, Nat.zero_add]

theorem trimBlanks_ne_nil {source : String} {e : Expression}
    (h : Expression.parse source = .ok e) : Text.trimBlanks source.toList ≠ [] := by
  intro hnil
  obtain ⟨word, hlexes, hformula⟩ := parse_lexes h
  obtain ⟨lead, trail, hsource, hlead, htrail⟩ := Text.trimBlanks_eq source.toList
  rw [hnil, List.append_nil] at hsource
  rw [hsource] at hlexes
  have hnone : Token.Lexes [] word := (hlexes.of_blanks_append hlead).of_append_blanks htrail
  cases hnone
  obtain ⟨t, us, hnil, -⟩ := hformula.begins
  exact nomatch hnil

theorem interpolation_formula {source : String} {e : Expression}
    (h : Expression.parse source = .ok e) (position : Nat) :
    interpolation position source.toList = .ok (.interpolation (Text.trim source) e) := by
  unfold interpolation
  rw [if_neg (by rw [List.isEmpty_iff]; exact trimBlanks_ne_nil h), String.ofList_toList, h]
  rfl

/-! ### Reading parts -/

theorem partsFrom_nil (position : Nat) (read : List Char) :
    partsFrom position read [] = .ok (textPart read) := by
  rw [partsFrom]

theorem partsFrom_escape (position : Nat) (read cs : List Char) :
    partsFrom position read ('\\' :: '$' :: '\x7b' :: cs) =
      partsFrom (position + 3) ('\x7b' :: '$' :: read) cs := by
  rw [partsFrom]

theorem partsFrom_char {c : Char} {cs : List Char}
    (hescape : ∀ rest, c = '\\' → cs = '$' :: '\x7b' :: rest → False)
    (hopen : ∀ rest, c = '$' → cs = '\x7b' :: rest → False) (position : Nat) (read : List Char) :
    partsFrom position read (c :: cs) = partsFrom (position + 1) (c :: read) cs := by
  rw [partsFrom]
  · exact hescape
  · exact hopen

theorem partsFrom_formula {source : String} {e : Expression} (h : Expression.parse source = .ok e)
    (position : Nat) (read rest : List Char) :
    partsFrom position read ('$' :: '\x7b' :: (source.toList ++ '\x7d' :: rest)) =
      (partsFrom (position + source.toList.length + 3) [] rest).map fun parts =>
        textPart read ++ .interpolation (Text.trim source) e :: parts := by
  rw [partsFrom, bodyLength_formula h]
  dsimp only
  rw [List.take_left, interpolation_formula h, ← List.drop_drop, List.drop_left]
  change (partsFrom _ [] rest >>= fun parts => _) = _
  cases partsFrom (position + source.toList.length + 3) [] rest with
  | error x => rfl
  | ok parts => rfl

/-! ### Writing -/

/-- Text in which every opening of a formula is escaped. -/
def escaped : List Char → List Char
  | '$' :: '\x7b' :: cs => '\\' :: '$' :: '\x7b' :: escaped cs
  | c :: cs => c :: escaped cs
  | [] => []

/-- The text of a part. -/
def TemplatePart.written : TemplatePart → List Char
  | .text content => escaped content.toList
  | .interpolation source _ => '$' :: '\x7b' :: (source.toList ++ ['\x7d'])

/-- The text of a list of parts. -/
def write (parts : List TemplatePart) : String := String.ofList (parts.flatMap TemplatePart.written)

/-- The part with its source as it is recorded. -/
def TemplatePart.trimmed : TemplatePart → TemplatePart
  | .text content => .text content
  | .interpolation source e => .interpolation (Text.trim source) e

/-- What may stand after a part: no text after text, and no formula after a backslash, which would
    escape its opening. -/
def TemplatePart.Precedes : TemplatePart → TemplatePart → Prop
  | .text _, .text _ => False
  | .text content, .interpolation _ _ => content.toList.getLast? ≠ some '\\'
  | .interpolation _ _, _ => True

/-- Parts that can be told apart when they are written one after the other. -/
structure Writable (parts : List TemplatePart) : Prop where
  texts : ∀ content, .text content ∈ parts → content ≠ ""
  formulas : ∀ source e, .interpolation source e ∈ parts → Expression.parse source = .ok e
  order : parts.IsChain TemplatePart.Precedes

theorem Writable.tail {part : TemplatePart} {parts : List TemplatePart}
    (h : Writable (part :: parts)) : Writable parts where
  texts content hmem := h.texts content (List.mem_cons_of_mem _ hmem)
  formulas source e hmem := h.formulas source e (List.mem_cons_of_mem _ hmem)
  order := by
    cases parts with
    | nil => exact .nil
    | cons part' parts => exact (List.isChain_cons_cons.1 h.order).2

/-! ### Reading what is written -/

section Escaped

variable {tail : List Char} (htail : tail = [] ∨ ∃ rest, tail = '$' :: rest)
include htail

theorem eq_cons_of_escaped {cs rest : List Char} (h : escaped cs ++ tail = '\x7b' :: rest) :
    ∃ cs', cs = '\x7b' :: cs' := by
  unfold escaped at h
  split at h
  · exact nomatch h
  · exact ⟨_, by rw [(List.cons.inj h).1]⟩
  · rcases htail with rfl | ⟨rest', rfl⟩ <;> exact nomatch h

/-- Escaped text does not open a formula. -/
theorem escaped_ne_opening {cs : List Char} (hcs : cs ≠ []) (rest : List Char) :
    escaped cs ++ tail ≠ '$' :: '\x7b' :: rest := by
  intro h
  unfold escaped at h
  split at h
  · exact nomatch h
  · rename_i c cs hne
    obtain ⟨rfl, hrest⟩ := List.cons.inj h
    obtain ⟨cs', rfl⟩ := eq_cons_of_escaped htail hrest
    exact hne cs' rfl rfl
  · exact hcs rfl

end Escaped

theorem getLast?_ne_of_cons {c d : Char} {cs : List Char} (h : (c :: cs).getLast? ≠ some d) :
    cs.getLast? ≠ some d := by
  intro hcs
  rw [List.getLast?_cons, hcs] at h
  exact h rfl

/-- Escaped text is read as the text, unless its last character escapes what follows. -/
theorem partsFrom_escaped {cs tail : List Char}
    (h : tail = [] ∨ ((∃ rest, tail = '$' :: '\x7b' :: rest) ∧ cs.getLast? ≠ some '\\'))
    (position : Nat) (read : List Char) :
    ∃ position', partsFrom position read (escaped cs ++ tail) =
      partsFrom position' (cs.reverse ++ read) tail := by
  have htail : tail = [] ∨ ∃ rest, tail = '$' :: rest := by
    rcases h with h | ⟨⟨rest, h⟩, -⟩
    · exact .inl h
    · exact .inr ⟨_, h⟩
  induction cs using escaped.induct generalizing position read with
  | case1 cs ih =>
    have hrest := h.imp_right (And.imp_right fun hlast =>
      getLast?_ne_of_cons (getLast?_ne_of_cons hlast))
    obtain ⟨position', hread⟩ := ih hrest (position + 3) ('\x7b' :: '$' :: read)
    refine ⟨position', ?_⟩
    rw [escaped, List.cons_append, List.cons_append, List.cons_append, partsFrom_escape, hread]
    simp
  | case2 c cs hne ih =>
    have hrest := h.imp_right (And.imp_right getLast?_ne_of_cons)
    obtain ⟨position', hread⟩ := ih hrest (position + 1) (c :: read)
    refine ⟨position', ?_⟩
    have hescaped : escaped (c :: cs) = c :: escaped cs := by
      rw [escaped]
      exact hne
    rw [hescaped, List.cons_append, partsFrom_char, hread]
    · simp
    · -- A backslash is followed by more of the text, or it is the last character.
      rintro rest rfl hopen
      by_cases hcs : cs = []
      · subst hcs
        rcases h with rfl | ⟨-, hlast⟩
        · exact nomatch hopen
        · exact hlast rfl
      · exact escaped_ne_opening htail hcs rest hopen
    · rintro rest rfl hopen
      obtain ⟨cs', rfl⟩ := eq_cons_of_escaped htail hopen
      exact hne cs' rfl rfl
  | case3 => exact ⟨position, rfl⟩

/-- Parts that do not begin with text may follow characters that were read as text. -/
theorem partsFrom_write {parts : List TemplatePart} (h : Writable parts) (position : Nat)
    {read : List Char} (hread : read = [] ∨ ∀ content rest, parts ≠ .text content :: rest) :
    partsFrom position read (parts.flatMap TemplatePart.written) =
      .ok (textPart read ++ parts.map TemplatePart.trimmed) := by
  induction parts generalizing position read with
  | nil =>
    rw [List.flatMap_nil, partsFrom_nil, List.map_nil, List.append_nil]
  | cons part parts ih =>
    rw [List.flatMap_cons]
    cases part with
    | interpolation source e =>
      have hparse := h.formulas source e List.mem_cons_self
      have hread' : ([] : List Char) = [] ∨ ∀ content rest, parts ≠ .text content :: rest := .inl rfl
      have hrest := ih h.tail (position + source.toList.length + 3) hread'
      change partsFrom position read ('$' :: '\x7b' :: ((source.toList ++ ['\x7d']) ++ _)) = _
      rw [List.append_assoc, List.cons_append, List.nil_append, partsFrom_formula hparse, hrest]
      rfl
    | text content =>
      obtain rfl : read = [] := hread.resolve_right fun hne => hne content parts rfl
      have hnext : ∀ content' rest, parts ≠ .text content' :: rest := by
        rintro content' rest rfl
        exact (List.isChain_cons_cons.1 h.order).1
      have hfollow : parts.flatMap TemplatePart.written = [] ∨
          (∃ rest, parts.flatMap TemplatePart.written = '$' :: '\x7b' :: rest) ∧
            content.toList.getLast? ≠ some '\\' := by
        cases parts with
        | nil => exact .inl rfl
        | cons part parts =>
          cases part with
          | text content' => exact absurd rfl (hnext content' parts)
          | interpolation source e =>
            exact .inr ⟨⟨_, rfl⟩, (List.isChain_cons_cons.1 h.order).1⟩
      obtain ⟨position', hescaped⟩ := partsFrom_escaped hfollow position []
      have hcontent : textPart (content.toList.reverse ++ []) = [.text content] := by
        have hne : content ≠ "" := h.texts content List.mem_cons_self
        unfold textPart
        rw [List.append_nil, if_neg (by simpa using hne), List.reverse_reverse, String.ofList_toList]
      change partsFrom position [] (escaped content.toList ++ _) = _
      rw [hescaped, ih h.tail position' (.inr hnext), hcontent]
      rfl

/-! ### Recorded sources -/

theorem parse_of_interpolation {position : Nat} {body : List Char} {source : String}
    {e : Expression} (h : interpolation position body = .ok (.interpolation source e)) :
    Expression.parse source = .ok e := by
  unfold interpolation at h
  split at h
  · exact nomatch h
  · cases hparse : Expression.parse (String.ofList body) with
    | error x =>
      rw [hparse] at h
      exact nomatch h
    | ok e' =>
      rw [hparse] at h
      cases h
      have htrim := Expression.parse_trim hparse
      unfold Text.trim at htrim
      rwa [String.toList_ofList] at htrim

theorem parse_of_partsFrom {position : Nat} {read cs : List Char} {parts : List TemplatePart}
    (h : partsFrom position read cs = .ok parts) {source : String} {e : Expression}
    (hmem : .interpolation source e ∈ parts) : Expression.parse source = .ok e := by
  have htext (read : List Char) : TemplatePart.interpolation source e ∉ textPart read := by
    unfold textPart
    split <;> simp
  induction position, read, cs using partsFrom.induct generalizing parts with
  | case1 position read =>
    rw [partsFrom_nil] at h
    cases h
    exact absurd hmem (htext read)
  | case2 position read rest ih =>
    rw [partsFrom_escape] at h
    exact ih h hmem
  | case3 position read rest hnone =>
    rw [partsFrom, hnone] at h
    exact nomatch h
  | case4 position read rest k hk ih =>
    rw [partsFrom, hk] at h
    cases hpart : interpolation position (rest.take k) with
    | error x =>
      simp only [hpart] at h
      exact nomatch h
    | ok part =>
      cases hrest : partsFrom (position + k + 3) [] (rest.drop (k + 1)) with
      | error x =>
        simp only [hpart, hrest] at h
        exact nomatch h
      | ok parts' =>
        simp only [hpart, hrest] at h
        cases h
        rw [List.mem_append, List.mem_cons] at hmem
        rcases hmem with hmem | rfl | hmem
        · exact absurd hmem (htext read)
        · exact parse_of_interpolation hpart
        · exact ih hrest hmem
  | case5 position read c rest hescape hopen ih =>
    rw [partsFrom_char hescape hopen] at h
    exact ih h hmem

/-- Parts that can be told apart are read back from their text, each source trimmed; and in any
    template that is read, the recorded source of a formula is read as that formula. -/
theorem parse_write :
    (∀ parts, Writable parts →
      Template.parse (write parts) = .ok ⟨parts.map TemplatePart.trimmed⟩) ∧
    ∀ source t, Template.parse source = .ok t → ∀ formula e,
      .interpolation formula e ∈ t.parts → Expression.parse formula = .ok e := by
  constructor
  · intro parts h
    unfold Template.parse write
    rw [String.toList_ofList, partsFrom_write h 0 (.inl rfl)]
    rfl
  · intro source t h formula e hmem
    unfold Template.parse at h
    cases hparts : partsFrom 0 [] source.toList with
    | error x =>
      rw [hparts] at h
      exact nomatch h
    | ok parts =>
      rw [hparts] at h
      cases h
      exact parse_of_partsFrom hparts hmem

/-- An escaped opening, a dollar sign before a formula and a brace in quotation marks. -/
def recordParts : List TemplatePart :=
  [.text "a $\x7bb\x7d $", .interpolation " \x7b'\x7d': #a\x7d " (.record [("\x7d", .selfProperty "a")]),
    .interpolation "#b" (.selfProperty "b"), .text "."]

theorem writable_recordParts : Writable recordParts where
  texts content hmem := by
    simp only [recordParts, List.mem_cons, TemplatePart.text.injEq, reduceCtorEq, List.not_mem_nil,
      or_false, false_or] at hmem
    rcases hmem with rfl | rfl <;> decide
  formulas source e hmem := by
    simp only [recordParts, List.mem_cons, TemplatePart.interpolation.injEq, reduceCtorEq,
      List.not_mem_nil, or_false, false_or] at hmem
    rcases hmem with ⟨rfl, rfl⟩ | ⟨rfl, rfl⟩
    · unfold Expression.parse
      rw [show tokens " \x7b'\x7d': #a\x7d " = .ok [⟨.leftBrace, 1⟩, ⟨.text "\x7d", 2⟩, ⟨.colon, 5⟩,
        ⟨.property "a", 7⟩, ⟨.rightBrace, 9⟩, ⟨.eof, 11⟩] by decide +kernel]
      rfl
    · unfold Expression.parse
      rw [show tokens "#b" = .ok [⟨.property "b", 0⟩, ⟨.eof, 2⟩] by decide +kernel]
      rfl
  order := .cons_cons (by unfold TemplatePart.Precedes; decide)
    (.cons_cons trivial (.cons_cons trivial (.singleton _)))

theorem recordParts_parse_write :
    write recordParts = "a \\$\x7bb\x7d $$\x7b \x7b'\x7d': #a\x7d \x7d$\x7b#b\x7d." ∧
    Template.parse (write recordParts) = .ok ⟨recordParts.map TemplatePart.trimmed⟩ ∧
    Expression.parse "\x7b'\x7d': #a\x7d" = .ok (.record [("\x7d", .selfProperty "a")]) := by
  have hread := parse_write.1 recordParts writable_recordParts
  refine ⟨by decide +kernel, hread, ?_⟩
  have htrim : Text.trim " \x7b'\x7d': #a\x7d " = "\x7b'\x7d': #a\x7d" := by decide +kernel
  refine parse_write.2 _ _ hread _ _ ?_
  simp [recordParts, TemplatePart.trimmed, htrim]

end Template

end EntityFormulas
