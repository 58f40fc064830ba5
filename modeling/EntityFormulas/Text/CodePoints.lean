/-
  EntityFormulas/Text/CodePoints.lean
  ===================================
  **Classes of characters.**

  Formula text is read by code point.  A name starts with a letter, goes on
  with letters and numerals, and blanks separate tokens; the three classes are
  those of Unicode (Alphabetic, the number categories, White_Space), each given
  by a table of ranges that `inRanges` searches.
-/
import EntityFormulas.Text.LetterRanges
import EntityFormulas.Text.NumeralRanges

namespace EntityFormulas.Text

/-- Whether `n` lies in one of the inclusive ranges, which ascend. -/
def inRanges (n : Nat) : List (Nat × Nat) → Bool
  | [] => false
  | (first, last) :: rest => if n < first then false else n ≤ last || inRanges n rest

/-- The inclusive code point ranges of blanks. -/
def blankRanges : List (Nat × Nat) := [
    (0x9, 0xD), (0x20, 0x20), (0x85, 0x85), (0xA0, 0xA0), (0x1680, 0x1680), (0x2000, 0x200A),
    (0x2028, 0x2029), (0x202F, 0x202F), (0x205F, 0x205F), (0x3000, 0x3000)]

/-- A blank: space, line break or another character of white space. -/
def isBlank (c : Char) : Bool := inRanges c.toNat blankRanges

/-- A letter of any script. -/
def isLetter (c : Char) : Bool := inRanges c.toNat letterRanges

/-- A numeral of any script: a digit, a letter number or another number. -/
def isNumeral (c : Char) : Bool := inRanges c.toNat numeralRanges

/-- A letter or a numeral. -/
def isLetterOrNumeral (c : Char) : Bool := isLetter c || isNumeral c

/-- The ten digits that numbers are written with. -/
def isDigit (c : Char) : Bool := '0' ≤ c && c ≤ '9'

/-- A digit of base sixteen, in either case. -/
def isHexDigit (c : Char) : Bool := isDigit c || ('a' ≤ c && c ≤ 'f') || ('A' ≤ c && c ≤ 'F')

/-! ### Trimming -/

/-- The characters without the blanks at both ends. -/
def trimBlanks (cs : List Char) : List Char :=
  ((cs.dropWhile isBlank).reverse.dropWhile isBlank).reverse

/-- The text without the blanks at both ends. -/
def trim (s : String) : String := String.ofList (trimBlanks s.toList)

/-- Whether `needle` occurs in `hay` as consecutive characters. -/
def occursIn (needle : List Char) : List Char → Bool
  | [] => needle.isEmpty
  | c :: cs => needle.isPrefixOf (c :: cs) || occursIn needle cs

/-- A searched range holds the code point. -/
theorem inRanges_sound {n : Nat} {ranges : List (Nat × Nat)} (h : inRanges n ranges = true) :
    ∃ r ∈ ranges, r.1 ≤ n ∧ n ≤ r.2 := by
  induction ranges with
  | nil => simp [inRanges] at h
  | cons r rest ih =>
    obtain ⟨first, last⟩ := r
    simp only [inRanges] at h
    split at h
    · simp at h
    · rename_i hlt
      simp only [Bool.or_eq_true, decide_eq_true_eq] at h
      rcases h with h | h
      · exact ⟨(first, last), List.mem_cons_self, Nat.le_of_not_lt hlt, h⟩
      · obtain ⟨r, hr, hb⟩ := ih h
        exact ⟨r, List.mem_cons_of_mem _ hr, hb⟩

end EntityFormulas.Text
