/-
  EntityFormulas/Text/Case.lean
  =============================
  **Upper and lower case of text.**

  Full Unicode case mapping without regard to a language: one character may
  become several, and a capital sigma that ends a word becomes the final form.
-/
import EntityFormulas.Text.CaseRuns
import EntityFormulas.Text.CasedRanges
import EntityFormulas.Text.CodePoints

namespace EntityFormulas.Text

/-- Whether the run holds the code point. -/
def CaseRun.holds (run : CaseRun) (n : Nat) : Bool :=
  run.first ≤ n && n ≤ run.last && (n - run.first) % run.step == 0

/-- The code point after the change of case that a list of runs describes. -/
def shiftCase (runs : List CaseRun) (c : Char) : Char :=
  match runs.find? (·.holds c.toNat) with
  | some run => Char.ofNat (c.toNat + run.shift).toNat
  | none => c

/-- Upper case of one character. -/
def upperChar (c : Char) : List Char :=
  match expandingUpper.lookup c.toNat with
  | some ns => ns.map Char.ofNat
  | none => [shiftCase upperRuns c]

/-- Lower case of one character away from the end of a word.  The dotted capital I keeps its
    dot as a mark of its own. -/
def lowerChar (c : Char) : List Char :=
  if c = '\u0130' then ['i', '\u0307'] else [shiftCase lowerRuns c]

/-- The text in upper case. -/
def upper (s : String) : String := String.ofList (s.toList.flatMap upperChar)

def isCased (c : Char) : Bool := inRanges c.toNat casedRanges

def isCaseIgnorable (c : Char) : Bool := inRanges c.toNat caseIgnorableRanges

/-- Whether the first character that case rules do not look past is a cased letter. -/
def startsCased (cs : List Char) : Bool :=
  match cs.dropWhile isCaseIgnorable with
  | c :: _ => isCased c
  | [] => false

/-- Lower case of the rest of a text.  `afterCased` says whether the nearest character before it
    that case rules do not look past is a cased letter. -/
def lowerRest (afterCased : Bool) : List Char → List Char
  | [] => []
  | c :: cs =>
    let image :=
      if c = 'Σ' then [if afterCased && !startsCased cs then 'ς' else 'σ'] else lowerChar c
    image ++ lowerRest (if isCaseIgnorable c then afterCased else isCased c) cs

/-- The text in lower case. -/
def lower (s : String) : String := String.ofList (lowerRest false s.toList)

end EntityFormulas.Text
