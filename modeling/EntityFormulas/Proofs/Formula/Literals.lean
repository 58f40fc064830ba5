/-
  EntityFormulas/Proofs/Formula/Literals.lean
  ===========================================
  **The elements of lists, records and argument lists.**

  The three literals of several parts are read by one loop, with a `Listing` for what
  they do not share (`items_eq`, `fields_eq`, `callArguments_eq`).  The loop gets as
  much fuel as there are tokens, and this is always enough (`Listing.series_enough`).

  `Reaches` says where the elements of a literal begin, each after the ones in front
  of it have been read.  The depth is the same at all of them, and a literal is
  rejected as nested too deeply exactly when one of its elements is
  (`primary_tooDeep_iff`).
-/
import EntityFormulas.Proofs.Formula.Nesting

namespace EntityFormulas

/-- Where reading stands after the next token. -/
def Cursor.next (s : Cursor) : Cursor := { s with tokens := s.tokens.drop 1 }

theorem Cursor.next_word (s : Cursor) : s.next.word = s.word.drop 1 := by
  unfold Cursor.word
  exact List.map_drop

namespace Parse

/-! ### Rejections -/

/-- A parser rejects what lies ahead as nested too deeply. -/
def TooDeep {α : Type} (p : Parse α) (s : Cursor) : Prop :=
  ∃ position, p.run s = .error ⟨position, .nestedTooDeeply⟩

section TooDeep

variable {α β : Type} {p : Parse α} {f : α → Parse β} {s : Cursor}

theorem not_tooDeep_pure (a : α) : ¬TooDeep (pure a) s := by
  rintro ⟨position, h⟩
  exact nomatch h

theorem not_tooDeep_failAt {position : Nat} {fault : ParseFault} (h : fault ≠ .nestedTooDeeply) :
    ¬TooDeep (failAt position fault : Parse α) s := by
  rintro ⟨position', hrun⟩
  cases hrun
  exact h rfl

theorem tooDeep_bind : TooDeep (p >>= f) s ↔
    TooDeep p s ∨ ∃ a s', p.run s = .ok (a, s') ∧ TooDeep (f a) s' := by
  unfold TooDeep
  rw [bind_run]
  cases hp : p.run s with
  | error e =>
    simp only [Except.bind, Except.error.injEq, reduceCtorEq, false_and, exists_false, or_false]
  | ok x =>
    obtain ⟨a, s'⟩ := x
    simp only [Except.bind, reduceCtorEq, exists_false, false_or, Except.ok.injEq, Prod.mk.injEq]
    constructor
    · intro h
      exact ⟨a, s', ⟨rfl, rfl⟩, h⟩
    · rintro ⟨a', s'', ⟨rfl, rfl⟩, h⟩
      exact h

/-- A step that succeeds. -/
theorem tooDeep_bind_of_ok {a : α} {s' : Cursor} (h : p.run s = .ok (a, s')) :
    TooDeep (p >>= f) s ↔ TooDeep (f a) s' := by
  unfold TooDeep
  rw [bind_run, h]
  rfl

theorem tooDeep_peek {f : Token → Parse β} : TooDeep (peek >>= f) s ↔ TooDeep (f s.head) s :=
  tooDeep_bind_of_ok (peek_run s)

theorem tooDeep_advance {f : Unit → Parse β} : TooDeep (advance >>= f) s ↔ TooDeep (f ()) s.next :=
  tooDeep_bind_of_ok (advance_run s)

theorem remaining_run (s : Cursor) : remaining.run s = .ok (s.tokens.length, s) := rfl

theorem tooDeep_map {g : α → β} : TooDeep (p >>= fun a => pure (g a)) s ↔ TooDeep p s := by
  rw [tooDeep_bind]
  constructor
  · rintro (h | ⟨a, s', -, h⟩)
    · exact h
    · exact absurd h (not_tooDeep_pure _)
  · exact .inl

theorem not_tooDeep_unexpected (wanted : Expected) : ¬TooDeep (unexpected wanted : Parse α) s := by
  unfold unexpected
  rw [tooDeep_bind_of_ok (current_run s)]
  exact not_tooDeep_failAt nofun

end TooDeep

/-! ### One loop -/

/-- What tells the literals of several parts from each other: the state in which their elements
    begin, the closing token and whether it may stand there instead of another element, what comes
    before an element and says how to make an entry of it, and what is wanted after one. -/
structure Listing (σ γ : Type) where
  init : σ
  close : Token
  mayClose : σ → Bool
  lead : σ → Parse ((Expression → γ) × σ)
  wanted : Expected

namespace Listing

/-- A list may close wherever an item may begin. -/
def list : Listing Unit Expression where
  init := ()
  close := .rightBracket
  mayClose := fun _ => true
  lead := fun _ => pure (id, ())
  wanted := .endOfItem

/-- So may a record; its elements follow their keys. -/
def record : Listing (List String) (String × Expression) where
  init := []
  close := .rightBrace
  mayClose := fun _ => true
  lead := fun seen => do
    let k ← key seen
    expect .colon .colon
    return (fun e => (k, e), k :: seen)
  wanted := .endOfField

/-- An argument list may close before its first element only. -/
def call : Listing Bool Expression where
  init := true
  close := .rightParen
  mayClose := fun first => first
  lead := fun _ => pure (id, false)
  wanted := .endOfArgument

variable {σ γ : Type} (l : Listing σ γ) (element : Parse Expression)

/-- The literal ends at a token. -/
def Closes (x : σ) (t : Token) : Prop := l.mayClose x = true ∧ t = l.close

instance (x : σ) (t : Token) : Decidable (l.Closes x t) := inferInstanceAs (Decidable (_ ∧ _))

/-- Reads what follows an element: a comma and more entries, or the closing token. -/
def continued (more : σ → Parse (List γ)) (entry : γ) (x : σ) : Parse (List γ) := do
  let t ← peek
  if t = .comma then
    advance
    return entry :: (← more x)
  else if t = l.close then
    advance
    return [entry]
  else unexpected l.wanted

/-- Reads an element with what comes before it, and then what follows it. -/
def entries (more : σ → Parse (List γ)) (x : σ) : Parse (List γ) := do
  let (entry, x') ← l.lead x
  let e ← element
  l.continued more (entry e) x'

/-- Reads the entries up to the closing token. -/
def series : (fuel : Nat) → σ → Parse (List γ)
  | 0, _ => unexpected l.wanted
  | fuel + 1, x => do
    if l.Closes x (← peek) then
      advance
      return []
    else
      l.entries element (series fuel) x

/-- Reads what follows the opening token. -/
def read : Parse (List γ) := do
  l.series element (← remaining) l.init

end Listing

namespace Listing

variable {σ γ : Type} {l : Listing σ γ} {element : Parse Expression} {x : σ}

theorem series_run (fuel : Nat) (s : Cursor) : (l.series element (fuel + 1) x).run s =
    if l.Closes x s.head then .ok ([], s.next) else (l.entries element (l.series element fuel) x).run s := by
  rw [series, bind_run, peek_run]
  change (if l.Closes x s.head then advance >>= fun _ => pure [] else _ : Parse (List γ)).run s = _
  split
  · rfl
  · rfl

/-- After a comma an argument list goes on. -/
theorem not_call_closes_false (t : Token) : ¬call.Closes false t := fun h => nomatch h.1

/-- The entries of a literal that are its elements. -/
theorem entries_eq {l : Listing σ Expression} {x' : σ} (h : l.lead x = pure (id, x'))
    (more : σ → Parse (List Expression)) :
    l.entries element more x = element >>= fun e => l.continued more e x' := by
  rw [entries, h]
  rfl

end Listing

variable (element : Parse Expression)

theorem items_eq (fuel : Nat) : items element fuel = Listing.list.series element fuel () := by
  induction fuel with
  | zero => rfl
  | succ fuel ih =>
    rw [items, Listing.series]
    refine congrArg (peek >>= ·) (funext fun t => ?_)
    by_cases ht : t = .rightBracket
    · rw [if_pos ht, if_pos ⟨rfl, ht⟩]
    · rw [if_neg ht, if_neg fun h => ht h.2, Listing.entries_eq rfl]
      refine congrArg (element >>= ·) (funext fun e => congrArg (peek >>= ·) (funext fun t => ?_))
      rw [ih]
      cases t <;> rfl

theorem fields_eq (fuel : Nat) (seen : List String) :
    fields element fuel seen = Listing.record.series element fuel seen := by
  induction fuel generalizing seen with
  | zero => rfl
  | succ fuel ih =>
    rw [fields, Listing.series]
    refine congrArg (peek >>= ·) (funext fun t => ?_)
    by_cases ht : t = .rightBrace
    · rw [if_pos ht, if_pos ⟨rfl, ht⟩]
    · rw [if_neg ht, if_neg fun h => ht h.2]
      simp only [Listing.entries, Listing.record, bind_assoc, pure_bind]
      refine congrArg (key seen >>= ·) (funext fun k => congrArg (expect _ _ >>= ·) (funext fun _ => ?_))
      refine congrArg (element >>= ·) (funext fun e => congrArg (peek >>= ·) (funext fun t => ?_))
      rw [ih]
      cases t <;> rfl

theorem arguments_eq (fuel : Nat) :
    arguments element fuel = Listing.call.series element fuel false := by
  induction fuel with
  | zero => rfl
  | succ fuel ih =>
    funext s
    rw [arguments]
    refine Eq.trans ?_ (Listing.series_run fuel s).symm
    rw [if_neg (Listing.not_call_closes_false _),
      Listing.entries_eq (show Listing.call.lead false = pure (id, false) from rfl)]
    refine congrFun (congrArg (element >>= ·) ?_) s
    refine funext fun e => congrArg (peek >>= ·) (funext fun t => ?_)
    rw [ih]
    cases t <;> rfl

theorem callArguments_eq : callArguments element = Listing.call.read element := by
  funext s
  have hrun : (callArguments element).run s = if s.head = .rightParen then .ok ([], s.next)
      else (arguments element s.tokens.length).run s := by
    unfold callArguments
    rw [bind_run, peek_run]
    change (if s.head = .rightParen then advance >>= fun _ => pure []
      else remaining >>= arguments element : Parse (List Expression)).run s = _
    split
    · rfl
    · rfl
  refine hrun.trans ?_
  change _ = (Listing.call.series element s.tokens.length true).run s
  obtain ⟨ts, d⟩ := s
  cases ts with
  | nil => rfl
  | cons t ts =>
    rw [List.length_cons, arguments_eq, Listing.series_run, Listing.series_run]
    -- Only the first element may be missing.
    rw [if_neg (Listing.not_call_closes_false _)]
    by_cases ht : (⟨t :: ts, d⟩ : Cursor).head = .rightParen
    · rw [if_pos ht, if_pos ⟨rfl, ht⟩]
    · rw [if_neg ht, if_neg (fun h => ht h.2)]
      rfl

/-! ### Elements -/

namespace Listing

variable {σ γ : Type}

/-- What comes before an element takes its tokens, keeps the depth, and is not too deep. -/
structure Regular (l : Listing σ γ) : Prop where
  takes : ∀ x, Takes (l.lead x) fun _ _ => True
  keeps : ∀ x d, Reads d (l.lead x) fun _ d' => d' = d
  shallow : ∀ x s, ¬TooDeep (l.lead x) s

theorem list_regular : list.Regular where
  takes _ := .pure trivial
  keeps _ _ := .pure rfl
  shallow _ _ := not_tooDeep_pure _

theorem call_regular : call.Regular where
  takes _ := .pure trivial
  keeps _ _ := .pure rfl
  shallow _ _ := not_tooDeep_pure _

/-- A key can be missing or repeated, but not too deep. -/
theorem not_tooDeep_key (seen : List String) (s : Cursor) : ¬TooDeep (key seen) s := by
  intro h
  rw [key, tooDeep_bind_of_ok (current_run s)] at h
  have hread {k : String} {position : Nat} {s : Cursor} : ¬TooDeep (do
      advance
      if k ∈ seen then failAt position (.repeatedKey k) else return k) s := by
    rw [tooDeep_advance]
    split
    · exact not_tooDeep_failAt nofun
    · exact not_tooDeep_pure k
  split at h
  · exact hread h
  · exact hread h
  · exact not_tooDeep_unexpected _ h

theorem not_tooDeep_expect (token : Token) (wanted : Expected) (s : Cursor) :
    ¬TooDeep (expect token wanted) s := by
  rw [expect, tooDeep_peek]
  split
  · rintro ⟨position, h⟩
    exact nomatch h
  · exact not_tooDeep_unexpected _

theorem record_regular : record.Regular where
  takes seen := by
    refine .bind ((key_takes seen).mono fun _ _ _ => trivial) fun _ _ _ => ?_
    exact .bind (expect_takes .colon nofun _) fun _ _ _ => .pure trivial
  keeps seen d := .level (key_reads d seen) fun _ => .level (expect_reads d _ _) fun _ => .pure rfl
  shallow seen s := by
    intro h
    rcases tooDeep_bind.1 h with h | ⟨k, s₁, -, h⟩
    · exact not_tooDeep_key seen s h
    · exact not_tooDeep_expect _ _ s₁ (tooDeep_map.1 h)

/-- Where the elements of a literal begin: the first one after what comes before it, the others after
    an element and a comma. -/
inductive Reaches (l : Listing σ γ) (element : Parse Expression) : σ → Cursor → Cursor → Prop
  | first {x x' : σ} {s s₁ : Cursor} {entry : Expression → γ} (more : ¬l.Closes x s.head)
      (lead : (l.lead x).run s = .ok ((entry, x'), s₁)) : Reaches l element x s s₁
  | next {x x' : σ} {s s₁ s₂ s₃ : Cursor} {entry : Expression → γ} {e : Expression}
      (more : ¬l.Closes x s.head) (lead : (l.lead x).run s = .ok ((entry, x'), s₁))
      (read : element.run s₁ = .ok (e, s₂)) (comma : s₂.head = .comma)
      (rest : Reaches l element x' s₂.next s₃) : Reaches l element x s s₃

end Listing

/-- A parser that takes tokens stays in front of the end of input. -/
theorem Takes.rest {α : Type} {p : Parse α} {P : List Token → α → Prop} (h : Takes p P) {s s' : Cursor}
    {a : α} (hrun : p.run s = .ok (a, s')) (heof : .eof ∈ s.word) :
    .eof ∈ s'.word ∧ s'.word.length ≤ s.word.length := by
  obtain ⟨us, hword, hus, -⟩ := h s a s' hrun
  rw [hword, List.mem_append] at heof
  rw [hword, List.length_append]
  exact ⟨heof.resolve_left hus, Nat.le_add_left _ _⟩

/-- So does a step to the next token. -/
theorem next_rest {s : Cursor} {t : Token} (ht : s.head = t) (hne : t ≠ .eof) (heof : .eof ∈ s.word) :
    .eof ∈ s.next.word ∧ s.next.word.length + 1 = s.word.length := by
  have h : s.head ≠ .eof := ht ▸ hne
  have hword := Cursor.eq_cons_of_headD (show s.word.headD .eof = s.head from rfl) h
  rw [Cursor.next_word, List.drop_one]
  rw [hword, List.mem_cons] at heof
  refine ⟨heof.resolve_left h.symm, ?_⟩
  conv_rhs => rw [hword]
  rfl

namespace Listing

variable {σ γ : Type} {l : Listing σ γ} {element : Parse Expression} {x : σ}

theorem continued_run (more : σ → Parse (List γ)) (entry : γ) (s : Cursor) :
    (l.continued more entry x).run s =
      if s.head = .comma then ((more x).run s.next).map fun r => (entry :: r.1, r.2)
      else if s.head = l.close then .ok ([entry], s.next)
      else (unexpected l.wanted).run s := by
  rw [continued, bind_run, peek_run]
  change (if s.head = .comma then advance >>= fun _ => more x >>= fun es => pure (entry :: es)
    else if s.head = l.close then _ else _ : Parse (List γ)).run s = _
  split
  · rw [bind_run, advance_run]
    change ((more x).run s.next).bind _ = _
    cases (more x).run s.next <;> rfl
  · split <;> rfl

/-- Entries are read alike where what comes after the next comma is. -/
theorem entries_congr {more more' : σ → Parse (List γ)} {s : Cursor}
    (h : ∀ entry x' s₁ e s₂, (l.lead x).run s = .ok ((entry, x'), s₁) →
      element.run s₁ = .ok (e, s₂) → s₂.head = .comma →
        (more x').run s₂.next = (more' x').run s₂.next) :
    (l.entries element more x).run s = (l.entries element more' x).run s := by
  unfold entries
  rw [bind_run, bind_run]
  cases hlead : (l.lead x).run s with
  | error e => rfl
  | ok r =>
    obtain ⟨⟨entry, x'⟩, s₁⟩ := r
    change (element >>= fun e => l.continued more (entry e) x').run s₁ =
      (element >>= fun e => l.continued more' (entry e) x').run s₁
    rw [bind_run, bind_run]
    cases hread : element.run s₁ with
    | error e => rfl
    | ok r =>
      obtain ⟨e, s₂⟩ := r
      change (l.continued more (entry e) x').run s₂ = (l.continued more' (entry e) x').run s₂
      rw [continued_run, continued_run]
      split
      · rename_i hcomma
        rw [h entry x' s₁ e s₂ hlead hread hcomma]
      · rfl

section Enough

variable (hl : l.Regular) {P : List Token → Expression → Prop} (h : Takes element P)
include hl h

/-- After a comma fewer tokens are ahead. -/
theorem rest_after_comma {entry : Expression → γ} {x' : σ} {e : Expression} {s s₁ s₂ : Cursor}
    (hlead : (l.lead x).run s = .ok ((entry, x'), s₁)) (hread : element.run s₁ = .ok (e, s₂))
    (hcomma : s₂.head = .comma) (heof : .eof ∈ s.word) :
    .eof ∈ s₂.next.word ∧ s₂.next.word.length < s.word.length := by
  obtain ⟨heof₁, hlength₁⟩ := (hl.takes x).rest hlead heof
  obtain ⟨heof₂, hlength₂⟩ := h.rest hread heof₁
  obtain ⟨heof₃, hlength₃⟩ := next_rest hcomma nofun heof₂
  exact ⟨heof₃, by omega⟩

/-- Fuel for each token is enough. -/
theorem series_succ {fuel : Nat} {s : Cursor} (heof : .eof ∈ s.word) (hfuel : s.word.length ≤ fuel) :
    (l.series element fuel x).run s = (l.series element (fuel + 1) x).run s := by
  induction fuel generalizing x s with
  | zero =>
    rw [List.eq_nil_of_length_eq_zero (Nat.le_zero.1 hfuel)] at heof
    exact nomatch heof
  | succ fuel ih =>
    rw [series_run, series_run]
    split
    · rfl
    · refine entries_congr fun entry x' s₁ e s₂ hlead hread hcomma => ?_
      obtain ⟨heof₂, hlength⟩ := rest_after_comma hl h hlead hread hcomma heof
      exact ih heof₂ (by omega)

theorem series_enough {fuel fuel' : Nat} {s : Cursor} (heof : .eof ∈ s.word)
    (hfuel : s.word.length ≤ fuel) (hle : fuel ≤ fuel') :
    (l.series element fuel' x).run s = (l.series element fuel x).run s := by
  induction fuel', hle using Nat.le_induction with
  | base => rfl
  | succ n hn ih => rw [← series_succ hl h heof (Nat.le_trans hfuel hn), ih]

omit h in
/-- Entries are too deep exactly if their element is, or what comes after its comma. -/
theorem entries_tooDeep_iff {more : σ → Parse (List γ)} {s : Cursor} :
    TooDeep (l.entries element more x) s ↔ ∃ entry x' s₁,
      (l.lead x).run s = .ok ((entry, x'), s₁) ∧ (TooDeep element s₁ ∨ ∃ e s₂,
        element.run s₁ = .ok (e, s₂) ∧ s₂.head = .comma ∧ TooDeep (more x') s₂.next) := by
  have hcontinued {entry : γ} {x' : σ} {s₂ : Cursor} : TooDeep (l.continued more entry x') s₂ ↔
      s₂.head = .comma ∧ TooDeep (more x') s₂.next := by
    rw [continued, tooDeep_peek]
    by_cases hcomma : s₂.head = .comma
    · rw [if_pos hcomma, tooDeep_advance, tooDeep_map]
      exact ⟨fun hmore => ⟨hcomma, hmore⟩, fun hmore => hmore.2⟩
    · rw [if_neg hcomma]
      refine iff_of_false ?_ fun hmore => hcomma hmore.1
      split
      · rw [tooDeep_advance]
        exact not_tooDeep_pure _
      · exact not_tooDeep_unexpected _
  rw [entries, tooDeep_bind]
  constructor
  · rintro (hlead | ⟨⟨entry, x'⟩, s₁, hlead, helement⟩)
    · exact absurd hlead (hl.shallow x s)
    · refine ⟨entry, x', s₁, hlead, ?_⟩
      rcases tooDeep_bind.1 helement with hdeep | ⟨e, s₂, hread, hmore⟩
      · exact .inl hdeep
      · exact .inr ⟨e, s₂, hread, hcontinued.1 hmore⟩
  · rintro ⟨entry, x', s₁, hlead, hdeep | ⟨e, s₂, hread, hmore⟩⟩
    · exact .inr ⟨(entry, x'), s₁, hlead, tooDeep_bind.2 (.inl hdeep)⟩
    · exact .inr ⟨(entry, x'), s₁, hlead, tooDeep_bind.2 (.inr ⟨e, s₂, hread, hcontinued.2 hmore⟩)⟩

/-- A series is too deep exactly if an element is that it reaches. -/
theorem series_tooDeep_iff {fuel : Nat} {s : Cursor} (heof : .eof ∈ s.word)
    (hfuel : s.word.length ≤ fuel) : TooDeep (l.series element fuel x) s ↔
      ∃ s', l.Reaches element x s s' ∧ TooDeep element s' := by
  induction fuel generalizing x s with
  | zero =>
    rw [List.eq_nil_of_length_eq_zero (Nat.le_zero.1 hfuel)] at heof
    exact nomatch heof
  | succ fuel ih =>
    rw [series, tooDeep_peek]
    by_cases hcloses : l.Closes x s.head
    · rw [if_pos hcloses, tooDeep_advance]
      refine iff_of_false (not_tooDeep_pure _) ?_
      rintro ⟨s', hreaches, -⟩
      cases hreaches with
      | first more _ => exact more hcloses
      | next more _ _ _ _ => exact more hcloses
    · rw [if_neg hcloses, entries_tooDeep_iff hl]
      constructor
      · rintro ⟨entry, x', s₁, hlead, hdeep | ⟨e, s₂, hread, hcomma, hmore⟩⟩
        · exact ⟨s₁, .first hcloses hlead, hdeep⟩
        · obtain ⟨heof₂, hlength⟩ := rest_after_comma hl h hlead hread hcomma heof
          obtain ⟨s', hreaches, hdeep⟩ := (ih heof₂ (by omega)).1 hmore
          exact ⟨s', .next hcloses hlead hread hcomma hreaches, hdeep⟩
      · rintro ⟨s', hreaches, hdeep⟩
        cases hreaches with
        | first _ hlead => exact ⟨_, _, _, hlead, .inl hdeep⟩
        | next _ hlead hread hcomma rest =>
          obtain ⟨heof₂, hlength⟩ := rest_after_comma hl h hlead hread hcomma heof
          have hmore := (ih heof₂ (by omega)).2 ⟨s', rest, hdeep⟩
          exact ⟨_, _, _, hlead, .inr ⟨_, _, hread, hcomma, hmore⟩⟩

theorem read_tooDeep_iff {s : Cursor} (heof : .eof ∈ s.word) : TooDeep (l.read element) s ↔
    ∃ s', l.Reaches element l.init s s' ∧ TooDeep element s' := by
  have hlength : s.word.length = s.tokens.length := List.length_map _
  rw [read, tooDeep_bind_of_ok (remaining_run s)]
  exact series_tooDeep_iff hl h heof hlength.le

/-- The end of input is still ahead where an element begins. -/
theorem Reaches.eof {s s' : Cursor} (hreaches : l.Reaches element x s s') (heof : .eof ∈ s.word) :
    .eof ∈ s'.word := by
  induction hreaches with
  | first _ lead => exact ((hl.takes _).rest lead heof).1
  | next _ lead read comma _ ih => exact ih (rest_after_comma hl h lead read comma heof).1

end Enough

section Depth

variable (hl : l.Regular) (h : ∀ d, Reads d element fun _ d' => d' = d)
include hl h

/-- All elements begin at the depth at which the literal does. -/
theorem Reaches.depth {s s' : Cursor} (hreaches : l.Reaches element x s s') : s'.depth = s.depth := by
  induction hreaches with
  | first _ lead => exact hl.keeps _ _ _ _ _ rfl lead
  | next _ lead read _ _ ih =>
    have hlead := hl.keeps _ _ _ _ _ rfl lead
    have hread := h _ _ _ _ rfl read
    exact ih.trans (hread.trans hlead)

theorem series_keeps (fuel d : Nat) : Reads d (l.series element fuel x) fun _ d' => d' = d := by
  induction fuel generalizing x with
  | zero => exact .unexpected _
  | succ fuel ih =>
    refine .level .peek fun t => .ite (.level .advance fun _ => .pure rfl) ?_
    refine .level (hl.keeps x d) fun r => .level (h d) fun e => .level .peek fun t => ?_
    refine .ite ?_ (.ite (.level .advance fun _ => .pure rfl) (.unexpected _))
    exact .level .advance fun _ => .level ih fun _ => .pure rfl

theorem read_keeps (d : Nat) : Reads d (l.read element) fun _ d' => d' = d :=
  .level .remaining fun _ => series_keeps hl h _ d

end Depth

end Listing

/-! ### Literals among the operands -/

variable {element : Parse Expression}

/-- Where a literal of several parts begins. -/
inductive OpensLiteral (s : Cursor) : Prop
  | list (opens : s.head = .leftBracket)
  | record (opens : s.head = .leftBrace)
  | call {name : String} (word : s.head = .word name) (free : Grammar.keyword? name = none)
      (opens : s.next.head = .leftParen)

/-- Where the elements of a literal begin. -/
inductive Element (element : Parse Expression) (s : Cursor) : Cursor → Prop
  | item {s' : Cursor} (opens : s.head = .leftBracket)
      (reaches : Listing.list.Reaches element () s.next s') : Element element s s'
  | field {s' : Cursor} (opens : s.head = .leftBrace)
      (reaches : Listing.record.Reaches element [] s.next s') : Element element s s'
  | argument {name : String} {s' : Cursor} (word : s.head = .word name)
      (free : Grammar.keyword? name = none) (opens : s.next.head = .leftParen)
      (reaches : Listing.call.Reaches element true s.next.next s') : Element element s s'

theorem primary_list {s : Cursor} (h : s.head = .leftBracket) :
    TooDeep (primary element) s ↔ TooDeep (Listing.list.read element) s.next := by
  rw [primary, tooDeep_bind_of_ok (current_run s)]
  simp only [token_headD, h]
  rw [tooDeep_advance, Listing.read]
  simp only [items_eq]
  rw [tooDeep_bind_of_ok (remaining_run _), tooDeep_bind_of_ok (remaining_run _), tooDeep_map]

theorem primary_record {s : Cursor} (h : s.head = .leftBrace) :
    TooDeep (primary element) s ↔ TooDeep (Listing.record.read element) s.next := by
  rw [primary, tooDeep_bind_of_ok (current_run s)]
  simp only [token_headD, h]
  rw [tooDeep_advance, Listing.read]
  simp only [fields_eq]
  rw [tooDeep_bind_of_ok (remaining_run _), tooDeep_bind_of_ok (remaining_run _), tooDeep_map]
  rfl

theorem primary_call {s : Cursor} {name : String} (h : s.head = .word name)
    (free : Grammar.keyword? name = none) (opens : s.next.head = .leftParen) :
    TooDeep (primary element) s ↔ TooDeep (Listing.call.read element) s.next.next := by
  obtain ⟨h₁, h₂, h₃, h₄⟩ := Grammar.keyword?_eq_none_iff.1 free
  rw [primary, tooDeep_bind_of_ok (current_run s)]
  simp only [token_headD, h]
  rw [wordForm, tooDeep_advance, if_neg h₁, if_neg h₂, if_neg h₃, if_neg h₄, tooDeep_peek,
    if_pos opens, tooDeep_advance, tooDeep_map, callArguments_eq]

/-- A literal is too deep exactly if one of its elements is. -/
theorem primary_tooDeep_iff {P : List Token → Expression → Prop} (h : Takes element P) {s : Cursor}
    (hs : OpensLiteral s) (heof : .eof ∈ s.word) :
    TooDeep (primary element) s ↔ ∃ s', Element element s s' ∧ TooDeep element s' := by
  cases hs with
  | list opens =>
    have heof' := (next_rest opens (by simp) heof).1
    rw [primary_list opens, Listing.read_tooDeep_iff Listing.list_regular h heof']
    refine exists_congr fun s' => and_congr_left fun _ => ⟨.item opens, fun he => ?_⟩
    cases he with
    | item _ reaches => exact reaches
    | field opens' _ => cases opens.symm.trans opens'
    | argument word _ _ _ => cases opens.symm.trans word
  | record opens =>
    have heof' := (next_rest opens (by simp) heof).1
    rw [primary_record opens, Listing.read_tooDeep_iff Listing.record_regular h heof']
    refine exists_congr fun s' => and_congr_left fun _ => ⟨.field opens, fun he => ?_⟩
    cases he with
    | item opens' _ => cases opens.symm.trans opens'
    | field _ reaches => exact reaches
    | argument word _ _ _ => cases opens.symm.trans word
  | call word free opens =>
    have heof' := (next_rest opens (by simp) (next_rest word (by simp) heof).1).1
    rw [primary_call word free opens, Listing.read_tooDeep_iff Listing.call_regular h heof']
    refine exists_congr fun s' => and_congr_left fun _ => ⟨.argument word free opens, fun he => ?_⟩
    cases he with
    | item opens' _ => cases word.symm.trans opens'
    | field opens' _ => cases word.symm.trans opens'
    | argument _ _ _ reaches => exact reaches

/-! ### The depth -/

section Depth

variable (h : ∀ d, Reads d element fun _ d' => d' = d) (d : Nat)
include h

theorem callArguments_keeps : Reads d (callArguments element) fun _ d' => d' = d := by
  rw [callArguments_eq]
  exact Listing.read_keeps Listing.call_regular h d

theorem wordForm_keeps (name : String) (position : Nat) :
    Reads d (wordForm element name position) fun _ d' => d' = d := by
  refine .level .advance fun _ => .ite (.pure rfl) (.ite (.pure rfl) (.ite (.pure rfl) (.ite (.pure rfl) ?_)))
  refine .level .peek fun t => .ite ?_ (.failAt _ _)
  exact .level .advance fun _ => .level (callArguments_keeps h d) fun _ => .pure rfl

theorem items_keeps (fuel : Nat) : Reads d (items element fuel) fun _ d' => d' = d := by
  rw [items_eq]
  exact Listing.series_keeps Listing.list_regular h fuel d

theorem fields_keeps (fuel : Nat) (seen : List String) :
    Reads d (fields element fuel seen) fun _ d' => d' = d := by
  rw [fields_eq]
  exact Listing.series_keeps Listing.record_regular h fuel d

theorem primary_keeps : Reads d (primary element) fun _ d' => d' = d := by
  refine .level .current fun t => ?_
  split
  · exact .level .advance fun _ => .pure rfl
  · exact .level .advance fun _ => .pure rfl
  · exact .level .advance fun _ => .pure rfl
  · exact .level .advance fun _ => .pure rfl
  · refine .level .advance fun _ => .level .peek fun t => ?_
    split
    · exact .ite (.unexpected _) (.level .advance fun _ => .pure rfl)
    · exact .unexpected _
  · exact .level .advance fun _ => .level (h d) fun _ => .level (expect_reads _ _ _) fun _ => .pure rfl
  · exact .level .advance fun _ => .level .remaining fun k => .level (items_keeps h d k) fun _ => .pure rfl
  · exact .level .advance fun _ => .level .remaining fun k => .level (fields_keeps h d k []) fun _ => .pure rfl
  · exact wordForm_keeps h d _ _
  · exact .unexpected _

omit h in
/-- Member accesses enter levels, and these are left at the end. -/
theorem access_keeps : Reads d (access element) fun _ d' => d' = d :=
  .keepDepth fun _ _ _ _ _ => rfl

omit d in
theorem Element.depth {s s' : Cursor} (hs : Element element s s') : s'.depth = s.depth := by
  cases hs with
  | item _ reaches => exact reaches.depth Listing.list_regular h
  | field _ reaches => exact reaches.depth Listing.record_regular h
  | argument _ _ _ reaches => exact reaches.depth Listing.call_regular h

end Depth

theorem Element.eof {P : List Token → Expression → Prop} (h : Takes element P) {s s' : Cursor}
    (hs : Element element s s') (heof : .eof ∈ s.word) : .eof ∈ s'.word := by
  cases hs with
  | item opens reaches => exact reaches.eof Listing.list_regular h (next_rest opens nofun heof).1
  | field opens reaches => exact reaches.eof Listing.record_regular h (next_rest opens nofun heof).1
  | argument word _ opens reaches =>
    exact reaches.eof Listing.call_regular h (next_rest opens nofun (next_rest word nofun heof).1).1

end Parse

end EntityFormulas
