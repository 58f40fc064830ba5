/-
  EntityFormulas/Proofs/Formula/Mentions.lean
  ===========================================
  **What a formula refers to is what its text names.**

  `Mentions ts es` says that some tokens and some parts of a formula name the
  same entities and the same own properties, in the same order, each as often,
  and that every member access among the parts is written with a dot.  Each rule
  of the grammar keeps it, so it holds between the tokens of a text and all parts
  of the formula read from it.  Sets and traversals are read off the parts
  (`Expression.parse_mentions`).
-/
import EntityFormulas.Proofs.Formula.Acceptance
import EntityFormulas.Proofs.Formula.Traversals

namespace EntityFormulas

namespace Token

/-! ### What tokens name -/

/-- The entities that tokens name, from left to right: by an id, or by a text behind an at sign. -/
def entityIds : List Token → List String
  | [] => []
  | .entity id :: ts => id :: entityIds ts
  | .atSign :: .text id :: ts => id :: entityIds ts
  | _ :: ts => entityIds ts

/-- The own property that a token names. -/
def property? : Token → Option String
  | .property name => some name
  | _ => none

theorem mem_filterMap_property? {name : String} {ts : List Token} :
    name ∈ ts.filterMap property? ↔ .property name ∈ ts := by
  rw [List.mem_filterMap]
  constructor
  · rintro ⟨t, ht, hname⟩
    cases t with
    | property name' =>
      cases hname
      exact ht
    | _ => exact nomatch hname
  · exact fun h => ⟨_, h, rfl⟩

/-- Whether a token has no part in naming entities and own properties, wherever it comes first. -/
def isSilent : Token → Bool
  | .property _ | .entity _ | .atSign => false
  | _ => true

theorem entityIds_silent {t : Token} (ht : t.isSilent = true) (ts : List Token) :
    entityIds (t :: ts) = entityIds ts := by
  cases t with
  | property _ | entity _ | atSign => exact nomatch ht
  | _ => rfl

/-- No at sign waits for the text behind it. -/
def Closed (ts : List Token) : Prop := ts.getLast? ≠ some .atSign

theorem entityIds_append {ts : List Token} (h : Closed ts) (us : List Token) :
    entityIds (ts ++ us) = entityIds ts ++ entityIds us := by
  induction ts using entityIds.induct with
  | case1 => rfl
  | case2 id ts ih =>
    have hrest : Closed ts := by
      cases ts with
      | nil => exact nofun
      | cons t ts => exact h
    rw [List.cons_append, entityIds, ih hrest]
    rfl
  | case3 id ts ih =>
    have hrest : Closed ts := by
      cases ts with
      | nil => exact nofun
      | cons t ts => exact h
    rw [List.cons_append, List.cons_append, entityIds, ih hrest]
    rfl
  | case4 t ts hentity hsign ih =>
    cases ts with
    | nil =>
      cases t with
      | atSign => exact absurd rfl h
      | entity id => exact absurd rfl (hentity id)
      | _ => rfl
    | cons u ts =>
      rw [List.cons_append, entityIds, entityIds, ih h]
      · exact hentity
      · exact hsign
      · exact hentity
      · exact fun id us ht hu => hsign id ts ht (by rw [(List.cons.inj hu).1])

theorem mem_entityIds {id : String} {ts : List Token} :
    id ∈ entityIds ts ↔ .entity id ∈ ts ∨ [.atSign, .text id] <:+: ts := by
  induction ts using entityIds.induct with
  | case1 => simp [entityIds]
  | case2 id' ts ih => simp [entityIds, ih, List.infix_cons_iff, or_assoc]
  | case3 id' ts ih =>
    simp only [entityIds, List.mem_cons, ih, List.infix_cons_iff, List.cons_prefix_cons,
      List.nil_prefix, reduceCtorEq, Token.text.injEq, false_or, true_and, and_true, false_and]
    exact or_left_comm
  | case4 t ts hentity hsign ih =>
    have hfirst : Token.entity id ≠ t := fun h => hentity id h.symm
    have hpair : ¬ [.atSign, .text id] <+: t :: ts := by
      rintro ⟨us, heq⟩
      obtain ⟨rfl, rfl⟩ := List.cons.inj heq
      exact hsign id us rfl rfl
    rw [entityIds, ih, List.mem_cons, List.infix_cons_iff]
    · simp only [hfirst, hpair, false_or]
    · exact hentity
    · exact hsign

end Token

/-! ### What parts of a formula name -/

namespace Expression

/-- The entity that a part names. -/
def entityId? : Expression → Option String
  | .entityRef id => some id
  | _ => none

/-- The own property that a part names. -/
def ownProperty? : Expression → Option String
  | .selfProperty name => some name
  | _ => none

theorem mem_entityIds {e : Expression} {id : String} :
    id ∈ e.entityIds ↔ id ∈ e.parts.filterMap entityId? := mem_ascending

theorem mem_ownProperties {e : Expression} {name : String} :
    name ∈ e.ownProperties ↔ name ∈ e.parts.filterMap ownProperty? := mem_ascending

/-- Entities that traversals start at are named by the formula. -/
theorem mem_entityIds_of_root {e : Expression} {tr : Traversal} (h : tr ∈ e.traversals)
    {id : String}
    (hroot : tr.root = .entity id) : id ∈ e.entityIds := by
  obtain ⟨d, hd, hstart⟩ := exists_root h
  rw [hroot] at hstart
  refine mem_entityIds.2 (List.mem_filterMap.2 ⟨d, hd, ?_⟩)
  cases d with
  | entityRef id' =>
    cases hstart
    rfl
  | _ => cases hstart

/-- Own properties that traversals start at are named by the formula. -/
theorem mem_ownProperties_of_root {e : Expression} {tr : Traversal} (h : tr ∈ e.traversals)
    {name : String} (hroot : tr.root = .selfProperty name) : name ∈ e.ownProperties := by
  obtain ⟨d, hd, hstart⟩ := exists_root h
  rw [hroot] at hstart
  refine mem_ownProperties.2 (List.mem_filterMap.2 ⟨d, hd, ?_⟩)
  cases d with
  | selfProperty name' =>
    cases hstart
    rfl
  | _ => cases hstart

/-- Whether a formula does something with those below it, other than reading a member. -/
def Compound (e : Expression) : Prop :=
  e.entityId? = none ∧ e.ownProperty? = none ∧ ∀ o name, e ≠ .member o name

end Expression

namespace Grammar

open Token (entityIds property? isSilent Closed)

/-- Tokens that name what some parts of a formula do. -/
structure Mentions (ts : List Token) (es : List Expression) : Prop where
  entities : Token.entityIds ts = es.filterMap Expression.entityId?
  properties : ts.filterMap Token.property? = es.filterMap Expression.ownProperty?
  members : ∀ o name, .member o name ∈ es → [.dot, .word name] <:+: ts
  closed : Closed ts

namespace Mentions

variable {ts us : List Token} {es fs : List Expression} {t : Token}

theorem nil : Mentions [] [] := ⟨rfl, rfl, nofun, nofun⟩

theorem append (h : Mentions ts es) (h' : Mentions us fs) : Mentions (ts ++ us) (es ++ fs) where
  entities := by
    rw [Token.entityIds_append h.closed, h.entities, h'.entities, List.filterMap_append]
  properties := by
    rw [List.filterMap_append, h.properties, h'.properties, List.filterMap_append]
  members o name hmem := by
    rcases List.mem_append.1 hmem with hmem | hmem
    · exact (h.members o name hmem).trans (List.prefix_append ts us).isInfix
    · exact (h'.members o name hmem).trans (List.suffix_append ts us).isInfix
  closed := by
    intro hlast
    rw [List.getLast?_append] at hlast
    rcases Option.or_eq_some_iff.1 hlast with hlast | ⟨-, hlast⟩
    · exact h'.closed hlast
    · exact h.closed hlast

/-- A token that names nothing. -/
theorem silent (ht : t.isSilent = true) : Mentions [t] [] := by
  refine ⟨Token.entityIds_silent ht [], ?_, nofun, ?_⟩
  all_goals cases t <;> simp_all [Token.isSilent, Token.property?, Closed]

/-- A token that names nothing comes first. -/
theorem cons (ht : t.isSilent = true) (h : Mentions ts es) : Mentions (t :: ts) es :=
  (silent ht).append h

/-- A token that names nothing comes last. -/
theorem concat (h : Mentions ts es) (ht : t.isSilent = true) : Mentions (ts ++ [t]) es := by
  have := h.append (silent ht)
  rwa [List.append_nil] at this

/-- Nothing is written for a compound formula besides the formulas below it. -/
theorem compound {e : Expression} (he : e.Compound) (h : Mentions ts es) :
    Mentions ts (e :: es) where
  entities := by rw [List.filterMap_cons_none he.1, h.entities]
  properties := by rw [List.filterMap_cons_none he.2.1, h.properties]
  members o name hmem := by
    rcases List.mem_cons.1 hmem with heq | hmem
    · exact absurd heq.symm (he.2.2 o name)
    · exact h.members o name hmem
  closed := h.closed

/-- A member access is written behind its object. -/
theorem member {o : Expression} (h : Mentions ts o.parts) (name : String) :
    Mentions (ts ++ [.dot, .word name]) (Expression.member o name).parts := by
  have hbehind : Mentions (ts ++ [.dot, .word name]) o.parts := by
    have := (h.concat (t := .dot) rfl).concat (t := .word name) rfl
    rwa [List.append_assoc] at this
  refine ⟨hbehind.entities, hbehind.properties, fun o' name' hmem => ?_, hbehind.closed⟩
  rcases List.mem_cons.1 hmem with heq | hmem
  · cases heq
    exact (List.suffix_append ts _).isInfix
  · exact hbehind.members o' name' hmem

theorem mem_entityIds {e : Expression} (h : Mentions ts e.parts) {id : String} :
    id ∈ e.entityIds ↔ .entity id ∈ ts ∨ [.atSign, .text id] <:+: ts := by
  rw [Expression.mem_entityIds, ← h.entities, Token.mem_entityIds]

theorem mem_ownProperties {e : Expression} (h : Mentions ts e.parts) {name : String} :
    name ∈ e.ownProperties ↔ .property name ∈ ts := by
  rw [Expression.mem_ownProperties, ← h.properties, Token.mem_filterMap_property?]

end Mentions

/-! ### Rules -/

theorem isSilent_of_operator? {t : Token} {x : Nat × BinaryOp} (h : operator? t = some x) :
    t.isSilent = true := by
  cases t with
  | property _ | entity _ | atSign => exact nomatch h
  | _ => rfl

theorem isSilent_of_key? {t : Token} {k : String} (h : key? t = some k) : t.isSilent = true := by
  cases t with
  | text _ | word _ => rfl
  | _ => cases h

theorem mentions_of_keyword? {word : String} {e : Expression} (h : keyword? word = some e) :
    Mentions [.word word] e.parts := by
  have hparts : e.parts = [e] ∧ e.Compound := by
    unfold keyword? at h
    repeat' split at h
    all_goals
      cases h
    all_goals
      exact ⟨rfl, rfl, rfl, nofun⟩
  rw [hparts.1]
  exact (Mentions.silent rfl).compound hparts.2

theorem mentions_of_constant? {t : Token} {e : Expression} (h : constant? t = some e) :
    Mentions [t] e.parts := by
  cases t with
  | word name => exact mentions_of_keyword? h
  | number x | text s =>
    cases h
    exact (Mentions.silent rfl).compound ⟨rfl, rfl, nofun⟩
  | property name | entity id =>
    cases h
    exact ⟨rfl, rfl, by simp [Expression.parts], by simp [Closed]⟩
  | _ => cases h

theorem Trailing.mentions {comma : List Token} (h : Trailing comma) : Mentions comma [] := by
  rcases h with rfl | rfl
  · exact .nil
  · exact .silent rfl

theorem Members.mentions {o e : Expression} {us : List Token} (h : Members o us e) :
    ∀ {ts : List Token}, Mentions ts o.parts → Mentions (ts ++ us) e.parts := by
  induction h with
  | none =>
    intro ts hobject
    rwa [List.append_nil]
  | next more ih =>
    intro ts hobject
    have := ih (hobject.member _)
    rwa [List.append_assoc] at this

mutual

theorem Chain.mentions {n : Nat} {ts : List Token} {e : Expression} :
    Chain n ts e → Mentions ts e.parts
  | .operators _ left more => more.mentions left.mentions
  | .operand inner => inner.mentions
termination_by structural h => h

theorem Operators.mentions {n : Nat} {l e : Expression} {us ts : List Token} :
    Operators n l us e → Mentions ts l.parts → Mentions (ts ++ us) e.parts
  | .none, hleft => by rwa [List.append_nil]
  | .next operator right more, hleft => by
    have hboth := hleft.append (right.mentions.cons (isSilent_of_operator? operator))
    have := more.mentions (hboth.compound ⟨rfl, rfl, nofun⟩)
    rwa [List.append_assoc] at this
termination_by structural h => h

theorem Unary.mentions {ts : List Token} {e : Expression} : Unary ts e → Mentions ts e.parts
  | .not inner => (inner.mentions.cons rfl).compound ⟨rfl, rfl, nofun⟩
  | .neg inner => (inner.mentions.cons rfl).compound ⟨rfl, rfl, nofun⟩
  | .access object more => more.mentions object.mentions
termination_by structural h => h

theorem Primary.mentions {ts : List Token} {e : Expression} : Primary ts e → Mentions ts e.parts
  | .constant value => mentions_of_constant? value
  | .entity _ => ⟨rfl, rfl, by simp [Expression.parts], by simp [Closed]⟩
  | .group inner => (inner.mentions.concat rfl).cons rfl
  | .call _ args => (((args.mentions.concat rfl).cons rfl).cons rfl).compound ⟨rfl, rfl, nofun⟩
  | .list items => ((items.mentions.concat rfl).cons rfl).compound ⟨rfl, rfl, nofun⟩
  | .record entries _ => ((entries.mentions.concat rfl).cons rfl).compound ⟨rfl, rfl, nofun⟩
termination_by structural h => h

theorem Arguments.mentions {ts : List Token} {es : List Expression} :
    Arguments ts es → Mentions ts (Expression.partsOfList es)
  | .none => .nil
  | .some args => args.mentions
termination_by structural h => h

theorem Items.mentions {ts : List Token} {es : List Expression} :
    Items ts es → Mentions ts (Expression.partsOfList es)
  | .none => .nil
  | .some items trailing => by
    have := items.mentions.append trailing.mentions
    rwa [List.append_nil] at this
termination_by structural h => h

theorem Entries.mentions {ts : List Token} {fs : List (String × Expression)} :
    Entries ts fs → Mentions ts (Expression.partsOfFields fs)
  | .none => .nil
  | .some fields trailing => by
    have := fields.mentions.append trailing.mentions
    rwa [List.append_nil] at this
termination_by structural h => h

theorem Sequence.mentions {ts : List Token} {es : List Expression} :
    Sequence ts es → Mentions ts (Expression.partsOfList es)
  | .one last => by
    rw [Expression.partsOfList, Expression.partsOfList, List.append_nil]
    exact last.mentions
  | .more first rest => first.mentions.append (rest.mentions.cons rfl)
termination_by structural h => h

theorem Fields.mentions {ts : List Token} {fs : List (String × Expression)} :
    Fields ts fs → Mentions ts (Expression.partsOfFields fs)
  | .one key last => by
    rw [Expression.partsOfFields, Expression.partsOfFields, List.append_nil]
    exact (last.mentions.cons rfl).cons (isSilent_of_key? key)
  | .more key first rest =>
    (((first.mentions.append (rest.mentions.cons rfl)).cons rfl).cons (isSilent_of_key? key))
termination_by structural h => h

end

end Grammar

/-! ### Texts -/

/-- What a formula refers to is what the tokens of its text name: its entities are the ids and the
    texts behind at signs, its own properties those with a hash sign, each once; and its traversals
    start at these or at the own entity and go on by words behind dots. -/
theorem Expression.parse_mentions {source : String} {e : Expression}
    (h : Expression.parse source = .ok e) :
    ∃ ts, Token.tokens source = .ok ts ∧
      (∀ id, id ∈ e.entityIds ↔ .entity id ∈ ts.map PlacedToken.token ∨
        [.atSign, .text id] <:+: ts.map PlacedToken.token) ∧
      (∀ name, name ∈ e.ownProperties ↔ .property name ∈ ts.map PlacedToken.token) ∧
      e.entityIds.Pairwise (· < ·) ∧ e.ownProperties.Pairwise (· < ·) ∧
      ∀ tr ∈ e.traversals,
        (∀ hop ∈ tr.hops, [.dot, .word hop] <:+: ts.map PlacedToken.token) ∧
        (∀ id, tr.root = .entity id → id ∈ e.entityIds) ∧
        (∀ name, tr.root = .selfProperty name → name ∈ e.ownProperties) := by
  obtain ⟨ts, word, htokens, hword, hformula⟩ := formula_of_parse h
  have hm : Grammar.Mentions (ts.map PlacedToken.token) e.parts := by
    rw [hword]
    exact hformula.mentions.concat rfl
  refine ⟨ts, htokens, fun id => hm.mem_entityIds, fun name => hm.mem_ownProperties,
    ascending_pairwise _, ascending_pairwise _, fun tr htr => ⟨fun hop hhop => ?_,
      fun id => mem_entityIds_of_root htr, fun name => mem_ownProperties_of_root htr⟩⟩
  obtain ⟨o, ho⟩ := exists_member htr hhop
  exact hm.members o hop ho

/-- A formula with chains at a named entity, at an own property and at the own entity. -/
theorem chains_parse_mentions :
    let e : Expression := .binary .sub (.binary .add (.member (.entityRef "a b") "x")
      (.member (.member (.selfProperty "n") "y") "z")) (.member .selfEntity "w")
    Expression.parse "@'a b'.x + #n.y.z - self.w" = .ok e ∧
    ∃ ts, Token.tokens "@'a b'.x + #n.y.z - self.w" = .ok ts ∧
      (.entity "a b" ∈ ts.map PlacedToken.token ∨
        [.atSign, .text "a b"] <:+: ts.map PlacedToken.token) ∧
      .property "n" ∈ ts.map PlacedToken.token ∧
      (∀ hop ∈ ["x", "y", "z", "w"], [.dot, .word hop] <:+: ts.map PlacedToken.token) := by
  intro e
  have htokens : Token.tokens "@'a b'.x + #n.y.z - self.w" = .ok [⟨.atSign, 0⟩, ⟨.text "a b", 1⟩,
      ⟨.dot, 6⟩, ⟨.word "x", 7⟩, ⟨.plus, 9⟩, ⟨.property "n", 11⟩, ⟨.dot, 13⟩, ⟨.word "y", 14⟩,
      ⟨.dot, 15⟩, ⟨.word "z", 16⟩, ⟨.minus, 18⟩, ⟨.word "self", 20⟩, ⟨.dot, 24⟩, ⟨.word "w", 25⟩,
      ⟨.eof, 26⟩] := by decide +kernel
  have hparse : Expression.parse "@'a b'.x + #n.y.z - self.w" = .ok e := by
    unfold Expression.parse
    rw [htokens]
    rfl
  have htraversals : e.traversals =
      [⟨.selfEntity, ["w"]⟩, ⟨.entity "a b", ["x"]⟩, ⟨.selfProperty "n", ["y", "z"]⟩] := by
    decide +kernel
  obtain ⟨ts, hts, hids, hnames, -, -, htr⟩ := Expression.parse_mentions hparse
  rw [htraversals] at htr
  refine ⟨hparse, ts, hts, (hids "a b").1 (by decide +kernel),
    (hnames "n").1 (by decide +kernel), ?_⟩
  simp only [List.forall_mem_cons] at htr ⊢
  exact ⟨htr.2.1.1.1, htr.2.2.1.1.1, htr.2.2.1.1.2.1, htr.1.1.1, nofun⟩

end EntityFormulas
