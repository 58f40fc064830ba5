/-
  EntityFormulas/Proofs/Formula/Traversals.lean
  =============================================
  **The dotted chains of a formula.**

  A chain is a start with steps behind it; its parts are its start and its
  shorter chains.  The traversals of a formula are the longest chains in it that
  start at an entity or at an own property: each of them is a part of the
  formula (`exists_chain`), and each member access behind such a start lies on
  one of them (`exists_traversal`).
-/
import EntityFormulas.Formula.Reference
import EntityFormulas.Proofs.Evaluation.Simulation

namespace EntityFormulas.Expression

/-! ### One chain -/

theorem unwind_member (o : Expression) (name : String) :
    (Expression.member o name).unwind = (o.unwind.1, o.unwind.2 ++ [name]) := rfl

/-- The start of a chain is inside it. -/
theorem unwind_fst_mem_parts (e : Expression) : e.unwind.1 ∈ e.parts := by
  induction e using induct with
  | h e ih =>
    cases e with
    | member o name =>
      rw [unwind_member]
      exact parts_subset_of_child List.mem_cons_self (ih o List.mem_cons_self)
    | _ => exact mem_parts_self _

/-- Every step of a chain is a member access inside it. -/
theorem exists_member_of_mem_unwind {e : Expression} {name : String} (h : name ∈ e.unwind.2) :
    ∃ o, .member o name ∈ e.parts := by
  induction e using induct with
  | h e ih =>
    cases e with
    | member o name' =>
      rw [unwind_member] at h
      rcases List.mem_append.1 h with h | h
      · obtain ⟨o', ho'⟩ := ih o List.mem_cons_self h
        exact ⟨o', parts_subset_of_child List.mem_cons_self ho'⟩
      · cases List.mem_singleton.1 h
        exact ⟨o, mem_parts_self _⟩
    | _ => exact absurd h List.not_mem_nil

/-- Every member access inside a dotted chain is a shorter chain with the same start. -/
theorem prefix_of_mem_parts {e : Expression} (hr : e.unwind.1.traversalRoot?.isSome)
    {o : Expression} {name : String} (h : .member o name ∈ e.parts) :
    o.unwind.1 = e.unwind.1 ∧ ∃ after, e.unwind.2 = o.unwind.2 ++ name :: after := by
  induction e using induct with
  | h e ih =>
    rw [parts_eq] at h
    rcases List.mem_cons.1 h with heq | h
    · subst heq
      exact ⟨rfl, [], rfl⟩
    · obtain ⟨c, hc, hpart⟩ := List.mem_flatMap.1 h
      cases e with
      | member o' name' =>
        cases List.mem_singleton.1 hc
        obtain ⟨hstart, after, hafter⟩ := ih _ hc hr hpart
        refine ⟨hstart, after ++ [name'], ?_⟩
        rw [unwind_member, hafter, List.append_assoc]
        rfl
      | literal _ | selfProperty _ | selfEntity | entityRef _ => exact absurd hc List.not_mem_nil
      | unary _ _ | binary _ _ _ | call _ _ | list _ | record _ => exact nomatch hr

theorem traversal?_member (o : Expression) (name : String) :
    (Expression.member o name).traversal? =
      o.unwind.1.traversalRoot?.map fun root => ⟨root, o.unwind.2 ++ [name]⟩ := by
  unfold traversal?
  rw [unwind_member]
  split
  · rename_i heq
    exact absurd (congrArg Prod.snd heq) (by simp)
  · rename_i heq
    cases heq
    rfl

theorem hops_ne_nil_of_traversal? {e : Expression} {tr : Traversal} (h : e.traversal? = some tr) :
    tr.hops ≠ [] := by
  unfold traversal? at h
  split at h
  · exact nomatch h
  · rename_i hne _
    obtain ⟨root, _, rfl⟩ := Option.map_eq_some_iff.1 h
    exact hne

theorem unwind_of_traversal? {e : Expression} {tr : Traversal} (h : e.traversal? = some tr) :
    e.unwind.1.traversalRoot? = some tr.root ∧ e.unwind.2 = tr.hops := by
  cases e with
  | member o name =>
    rw [traversal?_member] at h
    obtain ⟨root, hroot, rfl⟩ := Option.map_eq_some_iff.1 h
    exact ⟨hroot, rfl⟩
  | _ => exact nomatch h

/-! ### The chains in a formula -/

theorem traversalsOfList_eq (es : List Expression) :
    traversalsOfList es = es.flatMap traversalsOf := by
  induction es with
  | nil => rfl
  | cons e rest ih => rw [traversalsOfList, ih, List.flatMap_cons]

theorem traversalsOfFields_eq (fs : List (String × Expression)) :
    traversalsOfFields fs = (fs.map Prod.snd).flatMap traversalsOf := by
  induction fs with
  | nil => rfl
  | cons f rest ih => rw [traversalsOfFields, ih, List.map_cons, List.flatMap_cons]

/-- A traversal of a formula is a chain that the formula is, or one of a formula below it. -/
theorem mem_traversalsOf {e : Expression} {tr : Traversal} (h : tr ∈ e.traversalsOf) :
    e.traversal? = some tr ∨ ∃ c ∈ e.children, tr ∈ c.traversalsOf := by
  cases e with
  | literal _ | selfProperty _ | selfEntity | entityRef _ => exact absurd h List.not_mem_nil
  | member o name =>
    unfold traversalsOf at h
    split at h
    · rename_i t ht
      rw [List.mem_singleton.1 h]
      exact .inl ht
    · exact .inr ⟨o, List.mem_cons_self, h⟩
  | unary op o => exact .inr ⟨o, List.mem_cons_self, h⟩
  | binary op l r =>
    rcases List.mem_append.1 h with h | h
    · exact .inr ⟨l, List.mem_cons_self, h⟩
    · exact .inr ⟨r, List.mem_cons_of_mem _ List.mem_cons_self, h⟩
  | call name args =>
    rw [traversalsOf, traversalsOfList_eq] at h
    exact .inr (List.mem_flatMap.1 h)
  | list items =>
    rw [traversalsOf, traversalsOfList_eq] at h
    exact .inr (List.mem_flatMap.1 h)
  | record fields =>
    rw [traversalsOf, traversalsOfFields_eq] at h
    exact .inr (List.mem_flatMap.1 h)

theorem traversalsOf_of_child {c e : Expression} (h : c ∈ e.children)
    (hn : e.traversal? = none) : c.traversalsOf ⊆ e.traversalsOf := by
  intro tr htr
  cases e with
  | literal _ | selfProperty _ | selfEntity | entityRef _ => exact absurd h List.not_mem_nil
  | member o name =>
    cases List.mem_singleton.1 h
    unfold traversalsOf
    rw [hn]
    exact htr
  | unary op o =>
    cases List.mem_singleton.1 h
    exact htr
  | binary op l r =>
    rcases List.mem_cons.1 h with rfl | h
    · exact List.mem_append_left _ htr
    · cases List.mem_singleton.1 h
      exact List.mem_append_right _ htr
  | call name args =>
    rw [traversalsOf, traversalsOfList_eq]
    exact List.mem_flatMap.2 ⟨c, h, htr⟩
  | list items =>
    rw [traversalsOf, traversalsOfList_eq]
    exact List.mem_flatMap.2 ⟨c, h, htr⟩
  | record fields =>
    rw [traversalsOf, traversalsOfFields_eq]
    exact List.mem_flatMap.2 ⟨c, h, htr⟩

/-- Every member access of a formula whose chain starts at an entity or own property lies on one of
    the formula's traversals. -/
theorem exists_traversal {f o : Expression} {name : String} (h : .member o name ∈ f.parts)
    {root : TraversalRoot} (hr : o.unwind.1.traversalRoot? = some root) :
    ∃ tr ∈ f.traversals, tr.root = root ∧ ∃ after, tr.hops = o.unwind.2 ++ name :: after := by
  suffices ∃ tr ∈ f.traversalsOf, tr.root = root ∧
      ∃ after, tr.hops = o.unwind.2 ++ name :: after by
    obtain ⟨tr, htr, hrest⟩ := this
    exact ⟨tr, mem_ascending.2 htr, hrest⟩
  induction f using induct with
  | h f ih =>
    cases ht : f.traversal? with
    | none =>
      rw [parts_eq] at h
      rcases List.mem_cons.1 h with heq | h
      · rw [← heq, traversal?_member, hr] at ht
        cases ht
      · obtain ⟨c, hc, hpart⟩ := List.mem_flatMap.1 h
        obtain ⟨tr, htr, hrest⟩ := ih c hc hpart
        exact ⟨tr, traversalsOf_of_child hc ht htr, hrest⟩
    | some tr =>
      cases f with
      | member o' name' =>
        have htr := ht
        rw [traversal?_member] at htr
        obtain ⟨root', hroot', rfl⟩ := Option.map_eq_some_iff.1 htr
        obtain ⟨hstart, after, hafter⟩ := prefix_of_mem_parts (e := .member o' name')
          (by rw [unwind_member, hroot']; rfl) h
        refine ⟨⟨root', o'.unwind.2 ++ [name']⟩, ?_, ?_, after, hafter⟩
        · unfold traversalsOf
          rw [ht]
          exact List.mem_cons_self
        · have hsame : o.unwind.1 = o'.unwind.1 := hstart
          rw [hsame, hroot'] at hr
          exact Option.some.inj hr
      | _ => cases ht

/-- Every traversal of a formula is a chain inside it. -/
theorem exists_chain {e : Expression} {tr : Traversal} (h : tr ∈ e.traversals) :
    ∃ d ∈ e.parts, d.traversal? = some tr := by
  replace h := mem_ascending.1 h
  induction e using induct with
  | h e ih =>
    rcases mem_traversalsOf h with h | ⟨c, hc, h⟩
    · exact ⟨e, e.mem_parts_self, h⟩
    · obtain ⟨d, hd, hchain⟩ := ih c hc h
      exact ⟨d, parts_subset_of_child hc hd, hchain⟩

theorem hops_ne_nil {e : Expression} {tr : Traversal} (h : tr ∈ e.traversals) : tr.hops ≠ [] := by
  obtain ⟨d, -, hchain⟩ := exists_chain h
  exact hops_ne_nil_of_traversal? hchain

/-- Traversals start at operands of the formula. -/
theorem exists_root {e : Expression} {tr : Traversal} (h : tr ∈ e.traversals) :
    ∃ d ∈ e.parts, d.traversalRoot? = some tr.root := by
  obtain ⟨d, hd, hchain⟩ := exists_chain h
  exact ⟨_, parts_subset hd d.unwind_fst_mem_parts, (unwind_of_traversal? hchain).1⟩

/-- Traversals go on by member accesses of the formula. -/
theorem exists_member {e : Expression} {tr : Traversal} (h : tr ∈ e.traversals)
    {name : String} (hname : name ∈ tr.hops) : ∃ o, .member o name ∈ e.parts := by
  obtain ⟨d, hd, hchain⟩ := exists_chain h
  rw [← (unwind_of_traversal? hchain).2] at hname
  obtain ⟨o, ho⟩ := exists_member_of_mem_unwind hname
  exact ⟨o, parts_subset hd ho⟩

end EntityFormulas.Expression
