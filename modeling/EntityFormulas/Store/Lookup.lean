/-
  EntityFormulas/Store/Lookup.lean
  ================================
  **Reading from a store, call by call.**

  A lookup says which call comes first and how to go on with its answer, so
  other activity can be placed between any two calls.  `Lookup.run` makes all
  the calls in a row.  A failed call is an answer like any other; `Fetch` is
  for lookups that a failed call ends.
-/
import EntityFormulas.Store.Basic

namespace EntityFormulas

/-- A computation that reads from a store. -/
inductive Lookup (α : Type) where
  | done (a : α)
  /-- Fetches entities. -/
  | entities (tenant : String) (ids : List String)
      (next : Except StoreError (List Entity) → Lookup α)
  /-- Fetches the relationships of an entity. -/
  | relationships (tenant id : String) (next : Except StoreError Relationships → Lookup α)

namespace Lookup

variable {α β : Type}

/-- Goes on with the result. -/
def bind : Lookup α → (α → Lookup β) → Lookup β
  | done a, f => f a
  | entities tenant ids next, f => entities tenant ids fun r => (next r).bind f
  | relationships tenant id next, f => relationships tenant id fun r => (next r).bind f

instance : Monad Lookup where
  pure := done
  bind := bind

/-- Makes the calls of a lookup in a row. -/
def run {σ : Type} (store : EntityStore σ) : Lookup α → σ → α × σ
  | done a, s => (a, s)
  | entities tenant ids next, s =>
    let (r, s) := store.fetch tenant ids s
    (next r).run store s
  | relationships tenant id next, s =>
    let (r, s) := store.relationships tenant id s
    (next r).run store s

theorem bind_done (m : Lookup α) : m.bind done = m := by
  induction m with
  | done a => rfl
  | entities tenant ids next ih => simp only [bind, ih]
  | relationships tenant id next ih => simp only [bind, ih]

theorem bind_assoc {γ : Type} (m : Lookup α) (f : α → Lookup β) (g : β → Lookup γ) :
    (m.bind f).bind g = m.bind fun a => (f a).bind g := by
  induction m with
  | done a => rfl
  | entities tenant ids next ih => simp only [bind, ih]
  | relationships tenant id next ih => simp only [bind, ih]

instance : LawfulMonad Lookup :=
  LawfulMonad.mk' Lookup bind_done (fun _ _ => rfl) bind_assoc

theorem run_bind {σ : Type} (store : EntityStore σ) (m : Lookup α) (f : α → Lookup β) (s : σ) :
    (m.bind f).run store s = (f (m.run store s).1).run store (m.run store s).2 := by
  induction m generalizing s with
  | done a => rfl
  | entities tenant ids next ih => simp only [bind, run, ih]
  | relationships tenant id next ih => simp only [bind, run, ih]

end Lookup

/-- A lookup that the first failed call ends. -/
abbrev Fetch := ExceptT StoreError Lookup

namespace Fetch

/-- The entities with these ids. -/
def entities (tenant : String) (ids : List String) : Fetch (List Entity) :=
  ExceptT.mk (.entities tenant ids .done)

/-- The relationships of an entity. -/
def relationships (tenant id : String) : Fetch Relationships :=
  ExceptT.mk (.relationships tenant id .done)

/-- One entity, which must exist. -/
def entity (tenant id : String) : Fetch Entity := do
  liftExcept (StoreError.pickEntity tenant id (← entities tenant [id]))

end Fetch

end EntityFormulas
