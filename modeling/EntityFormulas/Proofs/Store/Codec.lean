/-
  EntityFormulas/Proofs/Store/Codec.lean
  ======================================
  **Everything that is stored survives its JSON form.**

  Fixtures contain entities, and these properties and values; formulas and
  templates are written as trees of their own.  For each of these the decoder
  gives back what was encoded, and finds the same in a tree to which members were
  added that nothing declares (`roundTrips`).
-/
import EntityFormulas.Proofs.Entity.Codec
import EntityFormulas.Proofs.Formula.Codec
import EntityFormulas.Store.Fixture

namespace EntityFormulas

open Json

namespace Relationships

theorem ofJson?_toJson (r : Relationships) : ofJson? r.toJson = some r :=
  asDict?_object fun e _ => asList?_texts e.2

theorem finite_toJson (r : Relationships) : r.toJson.Finite :=
  finite_map fun e _ => by simp [texts]

end Relationships

namespace TenantFixture

/-- The members of the fixture of a tenant. -/
def declared : List (String × Growth) := [
  ("entities", ListGrows Entity.Grows), ("relationships", Eq)]

/-- Growth of the fixture of a tenant. -/
def Grows : Growth := StructGrows declared

theorem ofJson?_grow {j j' : Json} (hgrow : Grows j j') : ofJson? j = ofJson? j' := by
  have hrefl : ∀ d ∈ declared, ∀ j, d.2 j j := by
    simp only [declared, List.forall_mem_cons, List.not_mem_nil, false_imp_iff, implies_true,
      and_true, listGrows_refl]
  have hagree := fieldsAgree_struct hgrow (by simp [declared]) hrefl (Nat.le_succ j.height)
    (Nat.le_succ j'.height)
  refine hagree.bind fun xs ys fields => ?_
  rcases fields with _ | ⟨f₁, _ | ⟨f₂, _ | _⟩⟩
  dsimp only
  rw [f₂.eq, defaulted_grow f₁ fun _ _ hlist _ _ =>
    asList?_grow hlist (by simp [Entity.Grows]) fun _ _ he _ _ => Entity.ofJson?_grow he]

/-- The entities of the tenant are proper. -/
def Proper (t : TenantFixture) : Prop := ∀ e ∈ t.entities, e.Proper

theorem ofJson?_toJson {t : TenantFixture} (ht : t.Proper) : ofJson? t.toJson = some t := by
  have hentities : (t.entities.map Entity.toJson).mapM Entity.ofJson? = some t.entities :=
    mapM_map fun e he => Entity.ofJson?_toJson (ht e he)
  have hrelationships : asDict? Relationships.ofJson?
      (.object (t.relationships.map fun _ r => r.toJson).entries) = some t.relationships :=
    asDict?_object fun e _ => Relationships.ofJson?_toJson e.2
  rw [ofJson?, toJson]
  simp [fields?_object, once?_cons_self, once?_cons_of_ne, defaulted, asList?, hentities,
    hrelationships]

theorem Proper.toJson {t : TenantFixture} (ht : t.Proper) : t.toJson.Finite := by
  have hentities : ∀ e ∈ t.entities, e.toJson.Finite := fun e he => (ht e he).toJson
  have hrelationships : (Json.object (t.relationships.map fun _ r => r.toJson).entries).Finite :=
    finite_map fun e _ => Relationships.finite_toJson e.2
  rw [TenantFixture.toJson, finite_object]
  simp only [List.forall_mem_cons]
  exact ⟨by simpa using hentities, hrelationships, nofun⟩

end TenantFixture

namespace Fixture

/-- Growth of a fixture. -/
def Grows : Growth := StructGrows [("tenants", MapGrows TenantFixture.Grows)]

theorem ofJson?_grow {j j' : Json} (hgrow : Grows j j') : ofJson? j = ofJson? j' := by
  have hagree := fieldsAgree_struct hgrow (by simp) (by simp) (Nat.le_succ j.height)
    (Nat.le_succ j'.height)
  refine hagree.bind fun xs ys fields => ?_
  rcases fields with _ | ⟨f₁, _ | _⟩
  dsimp only
  rw [defaulted_grow f₁ fun _ _ hmap _ _ => asDict?_grow hmap (by simp [TenantFixture.Grows])
    fun _ _ ht _ _ => TenantFixture.ofJson?_grow ht]

/-- The fixtures of the tenants are proper. -/
def Proper (f : Fixture) : Prop := ∀ t ∈ f.tenants.values, t.Proper

theorem ofJson?_toJson {f : Fixture} (hf : f.Proper) : ofJson? f.toJson = some f := by
  have htenants : asDict? TenantFixture.ofJson?
      (.object (f.tenants.map fun _ t => t.toJson).entries) = some f.tenants :=
    asDict?_object fun t ht => TenantFixture.ofJson?_toJson (hf t.2 (List.mem_map_of_mem ht))
  rw [ofJson?, toJson]
  simp [fields?_object, once?_cons_self, defaulted, htenants]

theorem Proper.toJson {f : Fixture} (hf : f.Proper) : f.toJson.Finite := by
  have htenants : (Json.object (f.tenants.map fun _ t => t.toJson).entries).Finite :=
    finite_map fun t ht => (hf t.2 (List.mem_map_of_mem ht)).toJson
  simpa [Fixture.toJson] using htenants

end Fixture

/-! ### All forms -/

namespace Json

/-- What is written is a tree of finite numbers and is read back, and what is read does not depend
    on members that are not declared. -/
structure RoundTrips {α : Type} (toJson : α → Json) (ofJson? : Json → Option α) (Grows : Growth)
    (Proper : α → Prop) : Prop where
  finite : ∀ a, Proper a → (toJson a).Finite
  decodes : ∀ a, Proper a → ofJson? (toJson a) = some a
  grows : ∀ j j', Grows j j' → ofJson? j' = ofJson? j

/-- The options that are absent, and only these, are left out, and what is left out is read as
    absent. -/
structure Omits {α : Type} (toJson : α → Json) (ofJson? : Json → Option α)
    (options : α → List (String × Bool)) : Prop where
  encodes : ∀ a, ∃ ms, toJson a = .object ms ∧ ∀ o ∈ options a, (o.2 = false ↔ Lacks o.1 ms)
  decodes : ∀ ms a, ofJson? (.object ms) = some a → ∀ o ∈ options a, Lacks o.1 ms → o.2 = false

/-- Every form is read back as it was written, with or without members that nothing declares, and
    absent options are left out. -/
theorem roundTrips :
    RoundTrips Expression.toJson Expression.ofJson? Expression.Grows Expression.Finite ∧
    RoundTrips Template.toJson Template.ofJson? Template.Grows Template.Finite ∧
    (∀ place, RoundTrips Value.toJson (Value.ofJson? place) Value.Grows Value.Proper) ∧
    RoundTrips Property.toJson Property.ofJson? Property.Grows Property.Proper ∧
    RoundTrips Entity.toJson Entity.ofJson? Entity.Grows Entity.Proper ∧
    RoundTrips Fixture.toJson Fixture.ofJson? Fixture.Grows Fixture.Proper ∧
    (∀ place, Omits Value.toJson (Value.ofJson? place) Value.options) ∧
    Omits Property.toJson Property.ofJson? Property.options := by
  refine ⟨⟨?_, ?_, ?_⟩, ⟨?_, ?_, ?_⟩, fun place => ⟨?_, ?_, ?_⟩, ⟨?_, ?_, ?_⟩, ⟨?_, ?_, ?_⟩,
    ⟨?_, ?_, ?_⟩, fun place => ⟨Value.omits_toJson, fun _ _ => Value.omits_of_ofJson?⟩,
    ⟨Property.omits_toJson, fun _ _ => Property.omits_of_ofJson?⟩⟩
  · exact fun e he => he.toJson
  · exact fun e _ => Expression.ofJson?_toJson e
  · exact fun j j' h => (Expression.ofJson?_grow h).symm
  · exact fun t ht => ht.toJson
  · exact fun t _ => Template.ofJson?_toJson t
  · exact fun j j' h => (Template.ofJson?_grow h).symm
  · exact fun v hv => hv.toJson
  · exact fun v hv => Value.ofJson?_toJson hv place
  · exact fun j j' h => (Value.ofJson?_grow h place).symm
  · exact fun p hp => hp.toJson
  · exact fun p hp => Property.ofJson?_toJson hp
  · exact fun j j' h => (Property.ofJson?_grow h).symm
  · exact fun e he => he.toJson
  · exact fun e he => Entity.ofJson?_toJson he
  · exact fun j j' h => (Entity.ofJson?_grow h).symm
  · exact fun f hf => hf.toJson
  · exact fun f hf => Fixture.ofJson?_toJson hf
  · exact fun j j' h => (Fixture.ofJson?_grow h).symm

/-- A store with one property that is measured and one that is still to be computed. -/
def rack : Fixture where
  tenants := .ofList [("shop", { entities := [{
    id := "rack", tenant := "shop", typePath := "furniture/rack",
    properties := .ofList [
      ("height", .measured ⟨"height", .number ⟨2.5, none, some "m"⟩, some 0.5, none, none⟩),
      ("load", .computed ⟨"load", "#height * 2", ["height"], none, none, .pending, none⟩)] }] })]

/-- The form of `rack` with remarks in it. -/
def remarkedRack : Json :=
  let remark : String × Json := ("remark", .text "by hand")
  .object [remark, ("tenants", .object [("shop", .object [
    ("entities", .array [.object [("id", .text "rack"), remark, ("tenant_id", .text "shop"),
      ("type_path", .text "furniture/rack"),
      ("properties", .object [
        ("height", .object [("source", .text "measured"), ("name", .text "height"),
          ("value", .object [("type", .text "number"), ("value", .real 2.5), ("unit", .text "m"),
            remark]),
          remark, ("uncertainty", .real 0.5)]),
        ("load", .object [remark, ("source", .text "computed"), ("name", .text "load"),
          ("expression", .text "#height * 2"), ("dependencies", .texts ["height"]),
          ("status", .text "pending")])]),
      ("version", .count 0)]]),
    ("relationships", .object []), remark])])]

theorem rack_proper : rack.Proper := by
  intro t ht
  obtain rfl := List.mem_singleton.1 ht
  intro e he
  obtain rfl := List.mem_singleton.1 he
  intro p hp
  rcases List.mem_cons.1 hp with rfl | hp
  · refine ⟨fun v hv => ?_, fun m x hm hx => ?_⟩
    · obtain rfl := List.mem_singleton.1 hv
      exact show isFiniteNumber 2.5 = true by decide
    · cases hm
      cases hx
      decide
  · obtain rfl := List.mem_singleton.1 hp
    exact ⟨nofun, nofun⟩

theorem rack_grows : Fixture.Grows rack.toJson remarkedRack := by
  refine .object (.added (by decide) (.grown (.head _) (.object (.cons ⟨rfl, ?_⟩ .nil)) .nil))
  refine .object (.grown (.head _) (.array (.cons ?_ .nil))
    (.grown (.tail _ (.head _)) rfl (.added (by decide) .nil)))
  refine .object (.grown (.head _) rfl (.added (by decide) (.grown (.tail _ (.head _)) rfl
    (.grown (.tail _ (.tail _ (.head _))) rfl (.grown (.tail _ (.tail _ (.tail _ (.head _))))
      (.object (.cons ⟨rfl, ?_⟩ (.cons ⟨rfl, ?_⟩ .nil)))
      (.grown (.tail _ (.tail _ (.tail _ (.tail _ (.head _))))) rfl .nil))))))
  · refine .object (.tail _ (.tail _ (.tail _ (.head _)))) rfl rfl (.grown (.head _) rfl
      (.grown (.tail _ (.head _)) rfl (.grown (.tail _ (.tail _ (.head _))) ?_
        (.added (by decide) (.grown (.tail _ (.tail _ (.tail _ (.head _)))) rfl .nil)))))
    exact ⟨1, .object (.tail _ (.head _)) rfl rfl (.grown (.head _) rfl
      (.grown (.tail _ (.head _)) rfl (.grown (.tail _ (.tail _ (.tail _ (.head _)))) rfl
        (.added (by decide) .nil))))⟩
  · exact .object (.tail _ (.tail _ (.head _))) rfl rfl (.added (by decide) (.grown (.head _) rfl
      (.grown (.tail _ (.head _)) rfl (.grown (.tail _ (.tail _ (.head _))) rfl
        (.grown (.tail _ (.tail _ (.tail _ (.head _)))) rfl
          (.grown (.tail _ (.tail _ (.tail _ (.tail _ (.tail _ (.tail _ (.head _))))))) rfl
            .nil))))))

theorem rack_roundTrips :
    rack.Proper ∧ Fixture.Grows rack.toJson remarkedRack ∧ rack.toJson.Finite ∧
      Fixture.ofJson? rack.toJson = some rack ∧ Fixture.ofJson? remarkedRack = some rack := by
  obtain ⟨-, -, -, -, -, hfixture, -⟩ := roundTrips
  have hdecodes := hfixture.decodes rack rack_proper
  exact ⟨rack_proper, rack_grows, hfixture.finite rack rack_proper, hdecodes,
    (hfixture.grows _ _ rack_grows).trans hdecodes⟩

end Json

end EntityFormulas
