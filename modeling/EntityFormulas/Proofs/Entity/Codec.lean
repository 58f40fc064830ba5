/-
  EntityFormulas/Proofs/Entity/Codec.lean
  =======================================
  **Values, properties and entities survive their JSON form.**

  As for formulas: what is written is read back, and reading does not see members
  that nothing declares.  The fields of a record value are a list here, which the
  reader puts in order; so values come back whose records ascend, as all that are
  built with `Value.ofFields` do.

  `options` names the members that may be left out: exactly the options that are
  absent are, and a member that is left out is read as an absent option.
-/
import EntityFormulas.Entity.Json
import EntityFormulas.Proofs.Json.Growth

namespace EntityFormulas

open Json

/-! ### Growth -/

namespace Value

variable {item? item?' : Json → Option Value} {R : Growth} {h k : Nat} {data data' : Json}

/-- The members of each kind of value, when the values inside it grow by `R`. -/
def alternatives (R : Growth) : List (String × List (String × Growth)) := [
  ("text", [("value", Eq)]),
  ("number", [("value", Eq), ("dimension", Eq), ("unit", Eq)]),
  ("boolean", [("value", Eq)]),
  ("datetime", [("value", Eq)]),
  ("duration", [("value", Eq)]),
  ("reference", [("entity_id", Eq), ("entity_type", Eq)]),
  ("list", [("element_type", Eq), ("items", ListGrows R)]),
  ("record", [("fields", MapGrows R)])]

theorem alternatives_refl : ∀ a ∈ alternatives R, ∀ d ∈ a.2, ∀ j, d.2 j j := by
  simp only [alternatives, List.forall_mem_cons, List.not_mem_nil, false_imp_iff, implies_true,
    and_true, listGrows_refl, mapGrows_refl]

theorem alternatives_nodup : ∀ a ∈ alternatives R, ("type" :: a.2.map Prod.fst).Nodup := by
  simp [alternatives]

theorem ofTag?_grow (hrefl : ∀ j, R j j)
    (hitem : ∀ j j', R j j' → j.height ≤ h → j'.height ≤ k → item? j = item?' j')
    {a : String × List (String × Growth)} (ha : a ∈ alternatives R)
    (hgrow : StructGrows a.2 data data') (hh : data.height ≤ h + 1) (hk : data'.height ≤ k + 1) :
    ofTag? item? a.1 data = ofTag? item?' a.1 data' := by
  have hagree := fieldsAgree_struct hgrow (List.nodup_cons.1 (alternatives_nodup a ha)).2
    (alternatives_refl a ha) hh hk
  simp only [alternatives, List.mem_cons, List.not_mem_nil, or_false] at ha
  rcases ha with rfl | rfl | rfl | rfl | rfl | rfl | rfl | rfl
  all_goals
    simp only [List.map_cons, List.map_nil] at hagree
    simp only [ofTag?]
  · simp only [content?, hagree.eq (by simp)]
  · rw [hagree.eq (by simp)]
  · rw [hagree.eq (by simp)]
  · simp only [content?, hagree.eq (by simp)]
  · simp only [content?, hagree.eq (by simp)]
  · rw [hagree.eq (by simp)]
  · refine hagree.bind fun xs ys fields => ?_
    rcases fields with _ | ⟨f₁, _ | ⟨f₂, _ | _⟩⟩
    dsimp only
    rw [f₁.eq, required_grow f₂ fun i i' hi hh hk =>
      asList?_grow hi hrefl fun j j' hj hh' hk' => hitem j j' hj (by omega) (by omega)]
  · refine hagree.bind fun xs ys fields => ?_
    rcases fields with _ | ⟨f₁, _ | _⟩
    dsimp only
    rw [required_grow f₁ fun i i' hi hh hk =>
      asEntries?_grow hi hrefl fun j j' hj hh' hk' => hitem j j' hj (by omega) (by omega)]

/-- Growth of a value. -/
def Grows (j j' : Json) : Prop := ∃ n, NestedGrows "type" alternatives n j j'

theorem grows_refl (j : Json) : Grows j j := ⟨0, rfl⟩

theorem grows_null {j j' : Json} (hgrow : Grows j j') : j = .null ↔ j' = .null := by
  obtain ⟨n, hgrow⟩ := hgrow
  exact nestedGrows_null hgrow

theorem ofJson?_grow {j j' : Json} (hgrow : Grows j j') (place : Place) :
    ofJson? place j = ofJson? place j' := by
  obtain ⟨n, hgrow⟩ := hgrow
  exact nested_grow tags ofTag? (fun _ _ _ => rfl) (by decide) (fun _ => rfl)
    (fun _ => alternatives_nodup)
    (fun _ _ _ _ _ hrefl hitem _ ha _ _ hdata hh hk => ofTag?_grow hrefl hitem ha hdata hh hk)
    hgrow (Nat.le_refl _) (Nat.le_refl _) place

end Value

namespace Property

variable {h k : Nat} {x y : Option Json}

theorem required_heldValue? (hfield : FieldGrows h k Value.Grows x y) :
    required heldValue? x = required heldValue? y :=
  required_grow hfield fun _ _ hgrow _ _ => Value.ofJson?_grow hgrow .tagged

theorem nullable_heldValue? (hfield : FieldGrows h k Value.Grows x y) :
    nullable heldValue? x = nullable heldValue? y :=
  nullable_grow hfield (fun _ _ => Value.grows_null) fun _ _ hgrow _ _ =>
    Value.ofJson?_grow hgrow .tagged

/-- The members of each kind of property. -/
def alternatives : List (String × List (String × Growth)) := [
  ("literal", [("name", Eq), ("value", Value.Grows)]),
  ("inherited", [("name", Eq), ("from_entity", Eq), ("from_property", Eq), ("override", Value.Grows),
    ("resolved_value", Value.Grows), ("status", Eq), ("error", Eq)]),
  ("computed", [("name", Eq), ("expression", Eq), ("dependencies", Eq), ("cached_value", Value.Grows),
    ("cached_at", Eq), ("status", Eq), ("error", Eq)]),
  ("measured", [("name", Eq), ("value", Value.Grows), ("uncertainty", Eq), ("measurement_record", Eq),
    ("measured_at", Eq)])]

/-- Growth of a property. -/
def Grows : Growth := ChoiceGrows "source" alternatives

theorem ofJson?_eq (j : Json) : ofJson? j = (do
    let (tag, data) ← j.tagged? "source"
    ofTag? (← tagName? (alternatives.map Prod.fst) .document tag) data) := rfl

theorem ofJson?_grow {j j' : Json} (hgrow : Grows j j') : ofJson? j = ofJson? j' := by
  have hnodup : ∀ a ∈ alternatives, ("source" :: a.2.map Prod.fst).Nodup := by simp [alternatives]
  have hrefl : ∀ a ∈ alternatives, ∀ d ∈ a.2, ∀ j, d.2 j j := by
    simp only [alternatives, List.forall_mem_cons, List.not_mem_nil, false_imp_iff, implies_true,
      and_true, Value.grows_refl]
  rw [ofJson?_eq, ofJson?_eq]
  refine choice_grow hgrow (by decide) hnodup (fun a ha data data' hdata _ _ => ?_) .document
  have hagree := fieldsAgree_struct hdata (List.nodup_cons.1 (hnodup a ha)).2 (hrefl a ha)
    (Nat.le_succ data.height) (Nat.le_succ data'.height)
  simp only [alternatives, List.mem_cons, List.not_mem_nil, or_false] at ha
  rcases ha with rfl | rfl | rfl | rfl
  all_goals
    simp only [List.map_cons, List.map_nil] at hagree
    simp only [ofTag?]
    refine hagree.bind fun xs ys fields => ?_
  · rcases fields with _ | ⟨f₁, _ | ⟨f₂, _ | _⟩⟩
    dsimp only
    rw [f₁.eq, required_heldValue? f₂]
  · rcases fields with _ | ⟨f₁, _ | ⟨f₂, _ | ⟨f₃, _ | ⟨f₄, _ | ⟨f₅, _ | ⟨f₆, _ | ⟨f₇, _ | _⟩⟩⟩⟩⟩⟩⟩
    dsimp only
    rw [f₁.eq, f₂.eq, f₃.eq, nullable_heldValue? f₄, nullable_heldValue? f₅, f₆.eq, f₇.eq]
  · rcases fields with _ | ⟨f₁, _ | ⟨f₂, _ | ⟨f₃, _ | ⟨f₄, _ | ⟨f₅, _ | ⟨f₆, _ | ⟨f₇, _ | _⟩⟩⟩⟩⟩⟩⟩
    dsimp only
    rw [f₁.eq, f₂.eq, f₃.eq, nullable_heldValue? f₄, f₅.eq, f₆.eq, f₇.eq]
  · rcases fields with _ | ⟨f₁, _ | ⟨f₂, _ | ⟨f₃, _ | ⟨f₄, _ | ⟨f₅, _ | _⟩⟩⟩⟩⟩
    dsimp only
    rw [f₁.eq, required_heldValue? f₂, f₃.eq, f₄.eq, f₅.eq]

end Property

namespace Entity

/-- The members of an entity. -/
def declared : List (String × Growth) := [
  ("id", Eq), ("tenant_id", Eq), ("type_path", Eq), ("properties", MapGrows Property.Grows),
  ("version", Eq)]

/-- Growth of an entity. -/
def Grows : Growth := StructGrows declared

theorem ofJson?_grow {j j' : Json} (hgrow : Grows j j') : ofJson? j = ofJson? j' := by
  have hrefl : ∀ d ∈ declared, ∀ j, d.2 j j := by
    simp only [declared, List.forall_mem_cons, List.not_mem_nil, false_imp_iff, implies_true,
      and_true, mapGrows_refl]
  have hagree := fieldsAgree_struct hgrow (by simp [declared]) hrefl (Nat.le_succ j.height)
    (Nat.le_succ j'.height)
  refine hagree.bind fun xs ys fields => ?_
  rcases fields with _ | ⟨f₁, _ | ⟨f₂, _ | ⟨f₃, _ | ⟨f₄, _ | ⟨f₅, _ | _⟩⟩⟩⟩⟩
  dsimp only
  rw [f₁.eq, f₂.eq, f₃.eq, f₅.eq, defaulted_grow f₄ fun _ _ hmap _ _ =>
    asDict?_grow hmap (by simp [Property.Grows]) fun _ _ hp _ _ => Property.ofJson?_grow hp]

end Entity

/-! ### Reading what was written -/

theorem ValueType.ofJson?_name (t : ValueType) : ValueType.ofJson? (.text t.name) = some t := by
  cases t <;> rfl

theorem Status.ofJson?_toJson (place : Place) (s : Status) :
    Status.ofJson? place s.toJson = some s := by
  cases s <;> rfl

namespace Value

mutual

/-- The numbers of the value are finite, and the fields of its records ascend. -/
def Proper : Value → Prop
  | .number q => isFiniteNumber q.value = true
  | .list _ items => ProperItems items
  | .record fields => Entries.Ascending fields ∧ ProperFields fields
  | _ => True

def ProperItems : List Value → Prop
  | [] => True
  | v :: rest => Proper v ∧ ProperItems rest

def ProperFields : List (String × Value) → Prop
  | [] => True
  | (_, v) :: rest => Proper v ∧ ProperFields rest

end

/-- What is written starts with the type, which every place accepts. -/
theorem ofJsonWithin?_object {tag : String} (htag : tag ∈ tags) {ms : List (String × Json)}
    (hms : Lacks "type" ms) (place : Place) (h : Nat) :
    ofJsonWithin? place (h + 1) (.object (("type", .text tag) :: ms)) =
      ofTag? (ofJsonWithin? .tagged h) tag (.object ms) := by
  simp only [ofJsonWithin?, tagged?_cons hms, Option.bind_eq_bind, Option.bind_some, tagName?,
    if_pos htag]

theorem nullable_text (value : Option String) :
    nullable Json.asText? (value.map .text) = some value :=
  nullable_map nofun fun _ _ => rfl

mutual

theorem ofJsonWithin?_toJson : (v : Value) → v.Proper → ∀ {h : Nat}, v.toJson.height ≤ h →
    ∀ place : Place, ofJsonWithin? place h v.toJson = some v
  | v, _, 0, hh, _ => absurd hh (Nat.not_le_of_lt (height_pos _))
  | .text s, _, h + 1, hh, place => by
    rw [toJson, ofJsonWithin?_object (by decide) (by simp)]
    simp [ofTag?, content?, fields?_object, once?_cons_self, required, Json.asText?]
  | .number q, _, h + 1, hh, place => by
    rw [toJson, List.append_assoc, List.cons_append, List.cons_append, List.nil_append,
      ofJsonWithin?_object (by decide) (by simp)]
    simp [ofTag?, fields?_object, once?_cons_self, once?_cons_of_ne, once?_optional,
      once?_optional_of_ne, once?_optional_last, required, asReal?, Json.real, nullable_text]
  | .boolean b, _, h + 1, hh, place => by
    rw [toJson, ofJsonWithin?_object (by decide) (by simp)]
    simp [ofTag?, fields?_object, once?_cons_self, required, asBool?]
  | .dateTime s, _, h + 1, hh, place => by
    rw [toJson, ofJsonWithin?_object (by decide) (by simp)]
    simp [ofTag?, content?, fields?_object, once?_cons_self, required, Json.asText?]
  | .duration s, _, h + 1, hh, place => by
    rw [toJson, ofJsonWithin?_object (by decide) (by simp)]
    simp [ofTag?, content?, fields?_object, once?_cons_self, required, Json.asText?]
  | .reference id type, _, h + 1, hh, place => by
    rw [toJson, List.cons_append, List.cons_append, List.nil_append,
      ofJsonWithin?_object (by decide) (by simp)]
    simp [ofTag?, fields?_object, once?_cons_self, once?_cons_of_ne, once?_optional_last, required,
      Json.asText?, nullable_text]
  | .list elementType items, hv, h + 1, hh, place => by
    rw [toJson] at hh
    have hitems := mapM_itemsToJson items hv (h := h) (Nat.le_of_succ_le
      (height_le_of_mem_members (m := ("items", .array (itemsToJson items))) (by simp) hh))
    rw [toJson, ofJsonWithin?_object (by decide) (by simp)]
    simp [ofTag?, fields?_object, once?_cons_self, once?_cons_of_ne, required, Json.asList?, hitems,
      ValueType.ofJson?_name]
  | .record fields, hv, h + 1, hh, place => by
    rw [toJson] at hh
    have hfields := mapM_fieldsToJson fields hv.2 (h := h) (Nat.le_of_succ_le
      (height_le_of_mem_members (m := ("fields", .object (fieldsToJson fields))) (by simp) hh))
    rw [toJson, ofJsonWithin?_object (by decide) (by simp)]
    simp [ofTag?, fields?_object, once?_cons_self, required, asEntries?, hfields,
      Entries.ofList_of_ascending hv.1]

theorem mapM_itemsToJson : (vs : List Value) → ProperItems vs → ∀ {h : Nat},
    heightItems (itemsToJson vs) ≤ h → (itemsToJson vs).mapM (ofJsonWithin? .tagged h) = some vs
  | [], _, _, _ => rfl
  | v :: vs, hvs, h, hh => by
    simp only [itemsToJson, heightItems, Nat.max_le] at hh
    rw [itemsToJson, List.mapM_cons, ofJsonWithin?_toJson v hvs.1 hh.1,
      mapM_itemsToJson vs hvs.2 hh.2]
    rfl

theorem mapM_fieldsToJson : (fs : List (String × Value)) → ProperFields fs → ∀ {h : Nat},
    heightMembers (fieldsToJson fs) ≤ h →
      (fieldsToJson fs).mapM (fun m => (ofJsonWithin? .tagged h m.2).map (m.1, ·)) = some fs
  | [], _, _, _ => rfl
  | (name, v) :: fs, hfs, h, hh => by
    simp only [fieldsToJson, heightMembers, Nat.max_le] at hh
    rw [fieldsToJson, List.mapM_cons, ofJsonWithin?_toJson v hfs.1 hh.1,
      mapM_fieldsToJson fs hfs.2 hh.2]
    rfl

end

theorem ofJson?_toJson {v : Value} (hv : v.Proper) (place : Place) :
    ofJson? place v.toJson = some v :=
  ofJsonWithin?_toJson v hv (Nat.le_refl _) place

theorem toJson_ne_null (v : Value) : v.toJson ≠ .null := by
  cases v <;> simp [toJson]

mutual

theorem Proper.toJson : (v : Value) → v.Proper → v.toJson.Finite
  | .text _, _ | .boolean _, _ | .dateTime _, _ | .duration _, _ => by simp [Value.toJson]
  | .number q, hv => by
    have hq : isFiniteNumber q.value = true := hv
    simp [Value.toJson, or_imp, forall_and, hq]
  | .reference _ _, _ => by
    simp [Value.toJson, or_imp, forall_and]
  | .list _ items, hv => by simpa [Value.toJson] using finite_itemsToJson items hv
  | .record fields, hv => by simpa [Value.toJson] using finite_fieldsToJson fields hv.2

theorem finite_itemsToJson : (vs : List Value) → ProperItems vs → ∀ j ∈ itemsToJson vs, j.Finite
  | [], _ => nofun
  | v :: vs, hvs => by
    rw [itemsToJson, List.forall_mem_cons]
    exact ⟨Proper.toJson v hvs.1, finite_itemsToJson vs hvs.2⟩

theorem finite_fieldsToJson : (fs : List (String × Value)) → ProperFields fs →
    ∀ m ∈ fieldsToJson fs, m.2.Finite
  | [], _ => nofun
  | (name, v) :: fs, hfs => by
    rw [fieldsToJson, List.forall_mem_cons]
    exact ⟨Proper.toJson v hfs.1, finite_fieldsToJson fs hfs.2⟩

end

end Value

namespace Property

/-- The values that a property holds. -/
def values : Property → List Value
  | .literal p => [p.value]
  | .inherited p => p.override.toList ++ p.resolved.toList
  | .computed p => p.cached.toList
  | .measured p => [p.value]

/-- The values of the property are proper, and its uncertainty is finite. -/
def Proper (p : Property) : Prop :=
  (∀ v ∈ p.values, v.Proper) ∧
    ∀ m x, p = .measured m → m.uncertainty = some x → isFiniteNumber x = true

theorem nullable_value {value : Option Value} (h : ∀ v ∈ value.toList, v.Proper) :
    nullable heldValue? (value.map Value.toJson) = some value :=
  nullable_map Value.toJson_ne_null fun v hv =>
    Value.ofJson?_toJson (h v (Option.mem_toList.2 hv)) .tagged

theorem nullable_text (value : Option String) :
    nullable asText? (value.map .text) = some value :=
  nullable_map nofun fun _ _ => rfl

theorem nullable_real (value : Option Float) :
    nullable asReal? (value.map .real) = some value :=
  nullable_map nofun fun _ _ => rfl

theorem heldStatus?_toJson (s : Status) : heldStatus? s.toJson = some s :=
  Status.ofJson?_toJson .tagged s

theorem ofJson?_toJson {p : Property} (hp : p.Proper) : ofJson? p.toJson = some p := by
  obtain ⟨hvalues, -⟩ := hp
  rw [ofJson?_eq]
  cases p with
  | literal p =>
    have hvalue := Value.ofJson?_toJson (hvalues p.value (by simp [values])) .tagged
    rw [toJson, tagged?_cons (by simp)]
    simp [tagName?, alternatives, ofTag?, fields?_object, once?_cons_self, once?_cons_of_ne, required,
      asText?, heldValue?, hvalue]
  | inherited p =>
    have hoverride : nullable heldValue? (p.override.map Value.toJson) = some p.override :=
      nullable_value fun v hv => hvalues v (by simp [values, hv])
    have hresolved : nullable heldValue? (p.resolved.map Value.toJson) = some p.resolved :=
      nullable_value fun v hv => hvalues v (by simp [values, hv])
    rw [toJson]
    simp only [List.append_assoc, List.cons_append, List.nil_append]
    rw [tagged?_cons (by simp)]
    simp [tagName?, alternatives, ofTag?, fields?_object, once?_cons_self, once?_cons_of_ne,
      once?_optional, once?_optional_of_ne, once?_optional_last, required, asText?, nullable_text,
      hoverride, hresolved, defaulted, heldStatus?_toJson]
  | computed p =>
    have hcached : nullable heldValue? (p.cached.map Value.toJson) = some p.cached :=
      nullable_value fun v hv => hvalues v (by simp [values, hv])
    rw [toJson]
    simp only [List.append_assoc, List.cons_append, List.nil_append]
    rw [tagged?_cons (by simp)]
    simp [tagName?, alternatives, ofTag?, fields?_object, once?_cons_self, once?_cons_of_ne,
      once?_optional, once?_optional_of_ne, once?_optional_last, required, asText?, nullable_text,
      hcached, defaulted, heldStatus?_toJson, asList?_texts]
  | measured p =>
    have hvalue := Value.ofJson?_toJson (hvalues p.value (by simp [values])) .tagged
    rw [toJson]
    simp only [List.append_assoc, List.cons_append, List.nil_append]
    rw [tagged?_cons (by simp)]
    simp [tagName?, alternatives, ofTag?, fields?_object, once?_cons_self, once?_cons_of_ne,
      once?_optional, once?_optional_of_ne, once?_optional_last, required, asText?, nullable_text,
      nullable_real, heldValue?, hvalue]

theorem finite_value {value : Option Value} (h : ∀ v ∈ value.toList, v.Proper) :
    ∀ v, value = some v → v.toJson.Finite :=
  fun v hv => Value.Proper.toJson v (h v (Option.mem_toList.2 hv))

theorem Proper.toJson {p : Property} (hp : p.Proper) : p.toJson.Finite := by
  obtain ⟨hvalues, huncertainty⟩ := hp
  cases p with
  | literal p =>
    have hvalue := Value.Proper.toJson p.value (hvalues p.value (by simp [values]))
    simp [Property.toJson, hvalue]
  | inherited p =>
    have hoverride : ∀ v, p.override = some v → v.toJson.Finite :=
      finite_value fun v hv => hvalues v (by simp [values, hv])
    have hresolved : ∀ v, p.resolved = some v → v.toJson.Finite :=
      finite_value fun v hv => hvalues v (by simp [values, hv])
    simpa [Property.toJson, Status.toJson, or_imp, forall_and] using ⟨hoverride, hresolved⟩
  | computed p =>
    have hcached : ∀ v, p.cached = some v → v.toJson.Finite :=
      finite_value fun v hv => hvalues v (by simp [values, hv])
    simpa [Property.toJson, Status.toJson, Json.texts, or_imp, forall_and] using hcached
  | measured p =>
    have hvalue := Value.Proper.toJson p.value (hvalues p.value (by simp [values]))
    simpa [Property.toJson, or_imp, forall_and, hvalue] using fun x => huncertainty p x rfl

end Property

namespace Entity

/-- The properties of the entity are proper. -/
def Proper (e : Entity) : Prop := ∀ p ∈ e.properties.values, p.Proper

theorem ofJson?_toJson {e : Entity} (he : e.Proper) : ofJson? e.toJson = some e := by
  have hproperties := asDict?_object (f := Property.toJson) (d := e.properties) fun p hp =>
    Property.ofJson?_toJson (he p.2 (List.mem_map_of_mem hp))
  rw [ofJson?, toJson]
  simp [memberNames, fields?_object, once?_cons_self, once?_cons_of_ne, required, defaulted, asText?,
    asCount?_count, hproperties]

theorem Proper.toJson {e : Entity} (he : e.Proper) : e.toJson.Finite := by
  have hproperties : (Json.object (e.properties.entries.map fun p => (p.1, p.2.toJson))).Finite :=
    finite_map fun p hp => (he p.2 (List.mem_map_of_mem hp)).toJson
  rw [Entity.toJson, finite_object]
  simp only [List.forall_mem_cons]
  exact ⟨trivial, trivial, trivial, hproperties, trivial, nofun⟩

end Entity

/-! ### Options -/

namespace Value

/-- The members that may be left out, each with whether the option is there. -/
def options : Value → List (String × Bool)
  | .number q => [("dimension", q.dimension.isSome), ("unit", q.unit.isSome)]
  | .reference _ type => [("entity_type", type.isSome)]
  | _ => []

/-- Absent options are left out, and only these. -/
theorem omits_toJson (v : Value) : ∃ ms, v.toJson = .object ms ∧
    ∀ o ∈ v.options, (o.2 = false ↔ Lacks o.1 ms) := by
  cases v with
  | _ => exact ⟨_, rfl, by simp [options]⟩

/-- What is left out is read as absent. -/
theorem omits_of_ofJson? {place : Place} {ms : List (String × Json)} {v : Value}
    (h : ofJson? place (.object ms) = some v) : ∀ o ∈ v.options, Lacks o.1 ms → o.2 = false := by
  obtain ⟨h', hheight⟩ := Nat.exists_eq_succ_of_ne_zero (Nat.ne_of_gt (height_pos (.object ms)))
  unfold ofJson? at h
  rw [hheight] at h
  obtain ⟨⟨t, data⟩, htagged, h⟩ := Option.bind_eq_some_iff.1 h
  obtain ⟨tag, -, h⟩ := Option.bind_eq_some_iff.1 h
  obtain ⟨ms', rfl, hlacks⟩ := tagged?_lacks htagged
  unfold ofTag? at h
  split at h
  · obtain ⟨s, -, rfl⟩ := Option.map_eq_some_iff.1 h
    nofun
  · obtain ⟨xs, hxs, h⟩ := Option.bind_eq_some_iff.1 h
    split at h
    · obtain ⟨x, -, h⟩ := Option.bind_eq_some_iff.1 h
      obtain ⟨dimension, hdimension, h⟩ := Option.bind_eq_some_iff.1 h
      obtain ⟨unit, hunit, h⟩ := Option.bind_eq_some_iff.1 h
      cases h
      obtain _ | ⟨_, _ | ⟨h₂, _ | ⟨h₃, _⟩⟩⟩ := fields?_lacks hxs
      simp only [options, List.forall_mem_cons]
      exact ⟨fun hl => isSome_nullable hdimension (h₂ (hlacks _ hl)),
        fun hl => isSome_nullable hunit (h₃ (hlacks _ hl)), nofun⟩
    · exact nomatch h
  · obtain ⟨xs, -, h⟩ := Option.bind_eq_some_iff.1 h
    split at h
    · obtain ⟨b, -, rfl⟩ := Option.map_eq_some_iff.1 h
      nofun
    · exact nomatch h
  · obtain ⟨s, -, rfl⟩ := Option.map_eq_some_iff.1 h
    nofun
  · obtain ⟨s, -, rfl⟩ := Option.map_eq_some_iff.1 h
    nofun
  · obtain ⟨xs, hxs, h⟩ := Option.bind_eq_some_iff.1 h
    split at h
    · obtain ⟨id, -, h⟩ := Option.bind_eq_some_iff.1 h
      obtain ⟨type, htype, h⟩ := Option.bind_eq_some_iff.1 h
      cases h
      obtain _ | ⟨_, _ | ⟨h₂, _⟩⟩ := fields?_lacks hxs
      simp only [options, List.forall_mem_cons]
      exact ⟨fun hl => isSome_nullable htype (h₂ (hlacks _ hl)), nofun⟩
    · exact nomatch h
  · obtain ⟨xs, -, h⟩ := Option.bind_eq_some_iff.1 h
    split at h
    · obtain ⟨type, -, h⟩ := Option.bind_eq_some_iff.1 h
      obtain ⟨items, -, h⟩ := Option.bind_eq_some_iff.1 h
      cases h
      nofun
    · exact nomatch h
  · obtain ⟨xs, -, h⟩ := Option.bind_eq_some_iff.1 h
    split at h
    · obtain ⟨fields, -, rfl⟩ := Option.map_eq_some_iff.1 h
      nofun
    · exact nomatch h
  · exact nomatch h

end Value

namespace Property

/-- The members that may be left out, each with whether the option is there. -/
def options : Property → List (String × Bool)
  | .literal _ => []
  | .inherited p => [("from_property", p.sourceName.isSome), ("override", p.override.isSome),
      ("resolved_value", p.resolved.isSome), ("error", p.error.isSome)]
  | .computed p => [("cached_value", p.cached.isSome), ("cached_at", p.cachedAt.isSome),
      ("error", p.error.isSome)]
  | .measured p => [("uncertainty", p.uncertainty.isSome), ("measurement_record", p.record.isSome),
      ("measured_at", p.measuredAt.isSome)]

/-- Absent options are left out, and only these. -/
theorem omits_toJson (p : Property) : ∃ ms, p.toJson = .object ms ∧
    ∀ o ∈ p.options, (o.2 = false ↔ Lacks o.1 ms) := by
  cases p with
  | _ => exact ⟨_, rfl, by simp [options]⟩

/-- What is left out is read as absent. -/
theorem omits_of_ofJson? {ms : List (String × Json)} {p : Property}
    (h : ofJson? (.object ms) = some p) : ∀ o ∈ p.options, Lacks o.1 ms → o.2 = false := by
  rw [ofJson?_eq] at h
  obtain ⟨⟨t, data⟩, htagged, h⟩ := Option.bind_eq_some_iff.1 h
  obtain ⟨tag, -, h⟩ := Option.bind_eq_some_iff.1 h
  obtain ⟨ms', rfl, hlacks⟩ := tagged?_lacks htagged
  unfold ofTag? at h
  split at h
  · obtain ⟨xs, -, h⟩ := Option.bind_eq_some_iff.1 h
    split at h
    · obtain ⟨name, -, h⟩ := Option.bind_eq_some_iff.1 h
      obtain ⟨value, -, h⟩ := Option.bind_eq_some_iff.1 h
      cases h
      nofun
    · exact nomatch h
  · obtain ⟨xs, hxs, h⟩ := Option.bind_eq_some_iff.1 h
    split at h
    · obtain ⟨name, -, h⟩ := Option.bind_eq_some_iff.1 h
      obtain ⟨source, -, h⟩ := Option.bind_eq_some_iff.1 h
      obtain ⟨sourceName, hsourceName, h⟩ := Option.bind_eq_some_iff.1 h
      obtain ⟨override, hoverride, h⟩ := Option.bind_eq_some_iff.1 h
      obtain ⟨resolved, hresolved, h⟩ := Option.bind_eq_some_iff.1 h
      obtain ⟨status, -, h⟩ := Option.bind_eq_some_iff.1 h
      obtain ⟨error, herror, h⟩ := Option.bind_eq_some_iff.1 h
      cases h
      obtain _ | ⟨_, _ | ⟨_, _ | ⟨h₃, _ | ⟨h₄, _ | ⟨h₅, _ | ⟨_, _ | ⟨h₇, _⟩⟩⟩⟩⟩⟩⟩ := fields?_lacks hxs
      simp only [options, List.forall_mem_cons]
      exact ⟨fun hl => isSome_nullable hsourceName (h₃ (hlacks _ hl)),
        fun hl => isSome_nullable hoverride (h₄ (hlacks _ hl)),
        fun hl => isSome_nullable hresolved (h₅ (hlacks _ hl)),
        fun hl => isSome_nullable herror (h₇ (hlacks _ hl)), nofun⟩
    · exact nomatch h
  · obtain ⟨xs, hxs, h⟩ := Option.bind_eq_some_iff.1 h
    split at h
    · obtain ⟨name, -, h⟩ := Option.bind_eq_some_iff.1 h
      obtain ⟨expression, -, h⟩ := Option.bind_eq_some_iff.1 h
      obtain ⟨dependencies, -, h⟩ := Option.bind_eq_some_iff.1 h
      obtain ⟨cached, hcached, h⟩ := Option.bind_eq_some_iff.1 h
      obtain ⟨cachedAt, hcachedAt, h⟩ := Option.bind_eq_some_iff.1 h
      obtain ⟨status, -, h⟩ := Option.bind_eq_some_iff.1 h
      obtain ⟨error, herror, h⟩ := Option.bind_eq_some_iff.1 h
      cases h
      obtain _ | ⟨_, _ | ⟨_, _ | ⟨_, _ | ⟨h₄, _ | ⟨h₅, _ | ⟨_, _ | ⟨h₇, _⟩⟩⟩⟩⟩⟩⟩ := fields?_lacks hxs
      simp only [options, List.forall_mem_cons]
      exact ⟨fun hl => isSome_nullable hcached (h₄ (hlacks _ hl)),
        fun hl => isSome_nullable hcachedAt (h₅ (hlacks _ hl)),
        fun hl => isSome_nullable herror (h₇ (hlacks _ hl)), nofun⟩
    · exact nomatch h
  · obtain ⟨xs, hxs, h⟩ := Option.bind_eq_some_iff.1 h
    split at h
    · obtain ⟨name, -, h⟩ := Option.bind_eq_some_iff.1 h
      obtain ⟨value, -, h⟩ := Option.bind_eq_some_iff.1 h
      obtain ⟨uncertainty, huncertainty, h⟩ := Option.bind_eq_some_iff.1 h
      obtain ⟨record, hrecord, h⟩ := Option.bind_eq_some_iff.1 h
      obtain ⟨measuredAt, hmeasuredAt, h⟩ := Option.bind_eq_some_iff.1 h
      cases h
      obtain _ | ⟨_, _ | ⟨_, _ | ⟨h₃, _ | ⟨h₄, _ | ⟨h₅, _⟩⟩⟩⟩⟩ := fields?_lacks hxs
      simp only [options, List.forall_mem_cons]
      exact ⟨fun hl => isSome_nullable huncertainty (h₃ (hlacks _ hl)),
        fun hl => isSome_nullable hrecord (h₄ (hlacks _ hl)),
        fun hl => isSome_nullable hmeasuredAt (h₅ (hlacks _ hl)), nofun⟩
    · exact nomatch h
  · exact nomatch h

end Property

end EntityFormulas
