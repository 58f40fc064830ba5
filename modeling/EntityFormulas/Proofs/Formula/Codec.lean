/-
  EntityFormulas/Proofs/Formula/Codec.lean
  ========================================
  **Formulas and templates survive their JSON form.**

  Reading the tree that is written for a formula gives the formula back
  (`ofJsonWithin?_toJson`), and reading does not see members that no part of a
  formula declares (`ofJsonWithin?_grow`).  Both are by recursion as the reader
  does it, with a bound for the height of the tree that is only required to
  suffice.
-/
import EntityFormulas.Formula.Json
import EntityFormulas.Proofs.Json.Growth

namespace EntityFormulas

open Json

/-! ### Growth -/

namespace Literal

/-- Growth of a literal, in which nothing nests. -/
def Grows : Growth := StructGrows [("type", Eq), ("value", Eq)]

theorem ofJson?_grow {j j' : Json} (h : Grows j j') : ofJson? j = ofJson? j' := by
  have htype : typeAndValue? j = typeAndValue? j' := by
    cases h with
    | same => rfl
    | object members =>
      unfold typeAndValue?
      dsimp only
      have htype : once? "type" _ = once? "type" _ := once?_eq (by simp) members (by simp)
      have hvalue : once? "value" _ = once? "value" _ := once?_eq (by simp) members (by simp)
      rw [htype, hvalue]
    | array members => rw [members.eq (by simp)]
  unfold ofJson?
  rw [htype]

end Literal

namespace Expression

variable {item? item?' : Json → Option Expression} {R : Growth} {h k : Nat} {data data' : Json}

/-- The members of each kind of formula, when the formulas inside it grow by `R`. -/
def alternatives (R : Growth) : List (String × List (String × Growth)) := [
  ("literal", [("value", Literal.Grows)]),
  ("self_property", [("name", Eq)]),
  ("self_entity", []),
  ("entity_ref", [("id", Eq)]),
  ("member", [("object", R), ("member", Eq)]),
  ("unary", [("op", Eq), ("operand", R)]),
  ("binary", [("op", Eq), ("left", R), ("right", R)]),
  ("call", [("name", Eq), ("args", ListGrows R)]),
  ("list", [("items", ListGrows R)]),
  ("record", [("fields", ListGrows (PairGrows R))])]

theorem alternatives_refl (hrefl : ∀ j, R j j) :
    ∀ a ∈ alternatives R, ∀ d ∈ a.2, ∀ j, d.2 j j := by
  simp only [alternatives, Literal.Grows, List.forall_mem_cons, List.not_mem_nil, false_imp_iff,
    implies_true, and_true, structGrows_refl, listGrows_refl, hrefl]

theorem alternatives_nodup : ∀ a ∈ alternatives R, ("kind" :: a.2.map Prod.fst).Nodup := by
  simp [alternatives]

theorem field?_grow {j j' : Json} (hgrow : PairGrows R j j') (hrefl : ∀ j, R j j)
    (hitem : ∀ i i', R i i' → i.height < j.height → i'.height < j'.height → item? i = item?' i') :
    field? item? j = field? item?' j' := by
  have hpair {first j j' : Json} (hinner : R j j')
      (hitem : ∀ i i', R i i' → i.height < (Json.array [first, j]).height →
        i'.height < (Json.array [first, j']).height → item? i = item?' i') :
      field? item? (.array [first, j]) = field? item?' (.array [first, j']) := by
    have hj := hitem j j' hinner (height_lt_of_mem_items (by simp))
      (height_lt_of_mem_items (by simp))
    unfold field?
    cases first with
    | text name =>
      dsimp only
      rw [hj]
    | _ => rfl
  cases hgrow with
  | same =>
    unfold field?
    split
    · rw [hitem _ _ (hrefl _) (height_lt_of_mem_items (by simp)) (height_lt_of_mem_items (by simp))]
    · rfl
  | pair inner => exact hpair inner hitem

theorem ofKind?_grow (hrefl : ∀ j, R j j)
    (hitem : ∀ j j', R j j' → j.height ≤ h → j'.height ≤ k → item? j = item?' j')
    {a : String × List (String × Growth)} (ha : a ∈ alternatives R)
    (hgrow : StructGrows a.2 data data') (hh : data.height ≤ h + 1) (hk : data'.height ≤ k + 1) :
    ofKind? item? a.1 data = ofKind? item?' a.1 data' := by
  have hunit := isUnit_grow hgrow
  have hagree := fieldsAgree_struct hgrow (List.nodup_cons.1 (alternatives_nodup a ha)).2
    (alternatives_refl hrefl a ha) hh hk
  have hitems (j j' : Json) (hR : ListGrows R j j') (hj : j.height ≤ h) (hj' : j'.height ≤ k) :
      asList? item? j = asList? item?' j' :=
    asList?_grow hR hrefl fun i i' hi hh hk => hitem i i' hi (by omega) (by omega)
  have hpairs (j j' : Json) (hR : ListGrows (PairGrows R) j j') (hj : j.height ≤ h)
      (hj' : j'.height ≤ k) : asList? (field? item?) j = asList? (field? item?') j' :=
    asList?_grow hR (by simp) fun i i' hi hh hk => field?_grow hi hrefl fun i i' hi hh hk =>
      hitem i i' hi (by omega) (by omega)
  simp only [alternatives, List.mem_cons, List.not_mem_nil, or_false] at ha
  rcases ha with rfl | rfl | rfl | rfl | rfl | rfl | rfl | rfl | rfl | rfl
  all_goals
    simp only [List.map_cons, List.map_nil] at hagree
    simp only [ofKind?]
  · refine hagree.bind fun xs ys fields => ?_
    rcases fields with _ | ⟨f₁, _ | _⟩
    dsimp only
    rw [required_grow f₁ fun _ _ hR _ _ => Literal.ofJson?_grow hR]
  · rw [hagree.eq (by simp)]
  · rw [hunit]
  · rw [hagree.eq (by simp)]
  · refine hagree.bind fun xs ys fields => ?_
    rcases fields with _ | ⟨f₁, _ | ⟨f₂, _ | _⟩⟩
    dsimp only
    rw [required_grow f₁ hitem, f₂.eq]
  · refine hagree.bind fun xs ys fields => ?_
    rcases fields with _ | ⟨f₁, _ | ⟨f₂, _ | _⟩⟩
    dsimp only
    rw [f₁.eq, required_grow f₂ hitem]
  · refine hagree.bind fun xs ys fields => ?_
    rcases fields with _ | ⟨f₁, _ | ⟨f₂, _ | ⟨f₃, _ | _⟩⟩⟩
    dsimp only
    rw [f₁.eq, required_grow f₂ hitem, required_grow f₃ hitem]
  · refine hagree.bind fun xs ys fields => ?_
    rcases fields with _ | ⟨f₁, _ | ⟨f₂, _ | _⟩⟩
    dsimp only
    rw [f₁.eq, required_grow f₂ hitems]
  · refine hagree.bind fun xs ys fields => ?_
    rcases fields with _ | ⟨f₁, _ | _⟩
    dsimp only
    rw [required_grow f₁ hitems]
  · refine hagree.bind fun xs ys fields => ?_
    rcases fields with _ | ⟨f₁, _ | _⟩
    dsimp only
    rw [required_grow f₁ hpairs]

/-- Growth of a formula. -/
def Grows (j j' : Json) : Prop := ∃ n, NestedGrows "kind" alternatives n j j'

/-- Reading depends neither on the bound for the height nor on members that are not declared. -/
theorem ofJsonWithin?_grow {j j' : Json} (hgrow : Grows j j') (hh : j.height ≤ h)
    (hk : j'.height ≤ k) (place : Place) :
    ofJsonWithin? place h j = ofJsonWithin? place k j' := by
  obtain ⟨n, hgrow⟩ := hgrow
  exact nested_grow kinds ofKind? (fun _ _ _ => rfl) (by decide) (fun _ => rfl)
    (fun _ => alternatives_nodup)
    (fun _ _ _ _ _ hrefl hitem _ ha _ _ hdata hh hk => ofKind?_grow hrefl hitem ha hdata hh hk)
    hgrow hh hk place

theorem ofJson?_grow {j j' : Json} (hgrow : Grows j j') : ofJson? j = ofJson? j' := by
  exact ofJsonWithin?_grow hgrow (Nat.le_refl _) (Nat.le_refl _) .document

end Expression

namespace TemplatePart

def alternatives : List (String × List (String × Growth)) := [
  ("text", [("text", Eq)]),
  ("interpolation", [("source", Eq), ("expression", Expression.Grows)])]

/-- Growth of a part of a template. -/
def Grows : Growth := ChoiceGrows "kind" alternatives

/-- Reads the data of a part of the given kind. -/
def ofKind? (kind : String) (data : Json) : Option TemplatePart :=
  match kind with
  | "text" => do
    let [content] ← data.fields? ["text"] | none
    (required asText? content).map .text
  | _ => do
    let [source, expression] ← data.fields? ["source", "expression"] | none
    some (.interpolation (← required asText? source)
      (← required (fun e => Expression.ofJsonWithin? .tagged e.height e) expression))

theorem ofJson?_eq (j : Json) : ofJson? j = (do
    let (tag, data) ← j.tagged? "kind"
    ofKind? (← tagName? (alternatives.map Prod.fst) .document tag) data) := rfl

theorem ofJson?_grow {j j' : Json} (hgrow : Grows j j') : ofJson? j = ofJson? j' := by
  have hnodup : ∀ a ∈ alternatives, ("kind" :: a.2.map Prod.fst).Nodup := by simp [alternatives]
  have hrefl : ∀ a ∈ alternatives, ∀ d ∈ a.2, ∀ j, d.2 j j := by
    simp only [alternatives, List.forall_mem_cons, List.not_mem_nil, false_imp_iff, implies_true,
      and_true, true_and]
    exact fun j => ⟨0, rfl⟩
  rw [ofJson?_eq, ofJson?_eq]
  refine choice_grow hgrow (by decide) hnodup (fun a ha data data' hdata _ _ => ?_) .document
  have hagree := fieldsAgree_struct hdata (List.nodup_cons.1 (hnodup a ha)).2 (hrefl a ha)
    (Nat.le_succ data.height) (Nat.le_succ data'.height)
  simp only [alternatives, List.mem_cons, List.not_mem_nil, or_false] at ha
  rcases ha with rfl | rfl
  all_goals
    simp only [List.map_cons, List.map_nil] at hagree
    simp only [ofKind?]
  · rw [hagree.eq (by simp)]
  · refine hagree.bind fun xs ys fields => ?_
    rcases fields with _ | ⟨f₁, _ | ⟨f₂, _ | _⟩⟩
    dsimp only
    rw [f₁.eq, required_grow f₂ fun _ _ hR _ _ =>
        Expression.ofJsonWithin?_grow hR (Nat.le_refl _) (Nat.le_refl _) .tagged]

end TemplatePart

namespace Template

/-- Growth of a template. -/
def Grows : Growth := StructGrows [("parts", ListGrows TemplatePart.Grows)]

theorem ofJson?_grow {j j' : Json} (hgrow : Grows j j') : ofJson? j = ofJson? j' := by
  have hagree := fieldsAgree_struct hgrow (by simp) (by simp) (Nat.le_succ j.height)
    (Nat.le_succ j'.height)
  refine hagree.bind fun xs ys fields => ?_
  rcases fields with _ | ⟨f₁, _ | _⟩
  dsimp only
  rw [required_grow f₁ fun _ _ hR _ _ => asList?_grow hR (by simp [TemplatePart.Grows])
    fun _ _ hi _ _ => TemplatePart.ofJson?_grow hi]

end Template

/-! ### Reading what was written -/

theorem UnaryOp.ofJson?_name (place : Place) (op : UnaryOp) :
    UnaryOp.ofJson? place (.text op.name) = some op := by
  cases op <;> rfl

theorem BinaryOp.ofJson?_name (place : Place) (op : BinaryOp) :
    BinaryOp.ofJson? place (.text op.name) = some op := by
  cases op <;> rfl

theorem Literal.ofJson?_toJson (l : Literal) : ofJson? l.toJson = some l := by
  cases l <;> rfl

namespace Expression

/-- What is written starts with the kind, which every place accepts. -/
theorem ofJsonWithin?_object {kind : String} (hkind : kind ∈ kinds) {ms : List (String × Json)}
    (hms : Lacks "kind" ms) (place : Place) (h : Nat) :
    ofJsonWithin? place (h + 1) (.object (("kind", .text kind) :: ms)) =
      ofKind? (ofJsonWithin? .tagged h) kind (.object ms) := by
  simp only [ofJsonWithin?, tagged?_cons hms, Option.bind_eq_bind, Option.bind_some, tagName?,
    if_pos hkind]

mutual

theorem ofJsonWithin?_toJson : (e : Expression) → ∀ {h : Nat}, e.toJson.height ≤ h →
    ∀ place : Place, ofJsonWithin? place h e.toJson = some e
  | e, 0, hh, _ => absurd hh (Nat.not_le_of_lt (height_pos _))
  | .literal value, h + 1, hh, place => by
    rw [toJson, ofJsonWithin?_object (by decide) (by simp)]
    simp [ofKind?, fields?_object, once?_cons_self, required, Literal.ofJson?_toJson]
  | .selfProperty name, h + 1, hh, place => by
    rw [toJson, ofJsonWithin?_object (by decide) (by simp)]
    simp [ofKind?, fields?_object, once?_cons_self, required, asText?]
  | .selfEntity, h + 1, hh, place => by
    rw [toJson, ofJsonWithin?_object (by decide) (by simp)]
    simp [ofKind?, isUnit]
  | .entityRef id, h + 1, hh, place => by
    rw [toJson, ofJsonWithin?_object (by decide) (by simp)]
    simp [ofKind?, fields?_object, once?_cons_self, required, asText?]
  | .member inner name, h + 1, hh, place => by
    rw [toJson] at hh
    have hinner := ofJsonWithin?_toJson inner (h := h)
      (height_le_of_mem_members (m := ("object", inner.toJson)) (by simp) hh) .tagged
    rw [toJson, ofJsonWithin?_object (by decide) (by simp)]
    simp [ofKind?, fields?_object, once?_cons_self, once?_cons_of_ne, required, asText?, hinner]
  | .unary op operand, h + 1, hh, place => by
    rw [toJson] at hh
    have hoperand := ofJsonWithin?_toJson operand (h := h)
      (height_le_of_mem_members (m := ("operand", operand.toJson)) (by simp) hh) .tagged
    rw [toJson, ofJsonWithin?_object (by decide) (by simp)]
    simp [ofKind?, fields?_object, once?_cons_self, once?_cons_of_ne, required,
      UnaryOp.ofJson?_name, hoperand]
  | .binary op left right, h + 1, hh, place => by
    rw [toJson] at hh
    have hleft := ofJsonWithin?_toJson left (h := h)
      (height_le_of_mem_members (m := ("left", left.toJson)) (by simp) hh) .tagged
    have hright := ofJsonWithin?_toJson right (h := h)
      (height_le_of_mem_members (m := ("right", right.toJson)) (by simp) hh) .tagged
    rw [toJson, ofJsonWithin?_object (by decide) (by simp)]
    simp [ofKind?, fields?_object, once?_cons_self, once?_cons_of_ne, required,
      BinaryOp.ofJson?_name, hleft, hright]
  | .call name args, h + 1, hh, place => by
    rw [toJson] at hh
    have hargs := mapM_listToJson args (h := h) (Nat.le_of_succ_le
      (height_le_of_mem_members (m := ("args", .array (listToJson args))) (by simp) hh))
    rw [toJson, ofJsonWithin?_object (by decide) (by simp)]
    simp [ofKind?, fields?_object, once?_cons_self, once?_cons_of_ne, required, asText?, asList?,
      hargs]
  | .list items, h + 1, hh, place => by
    rw [toJson] at hh
    have hitems := mapM_listToJson items (h := h) (Nat.le_of_succ_le
      (height_le_of_mem_members (m := ("items", .array (listToJson items))) (by simp) hh))
    rw [toJson, ofJsonWithin?_object (by decide) (by simp)]
    simp [ofKind?, fields?_object, once?_cons_self, required, asList?, hitems]
  | .record fields, h + 1, hh, place => by
    rw [toJson] at hh
    have hfields := mapM_fieldsToJson fields (h := h) (Nat.le_of_succ_le
      (height_le_of_mem_members (m := ("fields", .array (fieldsToJson fields))) (by simp) hh))
    rw [toJson, ofJsonWithin?_object (by decide) (by simp)]
    simp [ofKind?, fields?_object, once?_cons_self, required, asList?, hfields]

theorem mapM_listToJson : (es : List Expression) → ∀ {h : Nat}, heightItems (listToJson es) ≤ h →
    (listToJson es).mapM (ofJsonWithin? .tagged h) = some es
  | [], _, _ => rfl
  | e :: es, h, hh => by
    simp only [listToJson, heightItems, Nat.max_le] at hh
    rw [listToJson, List.mapM_cons, ofJsonWithin?_toJson e hh.1, mapM_listToJson es hh.2]
    rfl

theorem mapM_fieldsToJson : (fs : List (String × Expression)) → ∀ {h : Nat},
    heightItems (fieldsToJson fs) ≤ h →
      (fieldsToJson fs).mapM (field? (ofJsonWithin? .tagged h)) = some fs
  | [], _, _ => rfl
  | (name, e) :: fs, h, hh => by
    simp only [fieldsToJson, heightItems, Nat.max_le] at hh
    have he : e.toJson.height ≤ h :=
      Nat.le_of_lt (Nat.lt_of_lt_of_le (height_lt_of_mem_items (by simp)) hh.1)
    rw [fieldsToJson, List.mapM_cons, field?, ofJsonWithin?_toJson e he, mapM_fieldsToJson fs hh.2]
    rfl

end

theorem ofJson?_toJson (e : Expression) : ofJson? e.toJson = some e :=
  ofJsonWithin?_toJson e (Nat.le_refl _) .document

/-- Every number in a formula is finite. -/
def Finite (e : Expression) : Prop := ∀ x, .literal (.number x) ∈ e.parts → isFiniteNumber x = true

mutual

theorem Finite.toJson : (e : Expression) → e.Finite → e.toJson.Finite
  | .literal value, he => by
    cases value with
    | number x => simp [Expression.toJson, Literal.toJson, he x (by simp [parts])]
    | _ => simp [Expression.toJson, Literal.toJson]
  | .selfProperty _, _ | .selfEntity, _ | .entityRef _, _ => by simp [Expression.toJson]
  | .member inner _, he => by
    have hinner := Finite.toJson inner fun x hx => he x (by simp [parts, hx])
    simp [Expression.toJson, hinner]
  | .unary op operand, he => by
    have hoperand := Finite.toJson operand fun x hx => he x (by simp [parts, hx])
    simp [Expression.toJson, hoperand]
  | .binary op left right, he => by
    have hleft := Finite.toJson left fun x hx => he x (by simp [parts, hx])
    have hright := Finite.toJson right fun x hx => he x (by simp [parts, hx])
    simp [Expression.toJson, hleft, hright]
  | .call _ args, he => by
    have hargs := finite_listToJson args fun x hx => he x (by simp [parts, hx])
    simpa [Expression.toJson] using hargs
  | .list items, he => by
    have hitems := finite_listToJson items fun x hx => he x (by simp [parts, hx])
    simpa [Expression.toJson] using hitems
  | .record fields, he => by
    have hfields := finite_fieldsToJson fields fun x hx => he x (by simp [parts, hx])
    simpa [Expression.toJson] using hfields

theorem finite_listToJson : (es : List Expression) →
    (∀ x, .literal (.number x) ∈ partsOfList es → isFiniteNumber x = true) →
      ∀ j ∈ listToJson es, j.Finite
  | [], _ => nofun
  | e :: es, hes => by
    have he := Finite.toJson e fun x hx => hes x (by simp [partsOfList, hx])
    have hrest := finite_listToJson es fun x hx => hes x (by simp [partsOfList, hx])
    rw [listToJson, List.forall_mem_cons]
    exact ⟨he, hrest⟩

theorem finite_fieldsToJson : (fs : List (String × Expression)) →
    (∀ x, .literal (.number x) ∈ partsOfFields fs → isFiniteNumber x = true) →
      ∀ j ∈ fieldsToJson fs, j.Finite
  | [], _ => nofun
  | (name, e) :: fs, hfs => by
    have he := Finite.toJson e fun x hx => hfs x (by simp [partsOfFields, hx])
    have hrest := finite_fieldsToJson fs fun x hx => hfs x (by simp [partsOfFields, hx])
    rw [fieldsToJson, List.forall_mem_cons]
    exact ⟨by simp [he], hrest⟩

end

end Expression

namespace TemplatePart

theorem ofJson?_toJson (p : TemplatePart) : ofJson? p.toJson = some p := by
  cases p with
  | text content =>
    rw [ofJson?_eq, toJson, tagged?_cons (by simp)]
    rfl
  | interpolation source e =>
    have he := Expression.ofJsonWithin?_toJson e (Nat.le_refl _) .tagged
    rw [ofJson?_eq, toJson, tagged?_cons (by simp)]
    simp [ofKind?, tagName?, alternatives, fields?_object, once?_cons_self, once?_cons_of_ne,
      required, asText?, he]

end TemplatePart

namespace Template

theorem ofJson?_toJson (t : Template) : ofJson? t.toJson = some t := by
  have hparts : (t.parts.map TemplatePart.toJson).mapM TemplatePart.ofJson? = some t.parts :=
    mapM_map fun p _ => TemplatePart.ofJson?_toJson p
  rw [ofJson?, toJson]
  simp [fields?_object, once?_cons_self, required, asList?, hparts]

/-- Every number in the formulas of a template is finite. -/
def Finite (t : Template) : Prop := ∀ e ∈ t.expressions, e.Finite

theorem Finite.toJson {t : Template} (h : t.Finite) : t.toJson.Finite := by
  have hparts : ∀ p ∈ t.parts, p.toJson.Finite := by
    intro p hp
    cases p with
    | text content => simp [TemplatePart.toJson]
    | interpolation source e =>
      have he := (h e (List.mem_filterMap.2 ⟨_, hp, rfl⟩)).toJson
      simp [TemplatePart.toJson, he]
  simpa [Template.toJson] using hparts

end Template

end EntityFormulas
