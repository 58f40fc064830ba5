/-
  EntityFormulas/Proofs/Computation/WriteBack.lean
  ================================================
  **What is stored is what was computed.**

  A pass moves the properties of the entity it has loaded, and then the store
  moves its own copy by the records of the pass.  A record says less than a
  verdict does: it has the value that readers see, not the value found, and no
  time where a computation has failed.  The two agree all the same
  (`withState_record`), since an override is the value found wherever there is
  one (`Respects`) and a failure changes neither value nor time.

  So a pass over an entity in an available store always comes to an outcome, and
  leaves its properties stored (`recompute_writes`).
-/
import EntityFormulas.Proofs.Computation.Verdicts
import EntityFormulas.Proofs.Store.Writing

namespace EntityFormulas

/-! ### Records of verdicts -/

namespace Property

/-- A record replaces what a mark changes. -/
theorem withState_markStale (r : StateRecord) (p : Property) :
    p.markStale.withState r = p.withState r := by
  cases p <;> rfl

theorem status?_markStale (p : Property) : p.markStale.status? = p.status?.map Status.marked := by
  cases p <;> rfl

/-- What is not stale after a mark has not changed. -/
theorem markStale_of_unselected {p : Property}
    (h : ∀ s, p.markStale.status? = some s → Scope.stale.selects s = false) : p.markStale = p := by
  have hmarked {s : Status} (hs : Scope.stale.selects s.marked = false) : s.marked = s := by
    cases s with
    | valid | error => exact nomatch hs
    | pending | stale | circular => rfl
  cases p with
  | literal p => rfl
  | measured p => rfl
  | inherited p => exact congrArg (fun s => inherited { p with status := s }) (hmarked (h _ rfl))
  | computed p => exact congrArg (fun s => computed { p with status := s }) (hmarked (h _ rfl))

end Property

namespace Verdict

/-- The value found for an inherited property is its override, if it has one. -/
def Respects (v : Verdict) (p : Property) : Prop :=
  ∀ q w, p = .inherited q → q.override = some w → ∃ t, v = .valid (some w) t

theorem ofSource_respects (now : String) (ctx : EvaluationContext) (p : InheritedProperty) :
    (ofSource now ctx p).Respects (.inherited p) := by
  intro q w hq hw
  cases hq
  refine ⟨now, ?_⟩
  unfold ofSource
  rw [hw]

theorem respects_computed (v : Verdict) (p : ComputedProperty) : v.Respects (.computed p) :=
  fun _ _ hq => nomatch hq

/-- The record of a verdict does to a property what the verdict does. -/
theorem withState_record {v : Verdict} {p : Property} {s : Status} (hs : p.status? = some s)
    (hcircular : s ≠ .circular) (hv : v.Respects p) (entity actor name : String) :
    p.withState (v.record entity actor name (v.applied p)) = some (v.applied p) := by
  cases p with
  | literal p => exact nomatch hs
  | measured p => exact nomatch hs
  | computed p =>
    cases hs
    cases v with
    | valid value time =>
      rw [valid_applied hcircular]
      rfl
    | failed m =>
      rw [failed_applied hcircular]
      rfl
    | circular m =>
      rw [circular_applied hcircular]
      rfl
  | inherited p =>
    cases hs
    have hfailed (hnone : p.override = none) (m : String) : (Property.inherited p).withState
        ((failed m).record entity actor name ((failed m).applied (.inherited p))) =
          some ((failed m).applied (.inherited p)) := by
      rw [failed_applied_inherited hcircular]
      simp [Property.withState, record, Property.status?, Property.current, hnone, error?]
    cases ho : p.override with
    | some w =>
      obtain ⟨t, rfl⟩ := hv p w rfl ho
      rw [valid_applied_inherited hcircular]
      simp [Property.withState, record, Property.status?, Property.current, ho, error?]
    | none =>
      cases v with
      | valid value time =>
        rw [valid_applied_inherited hcircular]
        simp [Property.withState, record, Property.status?, Property.current, ho, error?]
      | failed m => exact hfailed ho m
      | circular m => exact hfailed ho m

end Verdict

/-- The verdicts of a pass that has found a context respect overrides. -/
theorem Selection.verdicts_respect {e : Entity} (h : e.NamesAgree) (now : String) (scope : Scope)
    (ctx : EvaluationContext) {name : String} {v : Verdict} {p : Property}
    (hv : (name, v) ∈ (ofEntity scope e).verdicts now ctx)
    (hp : e.properties.get? name = some p) : v.Respects p := by
  rcases List.mem_append.1 hv with hv | hv
  · obtain ⟨q, hq, _, rfl⟩ := (mem_sourceVerdicts h now scope ctx).1 hv
    rw [hp] at hq
    cases hq
    exact Verdict.ofSource_respects now ctx q
  · have hname : name ∈ (ofEntity scope e).formulas.entries.map Prod.fst := by
      rw [← formulaVerdicts_names now ((ofEntity scope e).passContext now ctx) _ {}]
      exact List.mem_map_of_mem hv
    obtain ⟨⟨key, f⟩, hf, rfl⟩ := List.mem_map.1 hname
    obtain ⟨q, hq, _, _⟩ := (get?_formulas_iff h).1 (Dict.mem_entries_iff.1 hf)
    rw [hp] at hq
    cases hq
    exact v.respects_computed q

/-! ### Entities as a pass finds them -/

namespace Request

/-- Which properties are recomputed. -/
def scope : Request → Scope
  | .asStored scope => scope
  | .marked _ => .stale

/-- A property as the pass finds it. -/
def readied (name : String) : Request → Property → Property
  | .asStored _, p => p
  | .marked names, p => if name ∈ names then p.markStale else p

/-- The entity as the pass finds it. -/
def prepare : Request → Entity → Entity
  | .asStored _, e => e
  | .marked names, e => e.markStale names

variable (request : Request) {e : Entity} {name : String}

theorem get?_prepare : (request.prepare e).properties.get? name =
    (e.properties.get? name).map (request.readied name) := by
  cases request with
  | asStored scope => exact Option.map_id'.symm
  | marked names => exact e.markStale_get? names name

theorem namesAgree_prepare (h : e.NamesAgree) : (request.prepare e).NamesAgree := by
  cases request with
  | asStored scope => exact h
  | marked names => exact h.markStale names

theorem readied_eq (p : Property) : request.readied name p = p ∨
    request.scope = .stale ∧ request.readied name p = p.markStale := by
  cases request with
  | asStored scope => exact .inl rfl
  | marked names =>
    unfold readied
    dsimp only
    split
    · exact .inr ⟨rfl, rfl⟩
    · exact .inl rfl

theorem withState_readied (r : StateRecord) (p : Property) :
    (request.readied name p).withState r = p.withState r := by
  rcases request.readied_eq p with h | ⟨_, h⟩
  · rw [h]
  · rw [h, p.withState_markStale]

theorem status?_isSome_readied (p : Property) :
    (request.readied name p).status?.isSome = p.status?.isSome := by
  rcases request.readied_eq p with h | ⟨_, h⟩
  · rw [h]
  · rw [h, p.status?_markStale, Option.isSome_map]

/-- What the pass does not select it finds as it is stored. -/
theorem readied_of_unselected {p : Property} (h : ∀ s,
    (request.readied name p).status? = some s → request.scope.selects s = false) :
    request.readied name p = p := by
  rcases request.readied_eq p with hsame | ⟨hscope, hmarked⟩
  · exact hsame
  · rw [hmarked, hscope] at h
    rw [hmarked, Property.markStale_of_unselected h]

theorem compute_eq (settings : Settings) (now tenant entity : String) :
    request.compute settings now tenant entity = (do
      let e ← Fetch.entity tenant entity
      ExceptT.lift ((request.prepare e).recompute settings now request.scope)) := by
  cases request <;> rfl

/-- A stored entity is found, and the pass over it has a context. -/
theorem compute_answer {tables : String → TenantTable} {tenant : String}
    (he : (tables tenant).entities.get? e.id = some e) (settings : Settings) (now : String) :
    ∃ ctx, ctx.properties = (request.prepare e).properties ∧
      (request.compute settings now tenant e.id).answer tables =
        .ok ((Selection.ofEntity request.scope (request.prepare e)).compute now ctx
          ⟨(request.prepare e).properties, []⟩).inOrder := by
  have hentity : (Fetch.entity tenant e.id).answer tables = .ok e := by
    have hfound : (Fetch.entities tenant [e.id]).answer tables = .ok [e] := by
      show Except.ok ((tables tenant).fetch [e.id]) = _
      unfold TenantTable.fetch
      rw [List.filterMap_cons, he]
      rfl
    rw [Fetch.entity, Fetch.answer_bind_ok hfound, StoreError.pickEntity_single rfl]
    rfl
  obtain ⟨ctx, hgrows, hanswer⟩ := ((request.prepare e).recompute_grows settings now
    request.scope).answer (fun a => ⟨a, rfl⟩) tables
  refine ⟨ctx, hgrows.properties, ?_⟩
  rw [compute_eq, Fetch.answer_bind_ok hentity, ← hanswer]
  exact Lookup.answer_bind tables _ _

end Request

/-! ### Writing the records of an entity -/

namespace Entity

variable {e : Entity} {rs : List StateRecord}

theorem withState_eq {r : StateRecord} {e' : Entity} (h : e.withState r = .ok e') :
    e' = { e with properties := e'.properties, version := e.nextVersion } := by
  unfold withState at h
  split at h
  · exact nomatch h
  · split at h
    · exact nomatch h
    · cases h
      rfl

/-- A property that no record is about stays. -/
theorem get?_written_of_forall_ne (hw : e.Writable rs) {name : String}
    (hn : ∀ r ∈ rs, r.property ≠ name) :
    (e.written rs).properties.get? name = e.properties.get? name := by
  induction rs generalizing e with
  | nil => rfl
  | cons r rest ih =>
    obtain ⟨e', he', hrest, hwritten⟩ := hw.exists_next
    rw [hwritten, ih hrest fun r hr => hn r (List.mem_cons_of_mem _ hr), get?_withState he',
      if_neg (hn r List.mem_cons_self)]

/-- A property that one record is about has the state of the record. -/
theorem get?_written (hw : e.Writable rs)
    (hd : rs.Pairwise fun r r' => r.property ≠ r'.property) {r : StateRecord} (hr : r ∈ rs) :
    (e.written rs).properties.get? r.property =
      (e.properties.get? r.property).bind (Property.withState r) := by
  induction rs generalizing e with
  | nil => exact absurd hr List.not_mem_nil
  | cons first rest ih =>
    obtain ⟨e', he', hrest, hwritten⟩ := hw.exists_next
    obtain ⟨hfirst, hd⟩ := List.pairwise_cons.1 hd
    rw [hwritten]
    rcases List.mem_cons.1 hr with rfl | hr
    · rw [get?_written_of_forall_ne hrest fun r hr => (hfirst r hr).symm, get?_withState he',
        if_pos rfl]
    · rw [ih hrest hd hr, get?_withState he', if_neg (hfirst r hr)]

/-- Writing changes nothing but properties and the version, which counts the records. -/
theorem exists_written_eq (hw : e.Writable rs) :
    ∃ version, e.written rs = { e with properties := (e.written rs).properties, version } ∧
      (e.version + rs.length < versionCount → version = e.version + rs.length) := by
  induction rs generalizing e with
  | nil => exact ⟨e.version, rfl, fun _ => rfl⟩
  | cons r rest ih =>
    obtain ⟨e', he', hrest, hwritten⟩ := hw.exists_next
    obtain ⟨version, heq, hversion⟩ := ih hrest
    have hsame := withState_eq he'
    refine ⟨version, ?_, fun hlt => ?_⟩
    · rw [hwritten]
      refine heq.trans ?_
      rw [hsame]
    · rw [List.length_cons] at hlt ⊢
      have hnext : e'.version = e.version + 1 := by
        rw [hsame]
        exact Nat.mod_eq_of_lt (by omega)
      rw [hversion (by omega), hnext]
      omega

end Entity

/-! ### Writing an outcome -/

namespace Entity.Judged

variable {request : Request} {e : Entity} {vs : List (String × Verdict)} {o : PassOutcome}
  (h : (request.prepare e).Judged request.scope vs o) (entity actor : String)
include h

omit entity actor in
/-- A verdict is about a derived property of the stored entity, as the pass finds it. -/
theorem exists_stored {name : String} {v : Verdict} (hv : (name, v) ∈ vs) :
    ∃ q s, e.properties.get? name = some q ∧
      (request.prepare e).properties.get? name = some (request.readied name q) ∧
      (request.readied name q).status? = some s ∧ request.scope.selects s = true := by
  obtain ⟨p, s, hp, hs, hsel⟩ := (h.selects name).1 ⟨v, hv⟩
  have hprepared := hp
  rw [request.get?_prepare] at hprepared
  obtain ⟨q, hq, rfl⟩ := Option.map_eq_some_iff.1 hprepared
  exact ⟨q, s, hq, hp, hs, hsel⟩

/-- The records are about derived properties of the stored entity. -/
theorem writable : e.Writable (o.records entity actor) := by
  intro r hr
  obtain ⟨v, _, hv, _⟩ := h.mem_records.1 hr
  obtain ⟨q, s, hq, _, hs, _⟩ := h.exists_stored hv
  refine ⟨q, hq, ?_⟩
  rw [← request.status?_isSome_readied, hs]
  rfl

theorem records_distinct :
    (o.records entity actor).Pairwise fun r r' => r.property ≠ r'.property := by
  have hascending := h.ascending
  rw [List.pairwise_map] at hascending
  refine List.pairwise_map.2 (hascending.imp fun {a b} hlt heq => ?_)
  have heq : a.name = b.name := heq
  exact String.lt_irrefl _ (heq ▸ hlt)

/-- The records make of the stored properties those of the outcome. -/
theorem properties_written
    (hrespects : ∀ name v p, (name, v) ∈ vs → (request.prepare e).properties.get? name = some p →
      v.Respects p) :
    (e.written (o.records entity actor)).properties = o.properties := by
  have hw := h.writable entity actor
  refine Dict.ext_get? fun name => ?_
  by_cases hselected : ∃ v, (name, v) ∈ vs
  · -- The record does to the stored property what the verdict has done to the one of the pass.
    obtain ⟨v, hv⟩ := hselected
    obtain ⟨q, s, hq, hp, hs, hsel⟩ := h.exists_stored hv
    have hr : v.record entity actor name (v.applied (request.readied name q)) ∈
        o.records entity actor := h.mem_records.2 ⟨v, _, hv, hp, rfl⟩
    have hget : (e.written (o.records entity actor)).properties.get? name =
        (e.properties.get? name).bind (Property.withState
          (v.record entity actor name (v.applied (request.readied name q)))) :=
      get?_written hw (h.records_distinct entity actor) hr
    have hstate := Verdict.withState_record hs (Scope.ne_circular_of_selects hsel)
      (hrespects name v _ hv hp) entity actor name
    rw [request.withState_readied] at hstate
    rw [hget, hq, Option.bind_some, hstate, h.get? hv, hp, Option.map_some]
  · -- Neither the store nor the pass has touched the property, and no mark has.
    have hunselected (p : Property) (s : Status)
        (hp : (request.prepare e).properties.get? name = some p) (hs : p.status? = some s) :
        request.scope.selects s = false := by
      by_contra hsel
      exact hselected ((h.selects name).2 ⟨p, s, hp, hs, by simpa using hsel⟩)
    have hno (r : StateRecord) (hr : r ∈ o.records entity actor) : r.property ≠ name := by
      rintro rfl
      obtain ⟨v, p, hv, _⟩ := h.mem_records.1 hr
      exact hselected ⟨v, hv⟩
    rw [get?_written_of_forall_ne hw hno, h.get?_unselected hunselected, request.get?_prepare]
    cases hp : e.properties.get? name with
    | none => rfl
    | some p =>
      rw [Option.map_some, request.readied_of_unselected fun s hs => ?_]
      exact hunselected _ s (by rw [request.get?_prepare, hp, Option.map_some]) hs

end Entity.Judged

/-- A pass over an entity of an available store succeeds.  The entity then has the properties of the
    outcome, and nothing else that is stored has changed but its version, which counts the results,
    and the history, which has one record more for each result, in the order of their names. -/
theorem MemoryStore.recompute_writes {s : MemoryStore} {tenant : String} {e : Entity}
    (hs : s.available = true) (he : s.get? tenant e.id = some e) (hn : e.NamesAgree)
    (settings : Settings) (now actor : String) (request : Request) :
    ∃ o s' version records, store.recompute settings now tenant e.id actor request s = (.ok o, s') ∧
      Wrote tenant e.id { e with properties := o.properties, version } records s s' ∧
      (e.version + o.results.length < Entity.versionCount →
        version = e.version + o.results.length) ∧
      (records.map fun r => (r.entity, r.property, r.status, r.evaluatedAt, r.error, r.actor)) =
        (o.results.map fun x => (e.id, x.name, x.status, x.evaluatedAt, x.error, actor)) ∧
      (o.results.map PropertyResult.name).Pairwise (· < ·) := by
  obtain ⟨ctx, hctx, hanswer⟩ := request.compute_answer he settings now
  have hnames := request.namesAgree_prepare hn
  have hjudged := Selection.judged_compute hnames request.scope now hctx
  have hproperties := hjudged.properties_written e.id actor fun name v p hv hp =>
    Selection.verdicts_respect hnames now request.scope ctx hv hp
  generalize ((Selection.ofEntity request.scope (request.prepare e)).compute now ctx
    ⟨(request.prepare e).properties, []⟩).inOrder = o at hanswer hjudged hproperties
  obtain ⟨hrun, htenants, havailable⟩ :=
    Lookup.run_memory hs (request.compute settings now tenant e.id).run
  rcases hload : (request.compute settings now tenant e.id).run.run store s with ⟨found, s₁⟩
  rw [hload] at hrun htenants havailable
  have hfound : found = .ok o := hrun.trans hanswer
  have hloaded : s₁.get? tenant e.id = some e := (get?_of_tenants htenants tenant e.id).trans he
  obtain ⟨s', hwrite, hwrote⟩ := writeAll_wrote havailable hloaded (hjudged.writable e.id actor)
    fun r hr => by
      obtain ⟨x, _, rfl⟩ := List.mem_map.1 hr
      rfl
  obtain ⟨version, hversion, hcount⟩ := Entity.exists_written_eq (hjudged.writable e.id actor)
  rw [hproperties] at hversion
  rw [PassOutcome.records, List.length_map] at hcount
  refine ⟨o, s', version, o.records e.id actor, ?_, ?_, hcount, List.map_map, hjudged.ascending⟩
  · unfold EntityStore.recompute
    rw [hload, hfound]
    dsimp only
    rw [hwrite]
    rfl
  · rw [← hversion]
    exact hwrote.of_tenants htenants

/-! ### A formula that cannot be read any more -/

/-- A property with a value whose formula has been spoilt, an inherited one with an override, and
    one on a cycle. -/
def spoilt : Entity :=
  [.computed {
      name := "kept", expression := "#title +", cached := some (.text "before"),
      cachedAt := some "then", status := .valid },
    .computed {
      name := "looped", expression := "#looped", status := .circular,
      error := some "circular reference: looped -> looped" },
    .inherited {
      name := "chosen", source := "nowhere", override := some (.text "own"),
      resolved := some (.text "own"), status := .valid },
    .literal { name := "title", value := .text "first" }].foldl Entity.withProperty
      { id := "entity", typePath := "entity" }

/-- The mark leads to one record, without a time, and value and time stay. -/
theorem spoilt_writes :
    ∃ o s' version records, MemoryStore.store.recompute {} "now" spoilt.tenant spoilt.id "user"
        (.marked ["kept", "looped"]) (MemoryStore.insert {} spoilt) = (.ok o, s') ∧
      MemoryStore.Wrote spoilt.tenant spoilt.id { spoilt with properties := o.properties, version }
        records (MemoryStore.insert {} spoilt) s' ∧
      version = 1 ∧
      (records.map fun r => (r.property, r.status, r.evaluatedAt, r.actor)) =
        [("kept", .error, none, "user")] ∧
      ((o.properties.get? "kept").bind Property.asComputed?).map (fun p =>
        (p.cached.bind Value.asText?, p.cachedAt)) = some (some "before", some "then") := by
  obtain ⟨o, s', version, records, hrun, hwrote, hversion, hrecords, _⟩ :=
    MemoryStore.recompute_writes rfl
      (show (MemoryStore.insert {} spoilt).get? spoilt.tenant spoilt.id = some spoilt by
        rw [MemoryStore.get?_insert, if_pos ⟨rfl, rfl⟩])
      (Entity.namesAgree_iff.2 (by decide +kernel)) {} "now" "user" (.marked ["kept", "looped"])
  have houtcome : ((MemoryStore.store.recompute {} "now" spoilt.tenant spoilt.id "user"
      (.marked ["kept", "looped"]) (MemoryStore.insert {} spoilt)).1.toOption.map fun o =>
        (o.results.map fun r => (r.name, r.status, r.evaluatedAt),
          ((o.properties.get? "kept").bind Property.asComputed?).map
            fun p => (p.cached.bind Value.asText?, p.cachedAt))) =
      some ([("kept", .error, none)], some (some "before", some "then")) := by
    decide +kernel
  rw [hrun] at houtcome
  obtain ⟨hresults, hkept⟩ := Prod.mk.inj (Option.some.inj houtcome)
  have hlength : o.results.length = 1 := by simpa using congrArg List.length hresults
  have hstart : spoilt.version = 0 := by decide +kernel
  rw [hlength, hstart] at hversion
  refine ⟨o, s', version, records, hrun, hwrote, hversion (by decide), ?_, hkept⟩
  have hparts := congrArg (List.map fun (_, property, status, time, _, actor) =>
    (property, status, time, actor)) hrecords
  have hnamed := congrArg (List.map fun (name, status, time) => (name, status, time, "user"))
    hresults
  rw [List.map_map, List.map_map] at hparts
  rw [List.map_map] at hnamed
  exact hparts.trans hnamed

end EntityFormulas
