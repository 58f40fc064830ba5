/-
  EntityFormulas/Proofs/Store/Replay.lean
  =======================================
  **What is stored is what was put there and the records since.**

  A record is written as a whole or not at all.  So an entity that is stored is
  the one that was last put into its place, by an operation or by the fixture,
  after the records that the history of its tenant has for it since then, one
  after another (`Follows`).  Its version counts them, and each of its derived
  properties has the state that the last record about it gave it.

  Operations on other entities and tenants, reads, refused records and periods
  in which the store is unavailable may come in between.
-/
import EntityFormulas.Proofs.Computation.WriteBack
import EntityFormulas.Proofs.Store.Operations

namespace EntityFormulas

/-! ### Records of an entity -/

/-- The records about an entity. -/
def StateRecord.about (id : String) (rs : List StateRecord) : List StateRecord :=
  rs.filter fun r => r.entity = id

/-- The property has the state that the record gives. -/
def Property.Shows (r : StateRecord) : Property → Prop
  | .computed p => p.status = r.status ∧ p.cached = r.value ∧ p.error = r.error
  | .inherited p => p.status = r.status ∧ p.resolved = r.value ∧ p.error = r.error
  | .literal _ | .measured _ => False

theorem Property.shows_of_withState {r : StateRecord} {p p' : Property}
    (h : p.withState r = some p') : p'.Shows r := by
  cases p with
  | literal p => exact nomatch h
  | measured p => exact nomatch h
  | inherited p =>
    cases h
    exact ⟨rfl, rfl, rfl⟩
  | computed p =>
    cases h
    exact ⟨rfl, rfl, rfl⟩

namespace Entity

variable {e : Entity} {rs rs' : List StateRecord}

theorem written_append (e : Entity) (rs rs' : List StateRecord) :
    e.written (rs ++ rs') = (e.written rs).written rs' := by
  induction rs generalizing e with
  | nil => rfl
  | cons r rest ih => exact ih _

/-- Records turn no property into a derived one. -/
theorem status?_isSome_of_written (hw : e.Writable rs) {name : String} {p : Property}
    (hp : (e.written rs).properties.get? name = some p) (hd : p.status?.isSome) :
    ∃ q, e.properties.get? name = some q ∧ q.status?.isSome := by
  induction rs generalizing e with
  | nil => exact ⟨p, hp, hd⟩
  | cons r rest ih =>
    obtain ⟨e', he', hrest, hwritten⟩ := hw.exists_next
    rw [hwritten] at hp
    obtain ⟨q, hq, hqd⟩ := ih hrest hp
    rw [get?_withState he'] at hq
    split at hq
    · rename_i hname
      obtain ⟨x, hx, hxd⟩ := hw r List.mem_cons_self
      rw [hname] at hx
      exact ⟨x, hx, hxd⟩
    · exact ⟨q, hq, hqd⟩

theorem Writable.append (hw : e.Writable rs) (hw' : (e.written rs).Writable rs') :
    e.Writable (rs ++ rs') := by
  intro r hr
  rcases List.mem_append.1 hr with hr | hr
  · exact hw r hr
  · obtain ⟨p, hp, hd⟩ := hw' r hr
    exact status?_isSome_of_written hw hp hd

theorem Writable.of_append (hw : e.Writable (rs ++ rs')) :
    e.Writable rs ∧ (e.written rs).Writable rs' := by
  induction rs generalizing e with
  | nil => exact ⟨fun r hr => absurd hr List.not_mem_nil, hw⟩
  | cons r rest ih =>
    obtain ⟨e', he', hrest, -⟩ := hw.exists_next
    rw [written_cons he']
    exact ⟨fun x hx => hw x (List.mem_append_left rs' hx), (ih hrest).2⟩

/-- The last record about a property gives it its state. -/
theorem shows_written (hw : e.Writable rs) {name : String} {r : StateRecord}
    (hlast : (rs.filter fun r => r.property = name).getLast? = some r) :
    ∃ p, (e.written rs).properties.get? name = some p ∧ p.Shows r := by
  obtain ⟨earlier, hearlier⟩ := List.getLast?_eq_some_iff.1 hlast
  obtain ⟨before, others, rfl, -, hothers⟩ := List.filter_eq_append_iff.1 hearlier
  obtain ⟨between, later, rfl, hbetween, hname, hlater⟩ := List.filter_eq_cons_iff.1 hothers
  have hname : r.property = name := by simpa using hname
  have hafter (r' : StateRecord) (hr' : r' ∈ later) : r'.property ≠ name := by
    simpa using List.filter_eq_nil_iff.1 hlater r' hr'
  -- The records before it change what is written over, and those after it are about others.
  rw [← List.append_assoc] at hw ⊢
  obtain ⟨hbefore, hrest⟩ := hw.of_append
  obtain ⟨e', he', hlate, hwritten⟩ := hrest.exists_next
  obtain ⟨p, hp, hd⟩ := hrest r List.mem_cons_self
  rw [hname] at hp
  rw [written_append, hwritten, get?_written_of_forall_ne hlate hafter, get?_withState he',
    if_pos hname, hp]
  cases p with
  | literal p => exact nomatch hd
  | measured p => exact nomatch hd
  | inherited p => exact ⟨_, rfl, Property.shows_of_withState (p := .inherited p) rfl⟩
  | computed p => exact ⟨_, rfl, Property.shows_of_withState (p := .computed p) rfl⟩

end Entity

/-! ### From one state of a store to a later one -/

/-- Whether the operation puts an entity into that place. -/
def StoreOperation.puts (tenant id : String) : StoreOperation → Bool
  | insert e => e.tenant = tenant ∧ e.id = id
  | _ => false

namespace MemoryStore

/-- The history of a tenant has grown by some records, and what is stored in a place is what was
    stored there before, after the records about it. -/
structure Follows (tenant id : String) (rs : List StateRecord) (s s' : MemoryStore) : Prop where
  history : s'.history tenant = s.history tenant ++ rs
  entity : s'.get? tenant id = (s.get? tenant id).map (·.written (StateRecord.about id rs))
  writable : ∀ e, s.get? tenant id = some e → e.Writable (StateRecord.about id rs)

variable {s s' s'' : MemoryStore} {tenant id : String} {rs rs' : List StateRecord}

theorem follows_of_eq (hhistory : s'.history tenant = s.history tenant)
    (hentity : s'.get? tenant id = s.get? tenant id) : Follows tenant id [] s s' := by
  refine ⟨hhistory.trans (List.append_nil _).symm, ?_, fun e _ r hr => absurd hr List.not_mem_nil⟩
  rw [hentity]
  exact (Option.map_id_apply ..).symm

theorem Follows.of_tenants (h : s'.tenants = s.tenants) : Follows tenant id [] s s' := by
  refine follows_of_eq ?_ (get?_of_tenants h tenant id)
  unfold MemoryStore.history table
  rw [h]

theorem Follows.trans (h : Follows tenant id rs s s') (h' : Follows tenant id rs' s' s'') :
    Follows tenant id (rs ++ rs') s s'' := by
  have hfilter : StateRecord.about id (rs ++ rs') =
      StateRecord.about id rs ++ StateRecord.about id rs' := List.filter_append ..
  refine ⟨by rw [h'.history, h.history, List.append_assoc], ?_, fun e he => ?_⟩
  · rw [h'.entity, h.entity, Option.map_map, hfilter]
    congr 1
    funext e
    exact (e.written_append _ _).symm
  · rw [hfilter]
    refine (h.writable e he).append (h'.writable _ ?_)
    rw [h.entity, he]
    rfl

/-- A record that is written is one of its entity, whichever place one looks at. -/
theorem Written.exists_follows {tenant' : String} {r : StateRecord} (h : Written tenant' r s s') :
    ∃ rs, Follows tenant id rs s s' := by
  obtain ⟨e, p, p', he, hp, hp', hwrote⟩ := h.entity
  have hstate : e.withState r = .ok { e with
      properties := e.properties.insert r.property p', version := e.nextVersion } := by
    unfold Entity.withState
    rw [hp]
    dsimp only
    rw [hp']
  have hderived : p.status?.isSome := by
    cases p with
    | literal p => exact nomatch hp'
    | measured p => exact nomatch hp'
    | inherited p => rfl
    | computed p => rfl
  -- The history of the tenant has the record, even if it is about another entity.
  by_cases htenant : tenant = tenant'
  · subst htenant
    refine ⟨[r], hwrote.history, ?_, fun x hx => ?_⟩
    · by_cases hid : r.entity = id
      · subst hid
        rw [hwrote.entity, he, Option.map_some, StateRecord.about,
          List.filter_cons_of_pos (by simp), List.filter_nil, Entity.written_cons hstate]
        rfl
      · rw [hwrote.others tenant id fun heq => hid (congrArg Prod.snd heq).symm, StateRecord.about,
          List.filter_cons_of_neg (by simpa using hid)]
        exact (Option.map_id_apply ..).symm
    · intro r' hr'
      obtain ⟨hmem, hid⟩ := List.mem_filter.1 hr'
      rw [List.mem_singleton.1 hmem] at hid ⊢
      have hid : r.entity = id := by simpa using hid
      rw [hid, hx] at he
      cases he
      exact ⟨p, hp, hderived⟩
  · exact ⟨[], follows_of_eq (hwrote.histories tenant htenant)
      (hwrote.others tenant id fun heq => htenant (congrArg Prod.fst heq))⟩

/-- An operation that puts no entity into a place lets what is stored there follow. -/
theorem serve_follows {op : StoreOperation} (hop : op.puts tenant id = false) (s : MemoryStore) :
    ∃ rs, Follows tenant id rs s (op.serve s).2 := by
  cases op with
  | insert e =>
    have hne : ¬(e.tenant = tenant ∧ e.id = id) := by simpa [StoreOperation.puts] using hop
    refine ⟨[], follows_of_eq ?_ ?_⟩
    · show (s.insert e).history tenant = _
      have htables : (s.insert e).tenants =
          s.tenants.insert e.tenant ((s.table e.tenant).insert e) := rfl
      unfold MemoryStore.history
      rw [table_of_insert htables]
      split
      · rename_i htenant
        rw [← htenant]
        rfl
      · rfl
    · show (s.insert e).get? tenant id = _
      rw [get?_insert, if_neg hne]
  | relate tenant' source type target =>
    refine ⟨[], follows_of_eq ?_ ?_⟩
    · show (s.relate tenant' source type target).history tenant = _
      have htables : (s.relate tenant' source type target).tenants =
          s.tenants.insert tenant' ((s.table tenant').relate source type target) := rfl
      unfold MemoryStore.history
      rw [table_of_insert htables]
      split
      · rename_i htenant
        rw [← htenant]
        rfl
      · rfl
    · show (s.relate tenant' source type target).get? tenant id = _
      rw [get?_of_insert (s := s) rfl]
      split
      · rename_i htenant
        rw [← htenant]
        rfl
      · rfl
  | get tenant' id' => exact ⟨[], .of_tenants rfl⟩
  | history tenant' => exact ⟨[], .of_tenants rfl⟩
  | fetch tenant' ids => exact ⟨[], .of_tenants (fetch_found s tenant' ids).1⟩
  | relationships tenant' id' => exact ⟨[], .of_tenants (relationships_tenants s tenant' id')⟩
  | persist tenant' r =>
    show ∃ rs, Follows tenant id rs s (s.persist tenant' r).2
    rcases s.record_cases tenant' r with ⟨err, -, heq⟩ | ⟨s', heq, hwritten⟩
    · rw [heq]
      exact ⟨[], .of_tenants rfl⟩
    · rw [heq]
      exact hwritten.exists_follows
  | setAvailable available => exact ⟨[], .of_tenants rfl⟩
  | setFetchDelay delay => exact ⟨[], .of_tenants rfl⟩
  | resetTraffic => exact ⟨[], .of_tenants rfl⟩

theorem after_follows {ops : List StoreOperation} (hops : ∀ op ∈ ops, op.puts tenant id = false)
    (s : MemoryStore) : ∃ rs, Follows tenant id rs s (s.after ops) := by
  induction ops generalizing s with
  | nil => exact ⟨[], .of_tenants rfl⟩
  | cons op rest ih =>
    obtain ⟨rs, hfirst⟩ := serve_follows (hops op List.mem_cons_self) s
    obtain ⟨rs', hrest⟩ := ih (fun op h => hops op (List.mem_cons_of_mem _ h)) (op.serve s).2
    exact ⟨rs ++ rs', hfirst.trans hrest⟩

/-! ### From the start -/

/-- The operations that put an entity into a place end with the one that put this one there; without
    any it is the one of the fixture. -/
def PutThere (f : Fixture) (tenant id : String) (e : Entity) (ops : List StoreOperation) : Prop :=
  (ops = [] ∧ f.store.get? tenant id = some e) ∨
    ∃ earlier, ops = earlier ++ [.insert e] ∧ e.tenant = tenant ∧ e.id = id

theorem after_append (s : MemoryStore) (ops ops' : List StoreOperation) :
    s.after (ops ++ ops') = (s.after ops).after ops' := List.foldl_append

theorem PutThere.get? {f : Fixture} {e : Entity} {ops : List StoreOperation}
    (h : PutThere f tenant id e ops) : (f.store.after ops).get? tenant id = some e := by
  rcases h with ⟨rfl, he⟩ | ⟨earlier, rfl, htenant, hid⟩
  · exact he
  · rw [after_append]
    show ((f.store.after earlier).insert e).get? tenant id = some e
    rw [get?_insert, if_pos ⟨htenant, hid⟩]

/-- The last operation that puts an entity into a place. -/
theorem exists_last_put (tenant id : String) (ops : List StoreOperation) :
    (∀ op ∈ ops, op.puts tenant id = false) ∨ ∃ earlier e since,
      ops = earlier ++ .insert e :: since ∧ (e.tenant = tenant ∧ e.id = id) ∧
        ∀ op ∈ since, op.puts tenant id = false := by
  induction ops with
  | nil => exact .inl fun op h => absurd h List.not_mem_nil
  | cons op rest ih =>
    rcases ih with hrest | ⟨earlier, e, since, rfl, he, hsince⟩
    · cases hop : op.puts tenant id with
      | false => exact .inl (List.forall_mem_cons.2 ⟨hop, hrest⟩)
      | true =>
        cases op with
        | insert e =>
          have he : e.tenant = tenant ∧ e.id = id := by simpa [StoreOperation.puts] using hop
          exact .inr ⟨[], e, rest, rfl, he, hrest⟩
        | _ => exact nomatch hop
    · exact .inr ⟨op :: earlier, e, since, rfl, he, hsince⟩

/-- Whatever is stored after operations was put there and has followed its records since. -/
theorem exists_put {f : Fixture} {ops : List StoreOperation} {e : Entity}
    (he : (f.store.after ops).get? tenant id = some e) :
    ∃ before since e₀ rs, ops = before ++ since ∧ PutThere f tenant id e₀ before ∧
      (∀ op ∈ since, op.puts tenant id = false) ∧
      Follows tenant id rs (f.store.after before) (f.store.after ops) := by
  rcases exists_last_put tenant id ops with hops | ⟨earlier, e₀, since, rfl, he₀, hsince⟩
  · obtain ⟨rs, hfollows⟩ := after_follows hops f.store
    obtain ⟨e₀, he₀, -⟩ := Option.map_eq_some_iff.1 (hfollows.entity.symm.trans he)
    exact ⟨[], ops, e₀, rs, rfl, .inl ⟨rfl, he₀⟩, hops, hfollows⟩
  · obtain ⟨rs, hfollows⟩ := after_follows hsince (f.store.after (earlier ++ [.insert e₀]))
    rw [← after_append, List.append_assoc] at hfollows
    exact ⟨earlier ++ [.insert e₀], since, e₀, rs, List.append_cons ..,
      .inr ⟨earlier, rfl, he₀⟩, hsince, hfollows⟩

/-- A record is either refused, for one of the reasons to refuse it and without any effect, or
    written.  So the version of a stored entity is the one with which it was put there and the
    number of its records since, and each derived property has the state of the last record about
    it, and without one the state with which it was put there. -/
theorem records_replay :
    (∀ (s : MemoryStore) (tenant : String) (r : StateRecord),
      (∀ tenant id e, s.get? tenant id = some e → e.version < Entity.versionCount - 1) →
      (∃ err, s.Refused tenant r err ∧ s.persist tenant r = (.error err, s)) ∨
        (∀ err, ¬ s.Refused tenant r err) ∧ ∃ s' e e',
          s.persist tenant r = (.ok (), s') ∧ Written tenant r s s' ∧
          s.get? tenant r.entity = some e ∧ s'.get? tenant r.entity = some e' ∧
          e'.version = e.version + 1) ∧
    ∀ (f : Fixture) (ops : List StoreOperation) (tenant id : String) (e : Entity),
      (f.store.after ops).get? tenant id = some e →
      ∃ before since e₀ rs, ops = before ++ since ∧ PutThere f tenant id e₀ before ∧
        (∀ op ∈ since, op.puts tenant id = false) ∧
        (f.store.after ops).history tenant = (f.store.after before).history tenant ++ rs ∧
        (e₀.version + (StateRecord.about id rs).length < Entity.versionCount →
          e.version = e₀.version + (StateRecord.about id rs).length) ∧
        ∀ name p, e.property? name = some p →
          match ((StateRecord.about id rs).filter fun r => r.property = name).getLast? with
          | some r => p.Shows r
          | none => e₀.property? name = some p := by
  refine ⟨fun s tenant r hversions => ?_, fun f ops tenant id e he => ?_⟩
  · rcases s.record_cases tenant r with hrefused | ⟨s', hpersist, hwritten⟩
    · exact .inl hrefused
    · obtain ⟨e, p, p', he, hp, hp', hwrote⟩ := hwritten.entity
      refine .inr ⟨hwritten.not_refused, s', e, _, hpersist, hwritten, he, hwrote.entity, ?_⟩
      have hlt := hversions tenant r.entity e he
      exact Nat.mod_eq_of_lt (by omega)
  · obtain ⟨before, since, e₀, rs, hops, hput, hsince, hfollows⟩ := exists_put he
    have he₀ := hput.get?
    have hw := hfollows.writable e₀ he₀
    have hentity : e = e₀.written (StateRecord.about id rs) := by
      have heq := hfollows.entity
      rw [he, he₀] at heq
      exact Option.some.inj heq
    refine ⟨before, since, e₀, rs, hops, hput, hsince, hfollows.history, fun hlt => ?_, ?_⟩
    · obtain ⟨version, heq, hcount⟩ := Entity.exists_written_eq hw
      rw [hentity, heq]
      exact hcount hlt
    · intro name p hp
      replace hp : e.properties.get? name = some p := hp
      rw [hentity] at hp
      split
      · rename_i r hlast
        obtain ⟨q, hq, hshows⟩ := Entity.shows_written hw hlast
        rw [hp] at hq
        cases hq
        exact hshows
      · rename_i hnone
        rw [Entity.get?_written_of_forall_ne hw fun r hr hname => ?_] at hp
        · exact hp
        · have hnil := List.getLast?_eq_none_iff.1 hnone
          exact absurd hname (by simpa using List.filter_eq_nil_iff.1 hnil r hr)

/-! ### An entity that is put back -/

/-- An entity with a computed property. -/
def shelved (version : Nat) : Entity :=
  Entity.withProperty { id := "item", tenant := "shop", typePath := "thing", version }
    (.computed { name := "total", expression := "1" })

/-- A record about the property. -/
def judgement (status : Status) : StateRecord where
  entity := "item"
  property := "total"
  status
  actor := "clerk"

/-- The entity is put back with another version, and one record meets an unavailable store. -/
def shelving : List StoreOperation := [
  .insert (shelved 5), .persist "shop" (judgement .valid), .insert (shelved 3),
  .setAvailable false, .persist "shop" (judgement .stale), .setAvailable true,
  .persist "shop" (judgement .error)]

/-- Another record is written, and the version before it counts from the entity that was put there
    last. -/
theorem shelving_replays :
    (∃ s' e e', (({} : Fixture).store.after shelving).persist "shop" (judgement .valid) =
        (.ok (), s') ∧ s'.get? "shop" "item" = some e' ∧
      (({} : Fixture).store.after shelving).get? "shop" "item" = some e ∧ e.version = 4 ∧
      e'.version = 5) ∧
    ∃ e e₀ rs, (({} : Fixture).store.after shelving).get? "shop" "item" = some e ∧
      .insert e₀ ∈ shelving ∧ e.version = e₀.version + (StateRecord.about "item" rs).length ∧
      e.version = 4 := by
  have hversion : ((({} : Fixture).store.after shelving).get? "shop" "item").map Entity.version =
      some 4 := by decide +kernel
  obtain ⟨e, he, hfour⟩ := Option.map_eq_some_iff.1 hversion
  constructor
  · -- There is one entity, so its version bounds them all.
    have hall : ((({} : Fixture).store.after shelving).tenants.values.all fun t =>
        t.entities.values.all fun e => e.version < Entity.versionCount - 1) = true := by
      decide +kernel
    have hversions (tenant id : String) (e : Entity)
        (he : (({} : Fixture).store.after shelving).get? tenant id = some e) :
        e.version < Entity.versionCount - 1 := by
      cases ht : (({} : Fixture).store.after shelving).tenants.get? tenant with
      | none => exact nomatch (get?_of_no_tenant ht id).symm.trans he
      | some t =>
        have ht' := List.all_eq_true.1 hall t (Dict.mem_values_iff.2 ⟨tenant, ht⟩)
        have he' := (get?_of_tenant ht id).symm.trans he
        exact of_decide_eq_true (List.all_eq_true.1 ht' e (Dict.mem_values_iff.2 ⟨id, he'⟩))
    have haccepts : ((({} : Fixture).store.after shelving).persist "shop" (judgement .valid)).1 =
        .ok () := by rfl
    rcases records_replay.1 _ "shop" (judgement .valid) hversions with
      ⟨err, -, hpersist⟩ | ⟨-, s', x, x', hpersist, -, hx, hx', hcount⟩
    · rw [hpersist] at haccepts
      exact nomatch haccepts
    · refine ⟨s', x, x', hpersist, hx', hx, ?_, ?_⟩ <;>
      · rw [show e = x from Option.some.inj (he.symm.trans hx)] at hfour
        omega
  · obtain ⟨before, since, e₀, rs, hops, hput, hsince, hhistory, hcount, -⟩ :=
      records_replay.2 {} shelving "shop" "item" e he
    have hmem : .insert e₀ ∈ shelving := by
      rcases hput with ⟨-, hnone⟩ | ⟨earlier, rfl, -⟩
      · exact nomatch hnone
      · rw [hops]
        simp
    have hfive : e₀.version ≤ 5 := by
      have hversions : ∀ op ∈ shelving, ∀ x, op = .insert x → x.version ≤ 5 := by
        intro op hop x hx
        subst hx
        simp only [shelving, List.mem_cons, StoreOperation.insert.injEq, reduceCtorEq, or_false,
          false_or, List.not_mem_nil] at hop
        rcases hop with rfl | rfl
        · decide
        · decide
      exact hversions _ hmem e₀ rfl
    have hlength : rs.length ≤ 2 := by
      have htwo : ((({} : Fixture).store.after shelving).history "shop").length = 2 := by
        decide +kernel
      rw [hhistory, List.length_append] at htwo
      omega
    have habout : (StateRecord.about "item" rs).length ≤ rs.length := List.length_filter_le ..
    have hlt : e₀.version + (StateRecord.about "item" rs).length < Entity.versionCount := by
      unfold Entity.versionCount
      omega
    exact ⟨e, e₀, rs, he, hmem, hcount hlt, hfour⟩

end MemoryStore

end EntityFormulas
