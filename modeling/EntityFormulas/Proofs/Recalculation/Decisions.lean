/-
  EntityFormulas/Proofs/Recalculation/Decisions.lean
  ==================================================
  **What tasks decide over what is stored.**

  What a store in memory answers is given by its tables, so what a task decides
  is given by the entity that is stored: nothing is done about a property that
  does not exist or lies on a cycle; otherwise a notification marks its property
  or leads to a pass, as the mode says, and a drain leads to a pass.  Either way
  the entity can take the records, and after those of a pass it has the
  properties that the pass has come to.
-/
import EntityFormulas.Proofs.Computation.Succession
import EntityFormulas.Proofs.Recalculation.Exclusion

namespace EntityFormulas

/-! ### Stored entities -/

theorem Entity.namesAgree_written {e : Entity} {rs : List StateRecord} (hn : e.NamesAgree)
    (hw : e.Writable rs) : (e.written rs).NamesAgree := by
  induction rs generalizing e with
  | nil => exact hn
  | cons r rest ih =>
    obtain ⟨e', he', hrest, hwritten⟩ := hw.exists_next
    rw [hwritten]
    exact ih (hn.withState he') hrest

/-- An entity that a store has under its own key and whose properties stand under their names, next
    to entities under their own ids. -/
structure MemoryStore.Stores (s : MemoryStore) (e : Entity) : Prop where
  entity : s.get? e.tenant e.id = some e
  names : e.NamesAgree
  keyed : (s.table e.tenant).Keyed

namespace MemoryStore.Stores

variable {s s' : MemoryStore} {e : Entity}

theorem of_tenants (h : s.Stores e) (ht : s'.tenants = s.tenants) : s'.Stores e := by
  have htable : s'.table = s.table := by
    unfold table
    rw [ht]
  obtain ⟨hentity, hn, hk⟩ := h
  unfold get? at hentity
  rw [← htable] at hentity hk
  exact ⟨hentity, hn, hk⟩

theorem insert (hn : e.NamesAgree) (hk : (s.table e.tenant).Keyed) : (s.insert e).Stores e := by
  refine ⟨?_, hn, fun id x hx => ?_⟩
  · rw [get?_insert, if_pos ⟨rfl, rfl⟩]
  · rw [show ((s.insert e).table e.tenant).entities.get? id = _ from get?_insert s e e.tenant id]
      at hx
    split at hx
    · rename_i hid
      cases hx
      exact hid.2
    · exact hk id x hx

theorem get?_of_key (h : s.Stores e) {tenant id : String} (hkey : e.key = ⟨tenant, id⟩) :
    s.get? tenant id = some e := by
  cases hkey
  exact h.entity

/-- Records leave an entity under its key. -/
theorem wrote (h : s.Stores e) {rs : List StateRecord} (hw : e.Writable rs)
    (hwrote : Wrote e.tenant e.id (e.written rs) rs s s') :
    s'.Stores (e.written rs) ∧ (e.written rs).key = e.key ∧
      (s.table e.tenant).SameAround e.id (s'.table e.tenant) := by
  obtain ⟨version, heq, -⟩ := Entity.exists_written_eq hw
  have hid : (e.written rs).id = e.id := by rw [heq]
  have htenant : (e.written rs).tenant = e.tenant := by rw [heq]
  have haround : (s.table e.tenant).SameAround e.id (s'.table e.tenant) :=
    ⟨fun id hid => (hwrote.others e.tenant id fun h => hid (Prod.mk.inj h).2).symm,
      (hwrote.relationships e.tenant).symm⟩
  refine ⟨⟨?_, Entity.namesAgree_written h.names hw, ?_⟩, ?_, haround⟩
  · rw [hid, htenant]
    exact hwrote.entity
  · rw [htenant]
    intro id x hx
    by_cases hown : id = e.id
    · rw [hown] at hx ⊢
      rw [show (s'.table e.tenant).entities.get? e.id = some (e.written rs) from hwrote.entity] at hx
      cases hx
      exact hid
    · exact h.keyed id x ((haround.entities id hown).trans hx)
  · unfold Entity.key
    rw [hid, htenant]

end MemoryStore.Stores

namespace Entity

/-- A pass makes of the stored properties those of its outcome. -/
theorem PassesTo.written {settings : Settings} {t : TenantTable} {e : Entity} {names : List String}
    {o : PassOutcome} (h : (e.markStale names).PassesTo settings t o) (hn : e.NamesAgree)
    (entity actor : String) : e.Writable (o.records entity actor) ∧
      ∃ version, e.written (o.records entity actor) =
        { e with properties := o.properties, version } := by
  obtain ⟨now, ctx, hgathered, rfl⟩ := h
  have hnames : ((Request.marked names).prepare e).NamesAgree := hn.markStale names
  have hjudged := Selection.judged_compute hnames (Request.marked names).scope now
    hgathered.grows.properties
  have hw := hjudged.writable entity actor
  obtain ⟨version, heq, -⟩ := exists_written_eq hw
  refine ⟨hw, version, heq.trans ?_⟩
  rw [hjudged.properties_written entity actor fun name v p hv hp =>
    Selection.verdicts_respect hnames now _ ctx hv hp]
  rfl

end Entity

/-! ### Decisions -/

namespace Task

/-- What the task decides if it reads what is stored. -/
def Decides (settings : Settings) (s : MemoryStore) (t : Task) (plan : Plan) : Prop :=
  ∃ now, (t.plan settings now).answer s.table = .ok plan

variable {settings : Settings} {s : MemoryStore} {e : Entity} {t : Task} {plan : Plan}

theorem plan_answer (hs : s.Stores e) (hkey : t.key = e.key) (now : String) :
    (t.plan settings now).answer s.table = (t.decide settings now e).answer s.table := by
  have hfetch : (s.table t.key.tenant).fetch [t.key.entity] = [e] := by
    rw [hkey]
    exact List.filterMap_cons_some hs.entity
  unfold Fetch.answer
  rw [t.plan_run, Lookup.answer, hfetch]
  dsimp only [Except.bind]
  rw [StoreError.pickEntity_single (by rw [hkey]; rfl)]

/-- A task that makes a pass reads what the pass needs. -/
theorem pass_answer (settings : Settings) (hs : s.Stores e) (names : List String) (now actor : String) :
    ∃ o, (e.markStale names).PassesTo settings (s.table e.tenant) o ∧
      Fetch.answer s.table (do
        let o ← ExceptT.lift ((e.markStale names).recompute settings now .stale)
        return Plan.pass o actor) = .ok (Plan.pass o actor) := by
  refine ⟨_, (e.markStale names).recompute_passesTo hs.keyed settings now, ?_⟩
  have hlift : Fetch.answer s.table
      (ExceptT.lift ((e.markStale names).recompute settings now .stale)) = .ok
        (((e.markStale names).recompute settings now .stale).answer s.table) :=
    Lookup.answer_bind s.table _ fun o => .done (Except.ok o)
  rw [Fetch.answer_bind_ok hlift]
  rfl

variable (hs : s.Stores e) (hkey : t.key = e.key) (h : t.Decides settings s plan)
include hs hkey h

theorem Decides.drain {names : List String} {actor : String} {batch : Nat}
    (hj : t.job = .drain names actor batch) : ∃ o, plan = .pass o actor ∧
      (e.markStale names).PassesTo settings (s.table e.tenant) o := by
  obtain ⟨now, h⟩ := h
  obtain ⟨o, ho, hanswer⟩ := pass_answer settings hs names now actor
  rw [plan_answer hs hkey, decide, hj] at h
  cases h.symm.trans hanswer
  exact ⟨o, rfl, ho⟩

theorem Decides.notification {name : String} (hj : t.job = .notification name) :
    (e.Inert name ∧ (∀ entity, plan.records entity = []) ∧ plan.outcome? = none ∧
        ∀ mark, plan ≠ .enqueue mark) ∨
      ∃ p, e.properties.get? name = some p ∧ p.status? ≠ some .circular ∧
        (settings.recalc.mode = .batched → plan = .enqueue (if p.goesStale then
          some (.statusOnly e.id name .stale p.current settings.recalc.systemActor) else none)) ∧
        (settings.recalc.mode = .eager → ∃ o, plan = .pass o settings.recalc.systemActor ∧
          (e.markStale [name]).PassesTo settings (s.table e.tenant) o) := by
  obtain ⟨now, h⟩ := h
  rw [plan_answer hs hkey, decide, hj] at h
  dsimp only at h
  cases hp : e.property? name with
  | none =>
    rw [hp] at h
    cases h
    refine .inl ⟨fun p hget => ?_, fun _ => rfl, rfl, nofun⟩
    rw [show e.properties.get? name = none from hp] at hget
    cases hget
  | some p =>
    rw [hp] at h
    dsimp only at h
    split at h
    · rename_i hcircular
      cases h
      refine .inl ⟨fun q hget => ?_, fun _ => rfl, rfl, nofun⟩
      rw [show e.properties.get? name = some p from hp] at hget
      cases hget
      exact hcircular
    · rename_i hne
      refine .inr ⟨p, hp, hne, ?_⟩
      cases hmode : settings.recalc.mode with
      | batched =>
        rw [hmode] at h
        cases h
        refine ⟨fun _ => ?_, nofun⟩
        rw [hkey]
        rfl
      | eager =>
        rw [hmode] at h
        obtain ⟨o, ho, hanswer⟩ := pass_answer settings hs [name] now settings.recalc.systemActor
        cases h.symm.trans hanswer
        exact ⟨nofun, fun _ => ⟨o, rfl, ho⟩⟩

/-- The entity can take what the task is going to write. -/
theorem Decides.writable : e.Writable (plan.records t.key.entity) := by
  cases hj : t.job with
  | drain names actor batch =>
    obtain ⟨o, rfl, ho⟩ := h.drain hs hkey hj
    exact (ho.written hs.names _ _).1
  | notification name =>
    rcases h.notification hs hkey hj with ⟨-, hnone, -⟩ | ⟨p, hp, -, hbatched, heager⟩
    · rw [hnone]
      exact fun r hr => absurd hr List.not_mem_nil
    · cases hmode : settings.recalc.mode with
      | batched =>
        obtain rfl := hbatched hmode
        intro r hr
        have hr := Option.mem_toList.1 hr
        split at hr
        · rename_i hstale
          cases hr
          refine ⟨p, hp, ?_⟩
          unfold Property.goesStale at hstale
          cases hstatus : p.status? with
          | none =>
            rw [hstatus] at hstale
            cases hstale
          | some _ => rfl
        · cases hr
      | eager =>
        obtain ⟨o, rfl, ho⟩ := heager hmode
        exact (ho.written hs.names _ _).1

end Task

end EntityFormulas
