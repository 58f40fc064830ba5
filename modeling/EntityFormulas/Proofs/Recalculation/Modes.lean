/-
  EntityFormulas/Proofs/Recalculation/Modes.lean
  ==============================================
  **Eager and batched mode.**

  The same client talks to two handlers over the same store.  One is in eager
  mode and makes a pass for each notification.  The other one is in batched mode,
  and the client flushes it in the end.  Both leave every property of the entity
  in the same state, as far as the passes are in order and gathering tracks what
  they read (`InBothModes.modes_agree`).

  The handlers differ in what they store on the way, in their queues and in how
  often they evaluate a formula.  None of that is looked at here: what a run comes
  to are passes (`Turns.lean`), and they are compared in `Postponement.lean`.
-/
import EntityFormulas.Proofs.Recalculation.Quiescence
import EntityFormulas.Proofs.Recalculation.Turns

namespace EntityFormulas

/-- The engine with its settings in that mode. -/
def Engine.inMode {σ : Type} (mode : RecalcMode) (engine : Engine σ) : Engine σ :=
  { engine with
    settings := { engine.settings with recalc := { engine.settings.recalc with mode } } }

namespace Handler

/-- From the same store on, a client notifies a handler in eager mode, which leads to these passes,
    and another one in batched mode, and flushes it. -/
structure InBothModes (engine : Engine MemoryStore) (s : MemoryStore) (key : EntityKey)
    (ns : List String) (ps : List NotifiedPass) (h h₁ h' : Handler MemoryStore) : Prop where
  eager : Handles (engine.inMode .eager) key (start (engine.inMode .eager).settings s) ns ps h
  batched : ∃ ps', Handles (engine.inMode .batched) key (start (engine.inMode .batched).settings s)
    ns ps' h₁
  flushed : ∃ actor, h₁.Flushes (engine.inMode .batched) actor h'

/-- Gathering tracks what the formulas read that a flush evaluates for that entity. -/
def FlushTracks (settings : Settings) (key : EntityKey) (h h' : Handler MemoryStore) : Prop :=
  ∀ entry e e', h.queue.get? key = some entry → h.store.get? key.tenant key.entity = some e →
    h'.store.get? key.tenant key.entity = some e' →
    Scope.stale.Tracks settings (h.store.table key.tenant) (e.markStale entry.names) e'.properties

theorem start_store {σ : Type} (settings : Settings) (s : σ) : (start settings s).store = s := by
  unfold start
  split <;> rfl

theorem start_queued {σ : Type} (settings : Settings) (s : σ) (key : EntityKey) :
    (start settings s).core.queued key = [] := by
  unfold start
  split <;> rfl

namespace InBothModes

variable {engine : Engine MemoryStore} {s : MemoryStore} {e : Entity} {ns : List String}
  {ps : List NotifiedPass} {h h₁ h' : Handler MemoryStore}
  (hb : InBothModes engine s e.key ns ps h h₁ h') (hengine : engine.store = MemoryStore.store)
  (ha : s.available = true) (hs : s.Stores e)
include hb hengine ha hs

theorem eagerly : ∃ e₁, h.store.Stores e₁ ∧ e₁.key = e.key ∧
    Eagerly (engine.inMode .eager).settings (s.table e.tenant) e ns ps e₁ := by
  have hstore := start_store (engine.inMode .eager).settings s
  have hmemory : (engine.inMode .eager).store = MemoryStore.store := hengine
  refine hb.eager.eagerly hmemory rfl (rests_start _ ha _) ?_ rfl ?_
  · rw [hstore]
    exact hs
  · rw [hstore]
    exact .refl ..

/-- Before it is flushed, the entity has the marks of what is queued, and that is what it has been
    notified of and is not inert. -/
theorem queues : h₁.Rests e.key ∧ ∃ m, h₁.store.Stores m ∧ m.key = e.key ∧
    (s.table e.tenant).SameAround e.id (h₁.store.table e.tenant) ∧
    (e.markStale ns).Like (m.markStale (h₁.core.queued e.key)) ∧
    ∀ name, name ∈ h₁.core.queued e.key ↔ name ∈ ns ∧ ¬ e.Inert name := by
  have hstore := start_store (engine.inMode .batched).settings s
  have hmemory : (engine.inMode .batched).store = MemoryStore.store := hengine
  obtain ⟨ps', hh⟩ := hb.batched
  have hqueues := hh.queues hmemory rfl (rests_start _ ha _) (by rw [hstore]; exact hs) rfl
  rw [hstore, start_queued, List.append_nil] at hqueues
  simpa only [List.not_mem_nil, false_or] using hqueues

/-- With nothing queued there was nothing to do. -/
theorem unqueued (hnone : h₁.queue.get? e.key = none) : ps = [] ∧
    ∃ m, h₁.store.get? e.tenant e.id = some m ∧ e.Like m := by
  obtain ⟨_, -, -, heagerly⟩ := hb.eagerly hengine ha hs
  obtain ⟨-, m, hsm, hkey, -, hlike, hqueued⟩ := hb.queues hengine ha hs
  have hempty : h₁.core.queued e.key = [] := by
    show ((h₁.queue.get? e.key).map QueueEntry.names).getD [] = []
    rw [hnone]
    rfl
  rw [hempty] at hlike hqueued
  have hinert : ∀ n ∈ ns, e.Inert n := by
    intro n hn
    by_contra hno
    exact List.not_mem_nil ((hqueued n).2 ⟨hn, hno⟩)
  have hunmarked : e.markStale ns = e.markStale [] := Entity.markStale_congr fun name hno => by
    simp only [List.not_mem_nil, iff_false]
    exact fun hn => hno (hinert name hn)
  rw [hunmarked, show e.markStale [] = e from rfl, show m.markStale [] = m from rfl] at hlike
  exact ⟨heagerly.eq_nil_iff.2 hinert, m, hsm.get?_of_key hkey, hlike⟩

/-- With something queued the flush is one pass over what the notifications are about, and eager mode
    has made some. -/
theorem flushes {entry : QueueEntry} (hentry : h₁.queue.get? e.key = some entry) : ps ≠ [] ∧
    (s.table e.tenant).SameAround e.id (h₁.store.table e.tenant) ∧ ∃ m e₂ now ctx,
      h₁.store.get? e.tenant e.id = some m ∧ h'.store.get? e.tenant e.id = some e₂ ∧
      (e.markStale ns).Like (m.markStale entry.names) ∧
      Selection.Passed .stale (engine.inMode .batched).settings (h₁.store.table e.tenant)
        (m.markStale entry.names) now ctx e₂.properties := by
  have hmemory : (engine.inMode .batched).store = MemoryStore.store := hengine
  obtain ⟨_, -, -, heagerly⟩ := hb.eagerly hengine ha hs
  obtain ⟨hr, m, hsm, hkey, haround, hlike, hqueued⟩ := hb.queues hengine ha hs
  obtain ⟨actor, hflush⟩ := hb.flushed
  rcases hr.flush hmemory hsm hkey hflush with ⟨hnone, -⟩ | ⟨entry', o, version, hentry', ho, hfinal⟩
  · rw [hentry] at hnone
    cases hnone
  rw [hentry] at hentry'
  cases hentry'
  have hnames : h₁.core.queued e.key = entry.names := by
    show ((h₁.queue.get? e.key).map QueueEntry.names).getD [] = _
    rw [hentry]
    rfl
  rw [hnames] at hlike hqueued
  have hne : ps ≠ [] := by
    obtain ⟨n, hn⟩ := List.exists_mem_of_ne_nil _ (hr.filled entry hentry)
    obtain ⟨hn, hno⟩ := (hqueued n).1 hn
    exact fun hps => hno (heagerly.eq_nil_iff.1 hps n hn)
  have hkeyed := hsm.keyed
  have hstored := hsm.get?_of_key hkey
  injection hkey with htenant hid
  rw [htenant] at ho hfinal hkeyed
  rw [hid] at hfinal
  obtain ⟨now, ctx, hgathered, rfl⟩ := ho
  exact ⟨hne, haround, m, _, now, ctx, hstored, hfinal, hlike,
    hkeyed, hsm.names.markStale entry.names, hgathered, rfl⟩

/-- Gathering tracks formulas that read nothing but own properties. -/
theorem flushTracks (hown : ∀ f ∈ e.readable, ∀ d ∈ f.parts, d.readsOwn = true) :
    FlushTracks (engine.inMode .batched).settings e.key h₁ h' := by
  intro entry m e' hentry hm _
  obtain ⟨-, -, m', _, _, _, hm', -, hlike, hpassed⟩ := hb.flushes hengine ha hs hentry
  obtain rfl : m = m' := Option.some.inj (hm.symm.trans hm')
  exact ((e.sameDefinitions_markStale ns).trans hlike.sameDefinitions).tracks hpassed.names hown ..

/-- Eager and batched mode leave every property in the same state, if the passes of eager mode are in
    order and gathering tracks what the flush reads. -/
theorem modes_agree (hinOrder : InOrder (engine.inMode .eager).settings e ps)
    (htracks : FlushTracks (engine.inMode .batched).settings e.key h₁ h') :
    ∃ e₁ e₂, h.store.get? e.tenant e.id = some e₁ ∧ h'.store.get? e.tenant e.id = some e₂ ∧
      ∀ name, EndsAlike ps e₁.properties e₂.properties name := by
  obtain ⟨e₁, hs₁, hkey₁, heagerly⟩ := hb.eagerly hengine ha hs
  have hstored := hs₁.get?_of_key hkey₁
  cases hentry : h₁.queue.get? e.key with
  | none =>
    obtain ⟨hr, m, hsm, hkey, -⟩ := hb.queues hengine ha hs
    obtain ⟨rfl, m', hm', hlike⟩ := hb.unqueued hengine ha hs hentry
    obtain ⟨actor, hflush⟩ := hb.flushed
    have hmemory : (engine.inMode .batched).store = MemoryStore.store := hengine
    rcases hr.flush hmemory hsm hkey hflush with ⟨-, hsame⟩ | ⟨entry, -, -, hsome, -⟩
    · refine ⟨e₁, m', hstored, ?_, fun name => .inl ?_⟩
      · rw [← hm']
        unfold MemoryStore.get? MemoryStore.table
        rw [hsame]
      · rw [heagerly.get?_of_not_computed fun ⟨p, hp, _⟩ => List.not_mem_nil hp]
        exact ⟨hlike.status name, .inl (hlike.current name)⟩
    · rw [hentry] at hsome
      cases hsome
  | some entry =>
    obtain ⟨hne, haround, m, e₂, now, ctx, hm, he₂, hlike, hpassed⟩ :=
      hb.flushes hengine ha hs hentry
    have hpostponed : Postponed (engine.inMode .eager).settings (engine.inMode .batched).settings
        (s.table e.tenant) e ns ps e₁ (h₁.store.table e.tenant) (m.markStale entry.names) now ctx
        e₂.properties :=
      { strict := rfl
        eagerly := heagerly
        nonempty := hne
        inOrder := hinOrder
        like := hlike
        around := haround
        passed := hpassed
        tracks := htracks entry m e₂ hentry hm he₂ }
    exact ⟨e₁, e₂, hstored, he₂, hpostponed.agree⟩

end InBothModes

/-- Whatever a client notifies handlers of is handled in both modes. -/
theorem exists_inBothModes (engine : Engine MemoryStore) (hengine : engine.store = MemoryStore.store)
    {s : MemoryStore} (ha : s.available = true) {e : Entity} (hs : s.Stores e) (ns : List String) :
    ∃ ps h h₁ h', InBothModes engine s e.key ns ps h h₁ h' := by
  have hmemory (mode : RecalcMode) : (engine.inMode mode).store = MemoryStore.store := hengine
  have hstores (mode : RecalcMode) : (start (engine.inMode mode).settings s).store.Stores e := by
    rw [start_store]
    exact hs
  obtain ⟨ps, h, heager, -⟩ := exists_handles (hmemory .eager) (.refl _) (rests_start _ ha e.key)
    (hstores .eager) rfl ns
  obtain ⟨ps', h₁, hbatched, hreach, hr⟩ := exists_handles (hmemory .batched) (.refl _)
    (rests_start _ ha e.key) (hstores .batched) rfl ns
  obtain ⟨h', hflush⟩ := hr.exists_flush hreach "user"
  exact ⟨ps, h, h₁, h', heager, ⟨ps', hbatched⟩, "user", hflush⟩

end Handler

/-! ### Two properties that read a literal -/

/-- Two properties that repeat a literal. -/
def twins : Entity :=
  (Entity.ofValid [("a", "#c", .text "old"), ("b", "#c", .text "old")]).withProperty
    (.literal { name := "c", value := .text "X" })

theorem twins_readsOwn : ∀ f ∈ twins.readable, ∀ d ∈ f.parts, d.readsOwn = true := by
  decide +kernel

theorem twins_stores : (MemoryStore.insert {} twins).Stores twins :=
  .insert (Entity.namesAgree_iff.2 (by decide +kernel)) nofun

theorem twins_agree : ∃ ps h h₁ h' e₁ e₂,
    Handler.InBothModes plainEngine (MemoryStore.insert {} twins) twins.key ["a", "b"] ps h h₁ h' ∧
      ps ≠ [] ∧ h.store.get? twins.tenant twins.id = some e₁ ∧
      h'.store.get? twins.tenant twins.id = some e₂ ∧
      ∀ name, EndsAlike ps e₁.properties e₂.properties name := by
  obtain ⟨ps, h, h₁, h', hb⟩ := Handler.exists_inBothModes plainEngine rfl rfl
    twins_stores ["a", "b"]
  obtain ⟨_, -, -, heagerly⟩ := hb.eagerly rfl rfl twins_stores
  have hne : ps ≠ [] := by
    intro hps
    have hinert := heagerly.eq_nil_iff.1 hps "a" List.mem_cons_self _ rfl
    cases hinert
  have hinOrder : InOrder (plainEngine.inMode .eager).settings twins ps := by
    refine heagerly.inOrder twins_readsOwn (fun f hf name hname => ?_) fun name q hq => ?_
    · have hnamed : ∀ f ∈ twins.readable, ∀ name ∈ f.reads, name = "c" := by decide +kernel
      obtain rfl := hnamed f hf name (List.mem_filterMap.2 ⟨_, hname, rfl⟩)
      exact heagerly.not_computed_of_given (by decide +kernel)
    · have hmem := Entity.mem_inherited_iff.2 ⟨name, hq⟩
      rw [List.isEmpty_iff.1 (show twins.inherited.isEmpty = true by decide +kernel)] at hmem
      exact absurd hmem List.not_mem_nil
  obtain ⟨e₁, e₂, h₁, h₂, hagree⟩ := hb.modes_agree rfl rfl twins_stores hinOrder
    (hb.flushTracks rfl rfl twins_stores twins_readsOwn)
  exact ⟨ps, h, _, h', e₁, e₂, hb, hne, h₁, h₂, hagree⟩

/-! ### A property that is recomputed too early -/

/-- A pending property whose formula is another one, that is stored, has its value. -/
theorem Eval.property_of_stored {ctx : EvaluationContext} {name q : String} {p : Property}
    (hf : ctx.pending.get? name = some (.selfProperty q)) (hq : ctx.pending.get? q = none)
    (hp : ctx.properties.get? q = some p) (hl : ctx.recursionLimit ≠ 0) :
    (Eval.property ctx name {}).1 = .ok p.current := by
  have hne : q ≠ name := by
    rintro rfl
    rw [hq] at hf
    cases hf
  obtain ⟨left, hleft⟩ := Nat.exists_eq_succ_of_ne_zero hl
  rw [property_eq, ownProperty_pending rfl List.not_mem_nil hf, hleft]
  show (ownProperty (evaluateWithin ctx left) ctx q { inProgress := [name], depth := 1 }).1 = _
  rw [ownProperty_stored rfl (by simpa using hne) hq]
  unfold Evaluation.storedProperty
  rw [hp]
  rfl

/-- If that is pending as well, the value of its constant is what both mean. -/
theorem EvaluationContext.ownMeaning_of_literal {ctx : EvaluationContext} {name q : String}
    {v : Literal} (hf : ctx.pending.get? name = some (.selfProperty q))
    (hq : ctx.pending.get? q = some (.literal v)) :
    ctx.ownMeaning name = .ok (Evaluation.literal v) := by
  have hliteral : ctx.ownMeaning q = .ok (Evaluation.literal v) := by
    rw [ownMeaning_pending hq]
    exact meaning_of_settled_level trivial
  rw [ownMeaning_pending hf, meaning_of_settled_level]
  · exact hliteral
  · show Settled (ctx.ownMeaning q)
    rw [hliteral]
    trivial

theorem hasty_stores : (MemoryStore.insert {} hasty).Stores hasty :=
  .insert (Entity.namesAgree_iff.2 (by decide +kernel)) nofun

/-- The first pass computes the property with the old value of the other one, and the second one does
    not compute it again. -/
theorem hasty_eagerly {settings : Settings} (hl : settings.recursionLimit ≠ 0) {t : TenantTable}
    {ps : List NotifiedPass} {e' : Entity} (h : Eagerly settings t hasty ["a", "b"] ps e') :
    (e'.properties.get? "a").map Property.status? = some (some .valid) ∧
      (e'.properties.get? "a").map Property.current = some (some (.text "old")) := by
  obtain ⟨p, version, ps', rfl, hentity, hproperty, hmade, hrest⟩ := h.exists_pass
    fun hinert => by
      have hcircular := hinert _ rfl
      cases hcircular
  obtain ⟨now, ctx, hp⟩ := hmade.passed
  have hmarked : p.marked = hasty.markStale ["a"] := by
    rw [NotifiedPass.marked, hentity, hproperty]
  rw [hmarked] at hp
  have hanswer : (Eval.property ((Selection.ofEntity .stale (hasty.markStale ["a"])).passContext now
      ctx) "a" {}).1 = .ok (some (.text "old")) := by
    refine Eval.property_of_stored (q := "b") (p := .computed
      { name := "b", expression := "\"X\"", cached := some (.text "old"), status := .valid }) rfl rfl ?_ ?_
    · show ctx.properties.get? "b" = _
      rw [hp.properties]
      rfl
    · show ctx.recursionLimit ≠ 0
      rw [hp.gathered.grows.limit]
      exact hl
  have hentries : (Selection.ofEntity .stale (hasty.markStale ["a"])).formulas.entries =
      [("a", .ok (.selfProperty "b"))] := rfl
  have ha := hp.first hentries
  rw [hanswer] at ha
  have hlast : ¬ Computed ps' "a" := by
    intro hc
    obtain ⟨q, s, hq, hs, -, hwhy⟩ :=
      Entity.selects_markStale_iff.1 (hrest.selects_of_computed hc)
    rw [show ({ hasty with properties := p.outcome.properties, version } : Entity).properties.get? "a"
      = _ from ha] at hq
    cases hq
    cases hs
    simp [Status.needsRecompute] at hwhy
  rw [hrest.get?_of_not_computed hlast]
  show (p.outcome.properties.get? "a").map _ = _ ∧ (p.outcome.properties.get? "a").map _ = _
  rw [ha]
  exact ⟨rfl, rfl⟩

/-- In batched mode the flush finds the new value, or no value at all. -/
theorem hasty_flushes {settings : Settings} {t : TenantTable} {m : Entity} {now : String}
    {ctx : EvaluationContext} {qs : Dict Property} (hlike : (hasty.markStale ["a", "b"]).Like m)
    (hp : Selection.Passed .stale settings t m now ctx qs)
    (hvalid : (qs.get? "a").map Property.status? = some (some .valid)) :
    (qs.get? "a").map Property.current = some (some (.text "X")) := by
  have hnames : hasty.NamesAgree := Entity.namesAgree_iff.2 (by decide +kernel)
  have hown : ∀ f ∈ hasty.readable, ∀ d ∈ f.parts, d.readsOwn = true := by decide +kernel
  have htracks := ((hasty.sameDefinitions_markStale ["a", "b"]).trans hlike.sameDefinitions).tracks
    hp.names hown .stale settings t qs
  have hpending {name : String} {f : Expression}
      (hf : (Selection.ofEntity .stale (hasty.markStale ["a", "b"])).pending.get? name = some f) :
      (Selection.ofEntity .stale m).pending.get? name = some f :=
    hlike.sameDefinitions.pending_iff (hnames.markStale _) hp.names
      (hlike.selects (Entity.selects_of_pending (hnames.markStale _) hf)) hf
  have ha : (Selection.ofEntity .stale m).pending.get? "a" = some (.selfProperty "b") := hpending rfl
  have hb : (Selection.ofEntity .stale m).pending.get? "b" = some (.literal (.text "X")) :=
    hpending rfl
  obtain ⟨q, r, -, hne, -, hsound, hq⟩ := hp.answer htracks ha
  rw [hq] at hvalid ⊢
  have hr := Verdict.ofAnswer_eq_ok hne now "a" (Option.some.inj hvalid)
  have hmeaning : (Scope.stale.everything settings t m qs).ownMeaning "a" = r :=
    hsound (by rw [hr]; trivial)
  rw [EvaluationContext.ownMeaning_of_literal (by rw [Scope.everything_pending]; exact ha)
    (by rw [Scope.everything_pending]; exact hb), hr] at hmeaning
  rw [Option.map_some, ← Except.ok.inj hmeaning]
  rfl

/-- The property that is recomputed too early keeps its old value in eager mode and not in batched
    mode. -/
theorem hasty_disagrees : ∃ ps h h₁ h' e₁ e₂,
    (MemoryStore.insert {} hasty).available = true ∧ (MemoryStore.insert {} hasty).Stores hasty ∧
      Handler.InBothModes plainEngine (MemoryStore.insert {} hasty) hasty.key ["a", "b"] ps h h₁ h' ∧
      h.store.get? hasty.tenant hasty.id = some e₁ ∧
      h'.store.get? hasty.tenant hasty.id = some e₂ ∧
      ¬ ((e₁.properties.get? "a").map Property.status? =
          (e₂.properties.get? "a").map Property.status? ∧
        (e₁.properties.get? "a").map Property.current =
          (e₂.properties.get? "a").map Property.current) := by
  obtain ⟨ps, h, h₁, h', hb⟩ := Handler.exists_inBothModes plainEngine rfl rfl
    hasty_stores ["a", "b"]
  obtain ⟨e₁, hs₁, hkey₁, heagerly⟩ := hb.eagerly rfl rfl hasty_stores
  obtain ⟨hstatus, hcurrent⟩ := hasty_eagerly (by decide) heagerly
  cases hentry : h₁.queue.get? hasty.key with
  | none =>
    obtain ⟨rfl, -⟩ := hb.unqueued rfl rfl hasty_stores hentry
    have hinert := heagerly.eq_nil_iff.1 rfl "a" List.mem_cons_self _ rfl
    cases hinert
  | some entry =>
    obtain ⟨-, -, m, e₂, now, ctx, -, he₂, hlike, hpassed⟩ := hb.flushes rfl rfl hasty_stores hentry
    refine ⟨ps, h, h₁, h', e₁, e₂, rfl, hasty_stores, hb, hs₁.get?_of_key hkey₁, he₂, ?_⟩
    rintro ⟨hstatus', hcurrent'⟩
    rw [hstatus] at hstatus'
    rw [hcurrent, hasty_flushes hlike hpassed hstatus'.symm] at hcurrent'
    simp at hcurrent'

end EntityFormulas
