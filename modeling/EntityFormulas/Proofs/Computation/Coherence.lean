/-
  EntityFormulas/Proofs/Computation/Coherence.lean
  ================================================
  **Outcomes are coherent.**

  A pass answers twice: with the properties as they are afterwards, and with a
  list of results.  Sources, formulas, formulas that cannot be read and a context
  that cannot be fetched all write into both.  Whatever happens, the two agree
  (`Entity.Coherent`): there is one result for each property that the pass was to
  recompute, it says what the property says, no move of a status was refused on
  the way, and the rest of the properties is as it was.

  Nothing is asked of the store or the settings.
-/
import EntityFormulas.Proofs.Computation.Verdicts
import EntityFormulas.Proofs.Store.Writing

namespace EntityFormulas

/-! ### Moves that are not allowed -/

/-- Applies a verdict to the property of that name and reports it, or fails if the status may not
    move that way. -/
def PassOutcome.attempt (o : PassOutcome) (v : String × Verdict) :
    Except InvalidTransition PassOutcome :=
  match o.properties.get? v.1 with
  | none => .ok (o.conclude v.1 v.2)
  | some p => (v.2.moved p).map fun _ => o.conclude v.1 v.2

/-- Verdicts on different properties are all allowed if each is where the pass starts. -/
theorem PassOutcome.foldlM_attempt {vs : List (String × Verdict)} {o : PassOutcome}
    (hn : vs.Pairwise fun v w => v.1 ≠ w.1)
    (h : ∀ v ∈ vs, ∀ p, o.properties.get? v.1 = some p → ∃ q, v.2.moved p = .ok q) :
    vs.foldlM attempt o = .ok (o.concludeAll vs) := by
  induction vs generalizing o with
  | nil => rfl
  | cons v rest ih =>
    obtain ⟨hv, hrest⟩ := List.pairwise_cons.1 hn
    have hattempt : o.attempt v = .ok (o.conclude v.1 v.2) := by
      unfold attempt
      split
      · rfl
      · rename_i p hp
        obtain ⟨q, hq⟩ := h v List.mem_cons_self p hp
        rw [hq]
        rfl
    rw [List.foldlM_cons, hattempt]
    refine ih hrest fun w hw p hp => h w (List.mem_cons_of_mem _ hw) p ?_
    -- What the first verdict has moved is not what the others are about.
    rw [get?_conclude, if_neg (hv w hw)] at hp
    exact hp

/-! ### Results -/

/-- A result says what has become of the property that it names. -/
structure PropertyResult.Reports (r : PropertyResult) (before after : Property) : Prop where
  settled : r.status = .valid ∨ r.status = .error ∨ r.status = .circular
  error_none_iff : r.error = none ↔ r.status = .valid
  evaluatedAt_iff : r.evaluatedAt.isSome = true ↔ r.status = .valid
  status : after.status? = some r.status
  error : after.error? = r.error
  value : after.current = r.value
  kept : r.status ≠ .valid →
    after.current = before.current ∧ after.cachedAt? = before.cachedAt?

/-- The result of a verdict reports its move. -/
theorem Verdict.Settles.reports {v : Verdict} {p q : Property} (h : v.Settles p q) (name : String) :
    (v.result name (some q)).Reports p q := by
  have hstatus : (v.result name (some q)).status = v.status p := by
    simp [Verdict.result, h.status]
  constructor
  · rw [hstatus]
    cases v with
    | valid value time => exact .inl rfl
    | failed m => exact .inr (.inl rfl)
    | circular m => cases p <;> simp [Verdict.status]
  · rw [hstatus, Verdict.status_eq_valid_iff]
    rfl
  · rw [hstatus, Verdict.status_eq_valid_iff]
    cases v <;> simp [Verdict.result, Verdict.time?, Verdict.error?, h.status]
  · rw [hstatus, h.status]
  · exact h.error
  · rfl
  · intro hvalid
    rw [hstatus, Ne, Verdict.status_eq_valid_iff] at hvalid
    exact ⟨h.current hvalid, h.cachedAt hvalid⟩

/-- The results and the properties that a pass over an entity ends with fit each other and the
    entity. -/
structure Entity.Coherent (scope : Scope) (e : Entity) (o : PassOutcome) : Prop where
  /-- No two results are about one property. -/
  ascending : (o.results.map PropertyResult.name).Pairwise (· < ·)
  /-- The properties with results are those to be recomputed. -/
  selects : ∀ name, (∃ r ∈ o.results, r.name = name) ↔
    ∃ p s, e.properties.get? name = some p ∧ p.status? = some s ∧ s ≠ .circular ∧
      (scope = .stale → s = .pending ∨ s = .stale)
  reports : ∀ r ∈ o.results, ∃ p q, e.properties.get? r.name = some p ∧
    o.properties.get? r.name = some q ∧ r.Reports p q
  frame : ∀ name, (∀ r ∈ o.results, r.name ≠ name) →
    o.properties.get? name = e.properties.get? name
  /-- The outcome comes of verdicts, one after another, none of which is refused. -/
  allowed : ∃ (vs : List (String × Verdict)) (o' : PassOutcome),
    vs.foldlM PassOutcome.attempt ⟨e.properties, []⟩ = .ok o' ∧ o = o'.inOrder
  allSucceeded : o.allSucceeded = true ↔ ∀ r ∈ o.results, r.error = none

theorem Scope.selects_iff {scope : Scope} {s : Status} :
    scope.selects s = true ↔
      s ≠ .circular ∧ (scope = .stale → s = .pending ∨ s = .stale) := by
  cases scope <;> cases s <;> simp [Scope.selects, Status.needsRecompute]

namespace Entity.Judged

variable {scope : Scope} {e : Entity} {vs : List (String × Verdict)} {o : PassOutcome}
  (h : e.Judged scope vs o)
include h

/-- A verdict moves the property that it is on. -/
theorem settles {name : String} {v : Verdict} (hv : (name, v) ∈ vs) :
    ∃ p q, e.properties.get? name = some p ∧ o.properties.get? name = some q ∧ v.Settles p q := by
  obtain ⟨p, s, hp, hs, hsel⟩ := (h.selects name).1 ⟨v, hv⟩
  have hsettles := v.settles hs (Scope.ne_circular_of_selects hsel)
  refine ⟨p, v.applied p, hp, ?_, hsettles⟩
  rw [h.get? hv, hp, Option.map_some]

/-- Each result is that of a verdict. -/
theorem mem_results {r : PropertyResult} :
    r ∈ o.results ↔ ∃ v, (r.name, v) ∈ vs ∧ r = v.result r.name (o.properties.get? r.name) := by
  rw [h.results_eq, List.mem_mergeSort, List.mem_map]
  constructor
  · rintro ⟨⟨name, v⟩, hv, rfl⟩
    exact ⟨v, hv, by rw [show (v.result name _).name = name from rfl, h.get? hv]⟩
  · rintro ⟨v, hv, hr⟩
    refine ⟨(r.name, v), hv, ?_⟩
    rw [← h.get? hv, ← hr]

theorem exists_result_iff {name : String} :
    (∃ r ∈ o.results, r.name = name) ↔ ∃ v, (name, v) ∈ vs := by
  constructor
  · rintro ⟨r, hr, rfl⟩
    obtain ⟨v, hv, -⟩ := h.mem_results.1 hr
    exact ⟨v, hv⟩
  · rintro ⟨v, hv⟩
    exact ⟨v.result name (o.properties.get? name), h.mem_results.2 ⟨v, hv, rfl⟩, rfl⟩

theorem coherent : e.Coherent scope o := by
  have hreports {r : PropertyResult} (hr : r ∈ o.results) : ∃ p q,
      e.properties.get? r.name = some p ∧ o.properties.get? r.name = some q ∧ r.Reports p q := by
    obtain ⟨v, hv, heq⟩ := h.mem_results.1 hr
    obtain ⟨p, q, hp, hq, hsettles⟩ := h.settles hv
    refine ⟨p, q, hp, hq, ?_⟩
    rw [heq, hq]
    exact hsettles.reports r.name
  constructor
  · exact h.ascending
  · intro name
    rw [h.exists_result_iff, h.selects]
    simp only [Scope.selects_iff]
  · exact fun r hr => hreports hr
  · intro name hname
    apply h.get?_unselected
    intro p s hp hs
    by_contra hsel
    obtain ⟨r, hr, heq⟩ := h.exists_result_iff.2
      ((h.selects name).2 ⟨p, s, hp, hs, by simpa using hsel⟩)
    exact hname r hr heq
  · refine ⟨vs, _, PassOutcome.foldlM_attempt h.distinct ?_, h.outcome⟩
    rintro ⟨name, v⟩ hv p hp
    obtain ⟨p', q, hp', -, hsettles⟩ := h.settles hv
    rw [hp] at hp'
    cases hp'
    exact ⟨q, hsettles.moved⟩
  · simp only [PassOutcome.allSucceeded, List.all_eq_true, decide_eq_true_eq]
    constructor
    · intro hall r hr
      obtain ⟨p, q, -, -, hr'⟩ := hreports hr
      exact hr'.error_none_iff.2 (hall r hr)
    · intro hall r hr
      obtain ⟨p, q, -, -, hr'⟩ := hreports hr
      exact hr'.error_none_iff.1 (hall r hr)

end Entity.Judged

/-! ### Passes -/

/-- Whatever a store answers, and whether or not a context can be fetched from it, what a pass ends
    with is coherent. -/
theorem Entity.recompute_coherent {σ : Type} (store : EntityStore σ) (s : σ) (settings : Settings)
    (now : String) (scope : Scope) {e : Entity} (h : e.NamesAgree) :
    e.Coherent scope ((e.recompute settings now scope).run store s).1 := by
  obtain ⟨vs, hvs⟩ := (Entity.recompute_judged h settings now scope).run store s
  exact hvs.coherent

/-- Derived properties of which each ends in its own way: a formula without a reading, a property
    that reads itself, one with a value, one from an entity that there is not, and one that was on
    a cycle before. -/
def assorted : Entity :=
  [.computed { name := "cut", expression := "1 +" },
    .computed { name := "loop", expression := "#loop" },
    .computed { name := "text", expression := "\"X\"" },
    .inherited { name := "origin", source := "nowhere" },
    .computed { name := "wheel", expression := "\"X\"", status := .circular }].foldl
    Entity.withProperty { id := "entity", typePath := "entity" }

theorem assorted_coherent :
    assorted.NamesAgree ∧
    assorted.Coherent .stale ((assorted.recompute {} "now" .stale).run MemoryStore.store {}).1 ∧
    (["cut", "loop", "origin", "text", "wheel"].map fun name =>
      (((assorted.recompute {} "now" .stale).run MemoryStore.store {}).1.properties.get? name).bind
        Property.status?) =
      [some .error, some .circular, some .error, some .valid, some .circular] := by
  have hnames : assorted.NamesAgree := Entity.namesAgree_iff.2 (by decide +kernel)
  refine ⟨hnames, ?_, by decide +kernel⟩
  exact Entity.recompute_coherent MemoryStore.store {} {} "now" .stale hnames

end EntityFormulas
