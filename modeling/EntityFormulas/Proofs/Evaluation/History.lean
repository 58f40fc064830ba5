/-
  EntityFormulas/Proofs/Evaluation/History.lean
  =============================================
  **What earlier calls change.**

  A property that a fresh evaluator gives a value has that value after any
  earlier reads too, unless one of them ran out of levels (`property_after`).

  Both runs are compared in step.  The later one remembers whatever the fresh one
  has come to know, and it remembers it together with all that was read for it
  (`Closed`): where it skips an evaluation, it knows everything that the fresh
  run is about to learn.  So it never nests deeper.
-/
import EntityFormulas.Proofs.Evaluation.Calls
import EntityFormulas.Proofs.Evaluation.Completeness

namespace EntityFormulas

open Evaluation

/-! ### Remembered failures -/

/-- A failure that is remembered after a call was remembered before it or is that of the call. -/
def failing : Simulation Eval Eval where
  rel x _ := ∀ s name e, (x s).2.resolved.get? name = some (.error e) →
    s.resolved.get? name = some (.error e) ∨ (x s).1 = .error e
  gives _ _ := True
  pure _ _ _ _ h := .inl h
  throw _ _ _ _ _ h := .inl h
  bind {α β x y f g} hx hf s name e h := by
    rcases hs : x s with ⟨r, s'⟩
    have hx := hx s name e
    rw [hs] at hx
    cases r with
    | ok a =>
      rw [Eval.bind_apply_ok hs] at h ⊢
      rcases hf a trivial s' name e h with h | h
      · exact (hx h).imp_right nofun
      · exact .inr h
    | error x =>
      rw [Eval.bind_apply_error hs] at h ⊢
      exact (hx h).imp_right fun h => by rw [Except.error.inj h]

/-- Where levels run out, the limit is that of the context. -/
def EvaluationContext.Limited {α : Type} (ctx : EvaluationContext) (r : Except EvalError α) : Prop :=
  ∀ limit, r = .error (.depthExceeded limit) → limit = ctx.recursionLimit

theorem EvaluationContext.Limited.of_settled {α : Type} {ctx : EvaluationContext}
    {r : Except EvalError α} (h : Settled r) : ctx.Limited r := by
  rintro limit rfl
  exact absurd trivial h

/-- Answers with the limit of the context, given that those remembered have it. -/
def EvaluationContext.limiting (ctx : EvaluationContext) : Simulation Eval Eval where
  rel x _ := ∀ s : EvalState, s.Remembers (fun _ => ctx.Limited) →
    (x s).2.Remembers (fun _ => ctx.Limited) ∧ ctx.Limited (x s).1
  gives _ _ := True
  pure _ _ hs := ⟨hs, nofun⟩
  throw _ he _ hs := ⟨hs, .of_settled he⟩
  bind {α β x y f g} hx hf s hs := by
    obtain ⟨hs', hl⟩ := hx s hs
    rcases h : x s with ⟨r, s'⟩
    rw [h] at hs' hl
    cases r with
    | ok a =>
      rw [Eval.bind_apply_ok h]
      exact hf a trivial s' hs'
    | error e =>
      rw [Eval.bind_apply_error h]
      exact ⟨hs', fun limit he => hl limit (by rw [Except.error.inj he])⟩

section Failures

variable {ctx : EvaluationContext}

theorem ownProperty_failing {ev : Expression → Eval (Option Value)}
    (hev : ∀ e, failing.rel (ev e) (ev e)) (name : String) :
    failing.rel (Eval.ownProperty ev ctx name) (Eval.ownProperty ev ctx name) := by
  intro s q e h
  rcases Eval.ownProperty_cases ev ctx name s with
    ⟨r, -, hown⟩ | ⟨-, -, hown⟩ | ⟨-, -, -, hown⟩ | ⟨f, -, -, -, hown⟩ <;> rw [hown] at h ⊢
  · exact .inl h
  · exact .inl h
  · exact .inl h
  · have h : ((ev f { s with inProgress := s.inProgress ++ [name] }).2.resolved.insert name
        (ev f { s with inProgress := s.inProgress ++ [name] }).1).get? q = some (.error e) := h
    rw [Dict.get?_insert] at h
    split at h
    · exact .inr (Option.some.inj h)
    · exact hev f _ q e h

theorem evaluateWithin_failing (left : Nat) (e : Expression) :
    failing.rel (Eval.evaluateWithin ctx left e) (Eval.evaluateWithin ctx left e) := by
  induction left generalizing e with
  | zero => exact fun s name x h => .inl h
  | succ left ih =>
    intro s name x h
    exact failing.level_of_own ctx e (fun c _ => ih c) (ownProperty_failing ih)
      { s with depth := s.depth + 1 } name x h

theorem ownProperty_limited {ev : Expression → Eval (Option Value)}
    (hev : ∀ e, ctx.limiting.rel (ev e) (ev e)) (name : String) :
    ctx.limiting.rel (Eval.ownProperty ev ctx name) (Eval.ownProperty ev ctx name) := by
  intro s hs
  rcases Eval.ownProperty_cases ev ctx name s with
    ⟨r, hr, h⟩ | ⟨-, -, h⟩ | ⟨-, -, -, h⟩ | ⟨f, -, -, -, h⟩ <;> rw [h]
  · exact ⟨hs, hs name r hr⟩
  · exact ⟨hs, nofun⟩
  · exact ⟨hs, .of_settled (EvaluationContext.storedProperty_settled ctx name)⟩
  · obtain ⟨hs', hl⟩ := hev f { s with inProgress := s.inProgress ++ [name] } hs
    exact ⟨hs'.resolve hl _, hl⟩

theorem evaluateWithin_limited (left : Nat) (e : Expression) :
    ctx.limiting.rel (Eval.evaluateWithin ctx left e) (Eval.evaluateWithin ctx left e) := by
  induction left generalizing e with
  | zero =>
    refine fun s hs => ⟨hs, fun limit h => ?_⟩
    cases h
    rfl
  | succ left ih =>
    intro s hs
    exact ctx.limiting.level_of_own ctx e (fun c _ => ih c) (ownProperty_limited ih)
      { s with depth := s.depth + 1 } hs

end Failures

/-! ### Values with all that was read for them -/

/-- Whether an evaluator has an answer for a property. -/
def EvalState.Knows (s : EvalState) (name : String) : Prop := ∃ r, s.resolved.get? name = some r

theorem EvalState.knows_resolved_iff {s : EvalState} {name q : String} {r : EvalResult}
    (names : List String) :
    Knows { s with inProgress := names, resolved := s.resolved.insert name r } q ↔
      name = q ∨ s.Knows q := by
  unfold Knows
  dsimp only
  rw [Dict.get?_insert]
  by_cases h : name = q <;> simp [h]

namespace EvaluationContext

variable (ctx : EvaluationContext)

/-- A value is remembered together with all that an evaluation of it, wherever it starts, comes to
    know. -/
def Closed (s : EvalState) : Prop :=
  ∀ name v f, s.resolved.get? name = some (.ok v) → ctx.pending.get? name = some f →
    ∀ left (t : EvalState) a, t.Remembers ctx.Sound → (Eval.evaluateWithin ctx left f t).1 = .ok a →
      ∀ q, (Eval.evaluateWithin ctx left f t).2.Knows q → t.Knows q ∨ s.Knows q

/-- What is remembered are meanings, and values are so with all that was read for them. -/
def Intact (s : EvalState) : Prop := s.Remembers ctx.Sound ∧ ctx.Closed s

/-- The second computation keeps what is remembered intact.  Where both give a value, it comes to
    know what the first one does. -/
def closing : Simulation Eval Eval where
  rel x y := ∀ t s : EvalState, t.Remembers ctx.Sound → ctx.Intact s →
    (x t).2.Remembers ctx.Sound ∧ ctx.Intact (y s).2 ∧ (∀ q, s.Knows q → (y s).2.Knows q) ∧
      ∀ a b, (x t).1 = .ok a → (y s).1 = .ok b →
        a = b ∧ ∀ q, (x t).2.Knows q → t.Knows q ∨ (y s).2.Knows q
  gives _ _ := True
  pure _ _ _ ht hs :=
    ⟨ht, hs, fun _ h => h, fun a b ha hb =>
      ⟨(Except.ok.inj ha).symm.trans (Except.ok.inj hb), fun _ => .inl⟩⟩
  throw _ _ _ _ ht hs := ⟨ht, hs, fun _ h => h, nofun⟩
  bind {α β x y f g} hx hf t s ht hs := by
    obtain ⟨ht', hs', hgrow, hans⟩ := hx t s ht hs
    rcases hxt : x t with ⟨r, t'⟩
    rcases hys : y s with ⟨u, s'⟩
    rw [hxt] at ht' hans
    rw [hys] at hs' hgrow hans
    cases r with
    | error e =>
      rw [Eval.bind_apply_error hxt]
      refine ⟨ht', ?_⟩
      cases u with
      | error e' =>
        rw [Eval.bind_apply_error hys]
        exact ⟨hs', hgrow, nofun⟩
      | ok b =>
        rw [Eval.bind_apply_ok hys]
        obtain ⟨-, hs'', hgrow', -⟩ := hf b trivial s' s' hs'.1 hs'
        exact ⟨hs'', fun q hq => hgrow' q (hgrow q hq), nofun⟩
    | ok a =>
      rw [Eval.bind_apply_ok hxt]
      obtain ⟨ht'', hs'', hgrow', hans'⟩ := hf a trivial t' s' ht' hs'
      refine ⟨ht'', ?_⟩
      cases u with
      | error e' =>
        rw [Eval.bind_apply_error hys]
        exact ⟨hs', hgrow, fun _ _ _ h => nomatch h⟩
      | ok b =>
        obtain ⟨rfl, hknows⟩ := hans a b rfl rfl
        rw [Eval.bind_apply_ok hys]
        refine ⟨hs'', fun q hq => hgrow' q (hgrow q hq), fun c d hc hd => ?_⟩
        obtain ⟨hcd, hknows'⟩ := hans' c d hc hd
        refine ⟨hcd, fun q hq => ?_⟩
        rcases hknows' q hq with hq | hq
        · exact (hknows q hq).imp_right (hgrow' q)
        · exact .inr hq

variable {ctx}

theorem Intact.resolve {s : EvalState} (hs : ctx.Intact s) {name : String} {r : EvalResult}
    (hr : ctx.Sound name r) (names : List String)
    (hknows : ∀ v f, r = .ok v → ctx.pending.get? name = some f →
      ∀ left (t : EvalState) a, t.Remembers ctx.Sound →
        (Eval.evaluateWithin ctx left f t).1 = .ok a →
        ∀ q, (Eval.evaluateWithin ctx left f t).2.Knows q → t.Knows q ∨ s.Knows q) :
    ctx.Intact { s with inProgress := names, resolved := s.resolved.insert name r } := by
  refine ⟨hs.1.resolve hr names, ?_⟩
  intro name' v f hv hf left t a ht ha q hq
  rw [EvalState.knows_resolved_iff]
  dsimp only at hv
  rw [Dict.get?_insert] at hv
  split at hv
  · rename_i heq
    subst heq
    exact (hknows v f (Option.some.inj hv) hf left t a ht ha q hq).imp_right .inr
  · exact (hs.2 name' v f hv hf left t a ht ha q hq).imp_right .inr

section Levels

variable {n : Nat} (hev : ∀ k e, ctx.closing.rel (Eval.evaluateWithin ctx k e) (Eval.evaluateWithin ctx n e))
include hev

theorem ownProperty_intact (name : String) {s : EvalState} (hs : ctx.Intact s) :
    ctx.Intact (Eval.ownProperty (Eval.evaluateWithin ctx n) ctx name s).2 ∧
      ∀ q, s.Knows q → (Eval.ownProperty (Eval.evaluateWithin ctx n) ctx name s).2.Knows q := by
  rcases Eval.ownProperty_cases (Eval.evaluateWithin ctx n) ctx name s with
    ⟨r, -, h⟩ | ⟨-, -, h⟩ | ⟨-, -, -, h⟩ | ⟨f, -, -, hf, h⟩ <;> rw [h]
  · exact ⟨hs, fun _ h => h⟩
  · exact ⟨hs, fun _ h => h⟩
  · exact ⟨hs, fun _ h => h⟩
  · obtain ⟨-, hs', hgrow, -⟩ := hev n f { s with inProgress := s.inProgress ++ [name] }
      { s with inProgress := s.inProgress ++ [name] } hs.1 hs
    refine ⟨hs'.resolve ?_ _ ?_, fun q hq => (EvalState.knows_resolved_iff _).2 (.inr (hgrow q hq))⟩
    · have hsound := (ownProperty_sound (evaluateWithin_sound n) name s hs.1).2
      rw [h] at hsound
      exact hsound
    · intro v f' hv hf' left t a ht ha
      rw [hf] at hf'
      cases hf'
      exact ((hev left f t { s with inProgress := s.inProgress ++ [name] } ht hs).2.2.2 a v ha hv).2

theorem ownProperty_closing (k : Nat) (name : String) :
    ctx.closing.rel (Eval.ownProperty (Eval.evaluateWithin ctx k) ctx name)
      (Eval.ownProperty (Eval.evaluateWithin ctx n) ctx name) := by
  intro t s ht hs
  obtain ⟨ht', hx⟩ := ownProperty_sound (evaluateWithin_sound k) name t ht
  have hy := (ownProperty_sound (evaluateWithin_sound n) name s hs.1).2
  obtain ⟨hs', hgrow⟩ := ownProperty_intact hev name hs
  refine ⟨ht', hs', hgrow, fun a b ha hb => ⟨?_, ?_⟩⟩
  · rw [ha] at hx
    rw [hb] at hy
    exact Except.ok.inj ((hx trivial).symm.trans (hy trivial))
  · intro q hq
    rcases Eval.ownProperty_cases (Eval.evaluateWithin ctx k) ctx name t with
      ⟨r, -, h⟩ | ⟨-, -, h⟩ | ⟨-, -, -, h⟩ | ⟨f, -, -, hf, h⟩ <;> rw [h] at ha hq
    · exact .inl hq
    · exact .inl hq
    · exact .inl hq
    · rcases Eval.ownProperty_cases (Eval.evaluateWithin ctx n) ctx name s with
        ⟨r, hr, h'⟩ | ⟨-, -, h'⟩ | ⟨-, -, hf', h'⟩ | ⟨f', -, -, hf', h'⟩ <;> rw [h'] at hb ⊢
      · -- The second evaluator skips the evaluation, and knows all that it would have read.
        rcases (EvalState.knows_resolved_iff _).1 hq with rfl | hq
        · exact .inr ⟨r, hr⟩
        · exact hs.2 name b f (hr.trans (congrArg some hb)) hf k
            { t with inProgress := t.inProgress ++ [name] } a ht ha q hq
      · exact nomatch hb
      · rw [hf] at hf'
        exact nomatch hf'
      · rw [hf] at hf'
        cases hf'
        rcases (EvalState.knows_resolved_iff _).1 hq with rfl | hq
        · exact .inr ((EvalState.knows_resolved_iff _).2 (.inl rfl))
        · obtain ⟨-, -, -, hans⟩ := hev k f { t with inProgress := t.inProgress ++ [name] }
            { s with inProgress := s.inProgress ++ [name] } ht hs
          refine ((hans a b ha hb).2 q hq).imp_right fun hq => ?_
          exact (EvalState.knows_resolved_iff _).2 (.inr hq)

end Levels

theorem evaluateWithin_closing (k n : Nat) (e : Expression) :
    ctx.closing.rel (Eval.evaluateWithin ctx k e) (Eval.evaluateWithin ctx n e) := by
  -- On the levels of the second evaluator; the first one may have any number of them.
  induction n generalizing k e with
  | zero =>
    intro t s ht hs
    exact ⟨(evaluateWithin_sound k e t ht).1, hs, fun _ h => h, fun _ _ _ h => nomatch h⟩
  | succ n ih =>
    have hsucc (k : Nat) :
        ctx.closing.rel (Eval.evaluateWithin ctx (k + 1) e) (Eval.evaluateWithin ctx (n + 1) e) :=
      fun t s ht hs => ctx.closing.level_of_own ctx e (fun c _ => ih k c) (ownProperty_closing ih k)
        { t with depth := t.depth + 1 } { s with depth := s.depth + 1 } ht hs
    cases k with
    | zero =>
      intro t s ht hs
      obtain ⟨-, hs', hgrow, -⟩ := hsucc n s s hs.1 hs
      exact ⟨ht, hs', hgrow, nofun⟩
    | succ k => exact hsucc k

/-! ### A fresh run and a later one -/

/-- A remembered answer is the meaning of the property, if it has one. -/
def Exact (ctx : EvaluationContext) (name : String) (r : EvalResult) : Prop :=
  Settled (ctx.ownMeaning name) → r = ctx.ownMeaning name

/-- The second evaluator is at the same place as the first one and knows at least as much. -/
structure InStep (ctx : EvaluationContext) (t s : EvalState) : Prop where
  sound : t.Remembers ctx.Sound
  intact : ctx.Intact s
  exact : s.Remembers ctx.Exact
  knows : ∀ q, t.Knows q → s.Knows q
  inProgress : t.inProgress = s.inProgress

theorem InStep.unknown {t s : EvalState} (h : ctx.InStep t s) {name : String}
    (hs : s.resolved.get? name = none) : t.resolved.get? name = none := by
  rw [Option.eq_none_iff_forall_ne_some]
  intro r ht
  obtain ⟨r', hr⟩ := h.knows name ⟨r, ht⟩
  rw [hs] at hr
  exact nomatch hr

/-- What the first computation gives the second one gives as well. -/
def keeping (ctx : EvaluationContext) : Simulation Eval Eval where
  rel x y := ∀ t s : EvalState, ctx.InStep t s → ∀ a, (x t).1 = .ok a →
    (y s).1 = .ok a ∧ ctx.InStep (x t).2 (y s).2
  gives _ _ := True
  pure _ _ _ h _ ha := ⟨ha, h⟩
  throw _ _ _ _ _ _ ha := nomatch ha
  bind {α β x y f g} hx hf t s h b hb := by
    rcases hxt : x t with ⟨r, t'⟩
    cases r with
    | error e =>
      rw [Eval.bind_apply_error hxt] at hb
      exact nomatch hb
    | ok a =>
      obtain ⟨ha, h'⟩ := hx t s h a (by rw [hxt])
      have hys : y s = (.ok a, (y s).2) := Prod.ext ha rfl
      rw [hxt] at h'
      rw [Eval.bind_apply_ok hxt] at hb ⊢
      rw [Eval.bind_apply_ok hys]
      exact hf a trivial t' (y s).2 h' b hb

theorem ownProperty_keeping {n : Nat}
    (hev : ∀ e, ctx.keeping.rel (Eval.evaluateWithin ctx n e) (Eval.evaluateWithin ctx n e))
    (name : String) : ctx.keeping.rel (Eval.ownProperty (Eval.evaluateWithin ctx n) ctx name)
      (Eval.ownProperty (Eval.evaluateWithin ctx n) ctx name) := by
  intro t s h a ha
  have hm : ctx.ownMeaning name = .ok a := by
    have hsound := (ownProperty_sound (evaluateWithin_sound n) name t h.sound).2
    rw [ha] at hsound
    exact hsound trivial
  have hsettled : Settled (ctx.ownMeaning name) := by
    rw [hm]
    trivial
  -- What is left to show is that the answer is the same, and that it is exact where remembered.
  suffices hy : (Eval.ownProperty (Eval.evaluateWithin ctx n) ctx name s).1 = .ok a ∧
      (Eval.ownProperty (Eval.evaluateWithin ctx n) ctx name s).2.Remembers ctx.Exact by
    obtain ⟨ht', hs', hgrow, hans⟩ := ownProperty_closing (fun k => evaluateWithin_closing k n) n name
      t s h.sound h.intact
    refine ⟨hy.1, ht', hs', hy.2, fun q hq => ?_, ?_⟩
    · rcases (hans a a ha hy.1).2 q hq with hq | hq
      · exact hgrow q (h.knows q hq)
      · exact hq
    · rw [(ownProperty_tidy (evaluateWithin_tidy n) name t).2,
        (ownProperty_tidy (evaluateWithin_tidy n) name s).2, h.inProgress]
  rcases Eval.ownProperty_cases (Eval.evaluateWithin ctx n) ctx name s with
    ⟨r, hr, hs⟩ | ⟨hr, hmem, hs⟩ | ⟨-, -, hf, hs⟩ | ⟨f, hr, hmem, hf, hs⟩ <;> rw [hs]
  · exact ⟨(h.exact name r hr hsettled).trans hm, h.exact⟩
  · rw [Eval.ownProperty_inProgress (h.unknown hr) (h.inProgress ▸ hmem)] at ha
    exact nomatch ha
  · rw [ownMeaning_stored hf] at hm
    exact ⟨hm, h.exact⟩
  · rw [Eval.ownProperty_pending (h.unknown hr) (h.inProgress ▸ hmem) hf] at ha
    obtain ⟨hans, h'⟩ := hev f { t with inProgress := t.inProgress ++ [name] }
      { s with inProgress := s.inProgress ++ [name] }
      ⟨h.sound, h.intact, h.exact, h.knows, congrArg (· ++ [name]) h.inProgress⟩ a ha
    refine ⟨hans, h'.exact.resolve (fun _ => ?_) _⟩
    rw [hans, hm]

theorem evaluateWithin_keeping (n : Nat) (e : Expression) :
    ctx.keeping.rel (Eval.evaluateWithin ctx n e) (Eval.evaluateWithin ctx n e) := by
  induction n generalizing e with
  | zero => exact fun _ _ _ _ ha => nomatch ha
  | succ n ih =>
    intro t s h a ha
    obtain ⟨hans, h'⟩ := ctx.keeping.level_of_own ctx e (fun c _ => ih c) (ownProperty_keeping ih)
      { t with depth := t.depth + 1 } { s with depth := s.depth + 1 }
      ⟨h.sound, h.intact, h.exact, h.knows, h.inProgress⟩ a ha
    exact ⟨hans, h'.sound, h'.intact, h'.exact, h'.knows, h'.inProgress⟩

end EvaluationContext

/-! ### Reads in any order -/

namespace Eval.Call

open EvaluationContext

variable {ctx : EvaluationContext}

/-- What a fresh evaluator remembers after reads of properties. -/
abbrev afterReads (ctx : EvaluationContext) (names : List String) : EvalState :=
  after ctx (names.map Call.property)

theorem afterReads_concat (names : List String) (name : String) :
    afterReads ctx (names ++ [name]) = (Eval.property ctx name (afterReads ctx names)).2 := by
  unfold afterReads
  rw [List.map_append]
  exact after_concat ctx _ _

theorem afterReads_remembers (names : List String) :
    ctx.Intact (afterReads ctx names) ∧ (afterReads ctx names).Remembers ctx.Found ∧
      (afterReads ctx names).Remembers (fun _ => ctx.Limited) := by
  induction names using List.reverseRecOn with
  | nil =>
    exact ⟨⟨EvalState.remembers_start _, fun _ _ _ h => nomatch h⟩, EvalState.remembers_start _,
      EvalState.remembers_start _⟩
  | append_singleton names name ih =>
    obtain ⟨hintact, hfound, hlimited⟩ := ih
    obtain ⟨-, hfound', -⟩ := property_complete hfound (after_idle _).2 name
    rw [afterReads_concat]
    refine ⟨?_, hfound', ?_⟩
    · rw [Eval.property_eq]
      exact (ownProperty_intact (fun k => evaluateWithin_closing k _) name hintact).1
    · rw [Eval.property_eq]
      exact (ownProperty_limited (evaluateWithin_limited _) name _ hlimited).1

/-- Unless a read ran out of levels, none of the remembered answers did. -/
theorem exists_tooDeep_or_remembers (names : List String) :
    (∃ before q rest, names = before ++ q :: rest ∧
      TooDeep (Eval.property ctx q (afterReads ctx before)).1) ∨
    (afterReads ctx names).Remembers fun _ r => ¬ TooDeep r := by
  induction names using List.reverseRecOn with
  | nil => exact .inr (EvalState.remembers_start _)
  | append_singleton names name ih =>
    by_cases hdeep : TooDeep (Eval.property ctx name (afterReads ctx names)).1
    · exact .inl ⟨names, name, [], rfl, hdeep⟩
    · rcases ih with ⟨before, q, rest, rfl, hq⟩ | ih
      · exact .inl ⟨before, q, rest ++ [name], by simp, hq⟩
      · refine .inr fun q r hr hd => ?_
        rw [afterReads_concat] at hr
        rw [Eval.property_eq] at hr hdeep
        cases r with
        | ok v => exact hd
        | error e =>
          rcases ownProperty_failing (evaluateWithin_failing _) name _ q e hr with h | h
          · exact ih q _ h hd
          · rw [h] at hdeep
            exact hdeep hd

theorem tooDeep_property {names : List String} {name : String}
    (h : TooDeep (Eval.property ctx name (afterReads ctx names)).1) :
    (Eval.property ctx name (afterReads ctx names)).1 =
      .error (.depthExceeded ctx.recursionLimit) := by
  have hlimited : ctx.Limited (Eval.property ctx name (afterReads ctx names)).1 := by
    rw [Eval.property_eq]
    exact (ownProperty_limited (evaluateWithin_limited _) name _ (afterReads_remembers names).2.2).2
  cases hr : (Eval.property ctx name (afterReads ctx names)).1 with
  | ok v =>
    rw [hr] at h
    exact absurd h id
  | error e =>
    rw [hr] at h hlimited
    cases e with
    | depthExceeded limit => rw [hlimited limit rfl]
    | _ => exact absurd h id

/-- A property that has a value when it is read first has it after any earlier reads as well,
    unless one of them ran out of levels; then the property may be answered so too. -/
theorem property_after (ctx : EvaluationContext) (names : List String) (name : String)
    {v : Option Value} (h : (Eval.property ctx name {}).1 = .ok v) :
    (Eval.property ctx name (afterReads ctx names)).1 = .ok v ∨
    (Eval.property ctx name (afterReads ctx names)).1 =
      .error (.depthExceeded ctx.recursionLimit) ∧
    ∃ before q rest, names = before ++ q :: rest ∧
      (Eval.property ctx q (afterReads ctx before)).1 =
        .error (.depthExceeded ctx.recursionLimit) := by
  have hm : ctx.ownMeaning name = .ok v := by
    have hsound := (property_sound (EvalState.remembers_start ctx.Sound) name).2
    rw [h] at hsound
    exact hsound trivial
  have hsettled : Settled (ctx.ownMeaning name) := by
    rw [hm]
    trivial
  obtain ⟨hintact, hfound, -⟩ := afterReads_remembers names
  obtain ⟨hdepth, hidle⟩ := after_idle (names.map Call.property)
  rcases exists_tooDeep_or_remembers names with ⟨before, q, rest, hnames, hq⟩ | hdeep
  · rcases (property_complete hfound hidle name).1 hsettled with hans | hans
    · exact .inl (hans.trans hm)
    · exact .inr ⟨tooDeep_property hans, before, q, rest, hnames, tooDeep_property hq⟩
  · have hstep : ctx.InStep {} (afterReads ctx names) := by
      refine ⟨EvalState.remembers_start _, hintact, fun q r hr hs => ?_, fun q hq => ?_, hidle.symm⟩
      · exact (hfound q r hr hs).resolve_right (hdeep q r hr)
      · obtain ⟨r, hr⟩ := hq
        exact nomatch hr
    left
    rw [Eval.property_eq] at h ⊢
    rw [hdepth]
    exact (ownProperty_keeping (evaluateWithin_keeping _) name {} _ hstep v h).1

end Eval.Call

/-- A read that is remembered serves the later one. -/
theorem negatedText_property_after :
    (Eval.property (negatedText 3) "text" {}).1 = .ok (some (.text "X")) ∧
    ((Eval.property (negatedText 3) "text" (Eval.Call.afterReads (negatedText 3) ["negated"])).1 =
        .ok (some (.text "X")) ∨
      (Eval.property (negatedText 3) "text" (Eval.Call.afterReads (negatedText 3) ["negated"])).1 =
        .error (.depthExceeded 3) ∧
      ∃ before q rest, ["negated"] = before ++ q :: rest ∧
        (Eval.property (negatedText 3) q (Eval.Call.afterReads (negatedText 3) before)).1 =
          .error (.depthExceeded 3)) :=
  ⟨rfl, Eval.Call.property_after (negatedText 3) ["negated"] "text" rfl⟩

/-- With two levels the text is found when it is read first, and not after a property that reads
    it too deep down. -/
theorem negatedText_exceeds :
    (Eval.property (negatedText 2) "text" {}).1 = .ok (some (.text "X")) ∧
    (Eval.property (negatedText 2) "text" (Eval.Call.afterReads (negatedText 2) ["negated"])).1 =
      .error (.depthExceeded 2) :=
  ⟨rfl, rfl⟩

end EntityFormulas
