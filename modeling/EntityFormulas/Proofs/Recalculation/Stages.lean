/-
  EntityFormulas/Proofs/Recalculation/Stages.lean
  ===============================================
  **One task among others.**

  `Task.Goes` says what a task does in one step: the stage that it comes to, and
  what its call makes of the store.  Nothing else moves a task: other tasks,
  calls and the worker leave it where it is, and a number that is in use is not
  given to a task again (`get?_of_step`).
-/
import EntityFormulas.Proofs.Recalculation.Calm
import EntityFormulas.Proofs.Recalculation.Publication

namespace EntityFormulas

/-! ### The step of a task -/

/-- What a task can do in a state of the store: the stage that it comes to, and the state that it
    leaves the store in.  How the task of a drain ends is not among it. -/
inductive Task.Goes {σ : Type} (engine : Engine σ) (t : Task) (s : σ) : Stage → σ → Prop where
  | arrive {lock : Nat} (hs : t.stage = .arriving) : Goes engine t s (.waiting lock) s
  | acquire {lock resume : Nat} {now : String} (hs : t.stage = .waiting lock) :
    Goes engine t s (.reading lock resume (t.plan engine.settings now).run) s
  | fetch {lock resume resume' : Nat} {tenant : String} {ids : List String}
    {next : Except StoreError (List Entity) → Lookup (Except StoreError Plan)}
    (hs : t.stage = .reading lock resume (.entities tenant ids next)) :
    Goes engine t s (.reading lock resume' (next (engine.store.fetch tenant ids s).1))
      (engine.store.fetch tenant ids s).2
  | relate {lock resume resume' : Nat} {tenant entity : String}
    {next : Except StoreError Relationships → Lookup (Except StoreError Plan)}
    (hs : t.stage = .reading lock resume (.relationships tenant entity next)) :
    Goes engine t s (.reading lock resume' (next (engine.store.relationships tenant entity s).1))
      (engine.store.relationships tenant entity s).2
  | decide {lock resume : Nat} {plan : Plan}
    (hs : t.stage = .reading lock resume (.done (.ok plan))) :
    Goes engine t s (.writing lock plan (plan.records t.key.entity)) s
  | abandon {lock resume : Nat} {e : StoreError}
    (hs : t.stage = .reading lock resume (.done (.error e))) :
    Goes engine t s (.leaving lock (.error (.load e))) s
  | write {lock : Nat} {plan : Plan} {r : StateRecord} {rest : List StateRecord} {s' : σ}
    (hs : t.stage = .writing lock plan (r :: rest))
    (hw : engine.store.write t.key.tenant r s = (.ok (), s')) :
    Goes engine t s (.writing lock plan rest) s'
  | refuse {lock : Nat} {plan : Plan} {r : StateRecord} {rest : List StateRecord} {e : PassError}
    {s' : σ} (hs : t.stage = .writing lock plan (r :: rest))
    (hw : engine.store.write t.key.tenant r s = (.error e, s')) :
    Goes engine t s (.leaving lock (.error e)) s'
  | settle {lock : Nat} {plan : Plan} (hs : t.stage = .writing lock plan []) :
    Goes engine t s (.leaving lock (.ok plan.outcome?)) s
  | release {lock : Nat} {r : TaskResult} (hs : t.stage = .leaving lock r) :
    Goes engine t s (.closing lock r) s
  | close {lock : Nat} {r : TaskResult} (hs : t.stage = .closing lock r) :
    Goes engine t s (Core.closed t r) s

/-- Numbers are given in order. -/
theorem Core.Step.fresh_le {σ : Type} {engine : Engine σ} {c d : Core σ}
    (hstep : Core.Step engine c d) : c.fresh ≤ d.fresh := by
  cases hstep with
  | make ht hs hl => exact Nat.le_succ _
  | @close id t lock r ht hs =>
    refine Nat.le_of_eq ?_
    show c.fresh = (c.closeLock t.key lock).fresh
    unfold Core.closeLock
    dsimp only
    split
    · split <;> rfl
    · rfl
  | _ => exact Nat.le_refl _

namespace Handler

variable {σ : Type} {engine : Engine σ} {h h' : Handler σ} {id : Nat} {t : Task}

theorem goes_stepReading {lock resume : Nat} {program : Lookup (Except StoreError Plan)}
    (hs : t.stage = .reading lock resume program) :
    let h' := h.stepReading engine id t lock resume program
    ∃ stage, t.Goes engine h.store stage h'.store ∧ h.Moves id t stage h' := by
  cases program with
  | done r =>
    cases r with
    | error e => exact ⟨_, .abandon hs, rfl, rfl, rfl⟩
    | ok plan => exact ⟨_, .decide hs, rfl, rfl, rfl⟩
  | entities tenant ids next => exact ⟨_, .fetch hs, rfl, rfl, rfl⟩
  | relationships tenant entity next => exact ⟨_, .relate hs, rfl, rfl, rfl⟩

theorem goes_stepWriting {lock : Nat} {plan : Plan} {rest : List StateRecord}
    (hs : t.stage = .writing lock plan rest) :
    let h' := h.stepWriting engine id t lock plan rest
    ∃ stage, t.Goes engine h.store stage h'.store ∧ h.Moves id t stage h' := by
  cases rest with
  | nil =>
    obtain ⟨⟨hstore, -⟩, hmoves⟩ := h.moves_settling engine id t lock plan
    refine ⟨_, ?_, hmoves⟩
    rw [hstore]
    exact .settle hs
  | cons r rest =>
    unfold stepWriting
    dsimp only
    split
    · rename_i s' hw
      exact ⟨_, .write hs hw, rfl, rfl, rfl⟩
    · rename_i e s' hw
      refine ⟨_, ?_, h.moves_refused engine id t lock plan e s'⟩
      show t.Goes engine h.store _
        (({ h with store := s' }).conclude engine t plan (.error e)).store
      obtain ⟨_, heq⟩ := ({ h with store := s' }).conclude_error_frame engine t plan e
      rw [heq]
      exact .refuse hs hw

/-- Every step of a task takes it to a stage that it can come to, and leaves calls and batches
    alone; only the last step of a drain is another one. -/
theorem goes_stepTask (hlanding : ∀ r, t.stage ≠ .landing r)
    (hstep : h.stepTask engine id t = some h') :
    ∃ stage, t.Goes engine h.store stage h'.store ∧ h.Moves id t stage h' := by
  cases stepTask_cases hstep with
  | arrive hs =>
    obtain ⟨⟨hstore, -⟩, hmoves⟩ := h.moves_arriving id t
    refine ⟨_, ?_, hmoves⟩
    rw [hstore]
    exact .arrive hs
  | acquire hs => exact ⟨_, .acquire hs, rfl, rfl, rfl⟩
  | read hs => exact goes_stepReading hs
  | write hs => exact goes_stepWriting hs
  | release hs => exact ⟨_, .release hs, rfl, rfl, rfl⟩
  | @close lock r hs =>
    obtain ⟨⟨hstore, -⟩, hmoves⟩ := h.moves_closing id t lock r
    refine ⟨_, ?_, hmoves⟩
    rw [hstore]
    exact .close hs
  | land hs => exact absurd hs (hlanding _)

/-- The last step of a drain only ends its task. -/
theorem landing_stepTask {r : TaskResult} (hs : t.stage = .landing r)
    (hstep : h.stepTask engine id t = some h') :
    h'.tasks = h.tasks ∨ h'.tasks = h.tasks.erase id := by
  have heq : h' = h.stepLanding id t r := by
    unfold stepTask at hstep
    rw [hs] at hstep
    exact (Option.some.inj hstep).symm
  rw [heq]
  unfold stepLanding
  cases t.job with
  | notification property => exact .inl rfl
  | drain names actor batch =>
    refine .inr ?_
    show (h.leaveFlight t.key).tasks.erase id = _
    obtain ⟨_, heq⟩ := h.leaveFlight_frame t.key
    rw [heq]

/-! ### Numbers -/

/-- A step of a task is none of the business of other tasks. -/
theorem get?_stepTask (hstep : h.stepTask engine id t = some h') {j : Nat} (hj : j ≠ id) :
    h'.tasks.get? j = h.tasks.get? j := by
  by_cases hlanding : ∃ r, t.stage = .landing r
  · obtain ⟨r, hs⟩ := hlanding
    rcases landing_stepTask hs hstep with htasks | htasks <;> rw [htasks]
    rw [Table.get?_erase, if_neg (Ne.symm hj)]
  · obtain ⟨stage, -, hm⟩ := goes_stepTask (fun r hs => hlanding ⟨r, hs⟩) hstep
    rw [hm.tasks, Table.get?_insert, if_neg (Ne.symm hj)]

theorem fresh_stepTask (ht : h.tasks.get? id = some t) (hstep : h.stepTask engine id t = some h') :
    h.fresh ≤ h'.fresh := by
  rcases steps_stepTask engine ht hstep with hcore | hstep
  · exact Nat.le_of_eq (congrArg Core.fresh hcore).symm
  · exact hstep.fresh_le

theorem fresh_step {a : Action} (hstep : h.step engine a = some h') : h.fresh ≤ h'.fresh := by
  by_cases ha : ∃ id, a = .task id
  · obtain ⟨id, rfl⟩ := ha
    obtain ⟨t, ht, hstep⟩ := Option.bind_eq_some_iff.1 hstep
    exact fresh_stepTask ht hstep
  · exact (Aside.step hstep fun id heq => ha ⟨id, heq⟩).fresh

/-- A task after an action is as it was before, has just been started, or has made a step. -/
theorem origin {a : Action} (hstep : h.step engine a = some h') (ht : h'.tasks.get? id = some t) :
    h.tasks.get? id = some t ∨ (h.fresh ≤ id ∧ id < h'.fresh ∧ t.stage = .arriving) ∨
      ∃ u stage, a = .task id ∧ h.tasks.get? id = some u ∧ t = { u with stage } ∧
        u.Goes engine h.store stage h'.store := by
  by_cases htask : ∃ j, a = .task j
  · obtain ⟨j, rfl⟩ := htask
    obtain ⟨u, hu, hstep⟩ := Option.bind_eq_some_iff.1 hstep
    by_cases hj : id = j
    · subst hj
      by_cases hlanding : ∃ r, u.stage = .landing r
      · obtain ⟨r, hs⟩ := hlanding
        rcases landing_stepTask hs hstep with htasks | htasks <;> rw [htasks] at ht
        · exact .inl ht
        · rw [Table.get?_erase, if_pos rfl] at ht
          cases ht
      · obtain ⟨stage, hgoes, hm⟩ := goes_stepTask (fun r hs => hlanding ⟨r, hs⟩) hstep
        rw [hm.tasks, Table.get?_insert, if_pos rfl] at ht
        cases ht
        exact .inr (.inr ⟨u, stage, rfl, hu, rfl, hgoes⟩)
    · rw [get?_stepTask hstep hj] at ht
      exact .inl ht
  · rcases (Aside.step hstep fun j heq => htask ⟨j, heq⟩).kept id t ht with ht | hnew
    · exact .inl ht
    · exact .inr (.inl hnew)

/-- A task with a number that was given before has come from its own step, or is where it was. -/
theorem get?_of_step {a : Action} (hstep : h.step engine a = some h') (hid : id < h.fresh)
    (ha : a ≠ .task id) (ht : h'.tasks.get? id = some t) : h.tasks.get? id = some t := by
  rcases origin hstep ht with ht | ⟨hle, -, -⟩ | ⟨u, stage, htask, -, -, -⟩
  · exact ht
  · omega
  · exact absurd htask ha

/-- A number that was given once stays free when its task is gone. -/
theorem get?_eq_none_of_step {a : Action} (hstep : h.step engine a = some h') (hid : id < h.fresh)
    (hnone : h.tasks.get? id = none) : h'.tasks.get? id = none := by
  refine Option.eq_none_iff_forall_ne_some.2 fun t ht => ?_
  rcases origin hstep ht with ht | ⟨hle, -, -⟩ | ⟨u, stage, -, hu, -, -⟩
  · rw [hnone] at ht
    cases ht
  · omega
  · rw [hnone] at hu
    cases hu

end Handler

end EntityFormulas
