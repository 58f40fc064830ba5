/-
  EntityFormulas/Proofs/Recalculation/Exclusion.lean
  ==================================================
  **Passes over one entity never overlap.**

  `Orderly` ties locks to the tasks that use them: a handle of a task is on the
  lock of its entity, and the lock counts these handles.  What it leaves open is
  that a lock may stay when nobody has a handle on it any more.  It does not: a
  task that makes a lock has a handle on it, and the one that gives back the
  last handle takes the lock away (`Tended`).  Both hold in every state that a
  new handler reaches, with any store and in either mode, since they say nothing
  of what is read and written.
-/
import EntityFormulas.Proofs.Recalculation.Quiescence

namespace EntityFormulas

open Relation (ReflTransGen)

namespace Core

variable {σ : Type} {c d : Core σ}

/-- Some task has a handle on every lock that an entity has. -/
def Tended (c : Core σ) : Prop :=
  ∀ key lock, c.lockOf key = some lock → 0 < c.tasks.count (Task.handles lock)

/-! ### What steps keep -/

/-- A task changes, or comes or goes, and the locks that are left are not those that it gives up. -/
theorem Tended.of_changes (h : c.Tended) {id : Nat} {a b : Option Task}
    (hch : c.tasks.Changes d.tasks id a b)
    (hkeep : ∀ key lock, d.lockOf key = some lock → c.lockOf key = some lock ∧
      (a.any (Task.handles lock) = true → b.any (Task.handles lock) = true)) : d.Tended := by
  intro key lock hl
  obtain ⟨hl, hgives⟩ := hkeep key lock hl
  have hcount := hch.count (Task.handles lock)
  have hpos := h key lock hl
  cases ha : a.any (Task.handles lock) with
  | false =>
    rw [ha, Bool.toNat_false] at hcount
    omega
  | true =>
    rw [ha, hgives ha] at hcount
    omega

/-- A task moves on without giving up its handle. -/
theorem Tended.setStage (h : c.Tended) {id : Nat} {t : Task} (ht : c.tasks.get? id = some t)
    {stage : Stage} (hkeep : ∀ lock, t.stage.handle? = some lock → stage.handle? = some lock) :
    (c.setStage id t stage).Tended := by
  refine h.of_changes (Table.changes_insert ht { t with stage }) fun key lock hl => ⟨hl, ?_⟩
  simpa [Task.handles] using hkeep lock

/-- A new task has no handle yet. -/
theorem Tended.arrive (h : c.Tended) (ho : c.Orderly) {t : Task}
    (htasks : d.tasks = c.tasks.insert c.fresh t) (hlockOf : d.lockOf = c.lockOf) : d.Tended := by
  have hch : c.tasks.Changes d.tasks c.fresh none (some t) := by
    rw [htasks]
    exact Table.changes_insert ho.get?_fresh t
  refine h.of_changes hch fun key lock hl => ⟨?_, fun ha => (nomatch ha)⟩
  rwa [hlockOf] at hl

/-- A task that has given its handle back goes. -/
theorem Tended.depart (h : c.Tended) {id : Nat} {t : Task} (ht : c.tasks.get? id = some t)
    (hs : t.stage.handle? = none) (htasks : d.tasks = c.tasks.erase id)
    (hlockOf : d.lockOf = c.lockOf) : d.Tended := by
  have hch : c.tasks.Changes d.tasks id (some t) none := by
    rw [htasks]
    exact Table.changes_erase ht
  refine h.of_changes hch fun key lock hl => ⟨?_, fun ha => ?_⟩
  · rwa [hlockOf] at hl
  · simp [Task.handles, hs] at ha

theorem Tended.make (h : c.Tended) {id : Nat} {t : Task} (ht : c.tasks.get? id = some t)
    (hs : t.stage = .arriving) : ((c.makeLock t.key).setStage id t (.waiting c.fresh)).Tended := by
  intro key lock hl
  have hcount := (Table.changes_insert ht ({ t with stage := .waiting c.fresh } : Task)).count
    (Task.handles lock)
  have hold : (some t).any (Task.handles lock) = false := by simp [Task.handles, hs, Stage.handle?]
  rw [hold, Bool.toNat_false] at hcount
  show 0 < (c.tasks.insert id { t with stage := .waiting c.fresh }).count (Task.handles lock)
  replace hl : Function.update c.lockOf t.key (some c.fresh) key = some lock := hl
  rw [Function.update_apply] at hl
  split at hl
  · cases hl
    have hnew : (some ({ t with stage := .waiting c.fresh } : Task)).any (Task.handles c.fresh) =
        true := by simp [Task.handles, Stage.handle?]
    rw [hnew, Bool.toNat_true] at hcount
    omega
  · have := h key lock hl
    omega

/-- The lock of an entity goes with the last handle on it. -/
theorem lockOf_closeLock {key : EntityKey} {lock n : Nat} {held : Bool}
    (hof : c.lockOf key = some lock) (hlock : c.locks lock = some ⟨n, held⟩) :
    (c.closeLock key lock).lockOf =
      if n ≤ 1 then Function.update c.lockOf key none else c.lockOf := by
  unfold closeLock
  dsimp only
  rw [hof]
  dsimp only
  rw [Function.update_self, hlock, Option.map_some]
  split
  · rename_i heq
    have hn : n - 1 = 0 := congrArg PassLock.handles (Option.some.inj heq)
    rw [if_pos (by omega)]
  · rename_i hne
    rw [if_neg]
    intro hn
    obtain hn | hn : n = 0 ∨ n = 1 := by omega
    · subst hn
      exact hne held rfl
    · subst hn
      exact hne held rfl

theorem Tended.close (h : c.Tended) (ho : c.Orderly) {id : Nat} {t : Task}
    (ht : c.tasks.get? id = some t) {lock : Nat} {result : TaskResult}
    (hs : t.stage = .closing lock result) :
    ((c.closeLock t.key lock).setStage id t (closed t result)).Tended := by
  have hhandles (other : Nat) : t.handles other = true ↔ other = lock := by
    simp [Task.handles, hs, Stage.handle?, eq_comm]
  have hof : c.lockOf t.key = some lock := ho.known id t lock ht ((hhandles lock).2 rfl)
  obtain ⟨held, hlock, -⟩ := ho.counted t.key lock hof
  have hclosed (other : Nat) : ({ t with stage := closed t result } : Task).handles other = false := by
    unfold closed
    cases hj : t.job <;> simp [Task.handles, Stage.handle?]
  intro key other hl
  replace hl : (c.closeLock t.key lock).lockOf key = some other := hl
  show 0 < ((c.closeLock t.key lock).tasks.insert id { t with stage := closed t result }).count
    (Task.handles other)
  have hcount := (Table.changes_insert ht ({ t with stage := closed t result } : Task)).count
    (Task.handles other)
  rw [(closeLock_keeps c t.key lock).2.2]
  rw [Option.any_some, Option.any_some, hclosed, Bool.toNat_false] at hcount
  rw [lockOf_closeLock hof hlock] at hl
  -- Others have handles on a lock that is still there, if it is the lock of this entity.
  split at hl
  · rw [Function.update_apply] at hl
    split at hl
    · cases hl
    · rename_i hkey
      have hno : t.handles other = false := by
        rw [← Bool.not_eq_true, hhandles]
        rintro rfl
        exact hkey (ho.single key t.key _ hl hof)
      have := h key other hl
      rw [hno, Bool.toNat_false] at hcount
      omega
  · by_cases hother : other = lock
    · subst hother
      have := Bool.toNat_le (t.handles other)
      omega
    · have hno : t.handles other = false := by
        rw [← Bool.not_eq_true, hhandles]
        exact hother
      have := h key other hl
      rw [hno, Bool.toNat_false] at hcount
      omega

theorem Tended.notify (h : c.Tended) (ho : c.Orderly) (n : Notification) : (c.notify n).Tended :=
  h.arrive ho (d := c.notify n) rfl rfl

theorem Tended.issue (h : c.Tended) (ho : c.Orderly) (hissue : c.Issue d) : d.Tended := by
  cases hissue with
  | number fresh hle => exact h
  | launch key actor batch => exact h.arrive ho (d := c.launch key actor batch) rfl rfl

theorem Tended.step (h : c.Tended) (ho : c.Orderly) {engine : Engine σ}
    (hstep : c.Step engine d) : d.Tended := by
  cases hstep with
  | @forget id t result ht hs =>
    exact h.depart (d := { c with tasks := c.tasks.erase id }) ht (by rw [hs]; rfl) rfl rfl
  | @land id t names actor batch result ht hs hj =>
    exact h.depart (d := c.land t.key id) ht (by rw [hs]; rfl) rfl rfl
  | make ht hs hl => exact h.make ht hs
  | close ht hs => exact h.close ho ht hs
  | join ht hs hl =>
    refine Tended.setStage (c := c.joinLock _) h ht fun lock hlock => ?_
    rw [hs] at hlock
    exact nomatch hlock
  | acquire ht hs hl resume now =>
    refine Tended.setStage (c := c.setHeld _ true) h ht fun lock hlock => ?_
    rwa [hs] at hlock
  | fetch ht hs resume' =>
    refine Tended.setStage (c := { c with store := _ }) h ht fun lock hlock => ?_
    rwa [hs] at hlock
  | relate ht hs =>
    refine Tended.setStage (c := { c with store := _ }) h ht fun lock hlock => ?_
    rwa [hs] at hlock
  | write ht hs hw =>
    refine Tended.setStage (c := { c with store := _ }) h ht fun lock hlock => ?_
    rwa [hs] at hlock
  | refuse ht hs hw =>
    refine Tended.setStage (c := { c with store := _ }) h ht fun lock hlock => ?_
    rwa [hs] at hlock
  | enqueue ht hs hj =>
    refine Tended.setStage (c := c.enqueue _ _) h ht fun lock hlock => ?_
    rwa [hs] at hlock
  | release ht hs =>
    refine Tended.setStage (c := c.setHeld _ false) h ht fun lock hlock => ?_
    rwa [hs] at hlock
  | decide ht hs =>
    refine h.setStage ht fun lock hlock => ?_
    rwa [hs] at hlock
  | abandon ht hs =>
    refine h.setStage ht fun lock hlock => ?_
    rwa [hs] at hlock
  | settle ht hs hj =>
    refine h.setStage ht fun lock hlock => ?_
    rwa [hs] at hlock

end Core

/-! ### Runs -/

namespace Handler

variable {σ : Type} {engine : Engine σ} {s : σ} {h : Handler σ}

/-- What does not depend on any task keeps the books in order. -/
theorem tended_issues {c d : Core σ} (hc : c.Orderly ∧ c.Ended ∧ c.Tended)
    (hissues : ReflTransGen Core.Issue c d) : d.Orderly ∧ d.Ended ∧ d.Tended := by
  induction hissues with
  | refl => exact hc
  | tail _ hissue ih => exact ⟨ih.1.issue hissue, ih.2.1.issue hissue, ih.2.2.issue ih.1 hissue⟩

/-- Every action keeps the books in order. -/
theorem tended_step {h' : Handler σ} {a : Action}
    (hh : h.core.Orderly ∧ h.core.Ended ∧ h.core.Tended) (hstep : h.step engine a = some h') :
    h'.core.Orderly ∧ h'.core.Ended ∧ h'.core.Tended := by
  obtain ⟨ho, he, ht⟩ := hh
  rcases h.step_core engine hstep with ⟨n, -, hcore⟩ | ⟨-, hissues | hstep⟩
  · rw [hcore]
    exact ⟨ho.notify n, he.arrive (d := h.core.notify n) rfl rfl, ht.notify ho n⟩
  · exact tended_issues ⟨ho, he, ht⟩ hissues
  · exact ⟨ho.step he hstep, he.step hstep, ht.step ho hstep⟩

/-- The books of a handler are in order in every state that it reaches. -/
theorem Reaches.tended (hr : Reaches engine (start engine.settings s) h) :
    h.core.Orderly ∧ h.core.Ended ∧ h.core.Tended := by
  induction hr with
  | refl =>
    refine ⟨.start _ s, .start _ s, ?_⟩
    rw [core_start]
    exact fun _ _ hl => (nomatch hl)
  | step a _ hstep ih => exact tended_step ih hstep

/-- In every state that a new handler reaches, at most one task of an entity is between the loading
    and the last writing of its pass, a handle of a task is on the lock that the entity has, and an
    entity has no lock if none of its tasks has a handle. -/
theorem Reaches.passes_apart (hr : Reaches engine (start engine.settings s) h) :
    (∀ i j t u, h.tasks.get? i = some t → h.tasks.get? j = some u → t.key = u.key →
      t.stage.holds = true → u.stage.holds = true → i = j) ∧
    (∀ i t lock, h.tasks.get? i = some t → t.stage.handle? = some lock →
      h.passLocks.get? t.key = some lock) ∧
    ∀ key, (∀ i t, h.tasks.get? i = some t → t.key = key → t.stage.handle? = none) →
      h.passLocks.get? key = none := by
  obtain ⟨ho, -, htended⟩ := hr.tended
  have hknown (i : Nat) (t : Task) (lock : Nat) (ht : h.tasks.get? i = some t)
      (hl : t.stage.handle? = some lock) : h.passLocks.get? t.key = some lock :=
    ho.known i t lock ht (by simp [Task.handles, hl])
  refine ⟨fun i j t u ht hu hkey => ho.exclusive ht hu hkey, hknown, fun key hnone => ?_⟩
  cases hl : h.passLocks.get? key with
  | none => rfl
  | some lock =>
    obtain ⟨i, t, ht, hh⟩ := Table.count_pos_iff.1 (htended key lock hl)
    have hhandle : t.stage.handle? = some lock := of_decide_eq_true hh
    have hkey : t.key = key := ho.single t.key key lock (hknown i t lock ht hhandle) hl
    rw [hnone i t ht hkey] at hhandle
    cases hhandle

/-! ### Two tasks of one entity -/

/-- Carries out one action after another, if they are possible. -/
def acts (engine : Engine σ) : List Action → Handler σ → Option (Handler σ)
  | [], h => some h
  | a :: rest, h => (h.step engine a).bind (acts engine rest)

theorem Reaches.acts {h₀ h' : Handler σ} {as : List Action} (hr : Reaches engine h₀ h)
    (ha : Handler.acts engine as h = some h') : Reaches engine h₀ h' := by
  induction as generalizing h with
  | nil =>
    cases ha
    exact hr
  | cons a rest ih =>
    obtain ⟨h₁, hstep, hrest⟩ := Option.bind_eq_some_iff.1 ha
    exact ih (.step a hr hstep) hrest

/-- A drain is at work on an entity when a notification of it comes in. -/
def contended : List Action :=
  let task (id count : Nat) : List Action := List.replicate count (.task id)
  [.notify ⟨echoing.key, "y"⟩] ++ task 0 7 ++ [.begin (.flush none "user"), .call 2] ++
    [.notify ⟨echoing.key, "y"⟩] ++ task 4 3 ++ task 5 1

/-- The task of the notification waits for the lock of the drain. -/
theorem contended_apart : ∃ h t u,
    Reaches plainEngine (start plainEngine.settings (MemoryStore.insert {} echoing)) h ∧
      h.tasks.get? 4 = some t ∧ h.tasks.get? 5 = some u ∧ t.key = u.key ∧ t.stage.holds = true ∧
      u.stage.handle? = some 6 ∧ u.stage.holds = false ∧ h.passLocks.get? u.key = some 6 := by
  have hacts : (acts plainEngine contended
      (start plainEngine.settings (MemoryStore.insert {} echoing))).any (fun h =>
        (h.tasks.get? 4).any fun t => (h.tasks.get? 5).any fun u =>
          t.key = u.key ∧ t.stage.holds ∧ u.stage.handle? = some 6) = true := by
    decide +kernel
  obtain ⟨h, hrun, htasks⟩ := (Option.any_eq_true ..).1 hacts
  obtain ⟨t, ht, htask⟩ := (Option.any_eq_true ..).1 htasks
  obtain ⟨u, hu, hboth⟩ := (Option.any_eq_true ..).1 htask
  obtain ⟨hkey, hholds, hhandle⟩ := of_decide_eq_true hboth
  have hr : Reaches plainEngine (start plainEngine.settings (MemoryStore.insert {} echoing)) h :=
    (Reaches.refl _).acts hrun
  obtain ⟨hapart, hof, -⟩ := hr.passes_apart
  refine ⟨h, t, u, hr, ht, hu, hkey, hholds, hhandle, ?_, hof 5 u 6 hu hhandle⟩
  cases hwaits : u.stage.holds with
  | false => rfl
  | true => exact absurd (hapart 4 5 t u ht hu hkey hholds hwaits) (by decide)

end Handler

end EntityFormulas
