/-
  EntityFormulas/Proofs/Recalculation/Locks.lean
  ==============================================
  **Locks keep tasks apart.**

  The handles that a lock counts are those of the tasks that have one, a lock is
  held exactly when one task holds it, and an entity has one lock at a time
  (`Orderly`).  So two tasks never work on one entity at once (`exclusive`), and
  an entity that is not in flight has no task that drains it
  (`not_drained_of_idle`).
-/
import EntityFormulas.Proofs.Recalculation.Steps

namespace EntityFormulas

/-! ### Counting in tables -/

namespace Table

variable {κ α : Type} [DecidableEq κ]

/-- The number of entries with a property. -/
def count (t : Table κ α) (p : α → Bool) : Nat := t.entries.countP fun e => p e.2

theorem countP_put_of_find? {p : α → Bool} {key : κ} {a b : α} {entries : List (κ × α)}
    (h : find? key entries = some a) :
    (put key b entries).countP (fun e => p e.2) + (p a).toNat =
      entries.countP (fun e => p e.2) + (p b).toNat := by
  induction entries with
  | nil => exact nomatch h
  | cons e rest ih =>
    obtain ⟨k, x⟩ := e
    unfold find? at h
    unfold put
    by_cases hk : k = key
    · rw [if_pos hk] at h ⊢
      cases h
      rw [List.countP_cons, List.countP_cons]
      cases p a <;> cases p b <;> simp
    · rw [if_neg hk] at h ⊢
      have := ih h
      rw [List.countP_cons, List.countP_cons]
      omega

theorem countP_put_of_find?_none {p : α → Bool} {key : κ} {b : α} {entries : List (κ × α)}
    (h : find? key entries = none) :
    (put key b entries).countP (fun e => p e.2) =
      entries.countP (fun e => p e.2) + (p b).toNat := by
  induction entries with
  | nil => cases hb : p b <;> simp [put, hb]
  | cons e rest ih =>
    obtain ⟨k, x⟩ := e
    unfold find? at h
    unfold put
    by_cases hk : k = key
    · rw [if_pos hk] at h
      cases h
    · rw [if_neg hk] at h ⊢
      have := ih h
      rw [List.countP_cons, List.countP_cons]
      omega

theorem countP_erase {p : α → Bool} {key : κ} {entries : List (κ × α)}
    (hn : (entries.map Prod.fst).Nodup) :
    (entries.filter fun e => e.1 ≠ key).countP (fun e => p e.2) +
        ((find? key entries).any p).toNat = entries.countP (fun e => p e.2) := by
  induction entries with
  | nil => rfl
  | cons e rest ih =>
    obtain ⟨k, x⟩ := e
    obtain ⟨hk, hrest⟩ := List.nodup_cons.1 hn
    have hih := ih hrest
    unfold find?
    by_cases hkey : k = key
    · have hnone : find? key rest = none := by
        cases hf : find? key rest with
        | none => rfl
        | some y =>
          have hmem : (key, y) ∈ rest := (mem_iff_find? hrest).2 hf
          exact absurd (List.mem_map_of_mem (f := Prod.fst) hmem) (hkey ▸ hk)
      rw [hnone] at hih
      rw [if_pos hkey, List.filter_cons_of_neg (by simp [hkey]), List.countP_cons]
      cases hx : p x <;> simp [hx] at hih ⊢ <;> omega
    · rw [if_neg hkey, List.filter_cons_of_pos (by simp [hkey]), List.countP_cons, List.countP_cons]
      omega

/-- Two tables that differ at one key at most, with what they have there. -/
structure Changes (t t' : Table κ α) (key : κ) (a b : Option α) : Prop where
  before : t.get? key = a
  after : t'.get? = Function.update t.get? key b
  count : ∀ p, t'.count p + (a.any p).toNat = t.count p + (b.any p).toNat

theorem changes_insert {t : Table κ α} {key : κ} {a : Option α} (h : t.get? key = a) (b : α) :
    t.Changes (t.insert key b) key a (some b) := by
  refine ⟨h, t.get?_insert_eq_update key b, fun p => ?_⟩
  cases a with
  | some a => exact countP_put_of_find? h
  | none => exact countP_put_of_find?_none h

theorem changes_erase {t : Table κ α} {key : κ} {a : Option α} (h : t.get? key = a) :
    t.Changes (t.erase key) key a none := by
  refine ⟨h, t.get?_erase_eq_update key, fun p => ?_⟩
  subst h
  exact countP_erase t.nodup

theorem count_pos_iff {t : Table κ α} {p : α → Bool} :
    0 < t.count p ↔ ∃ key a, t.get? key = some a ∧ p a = true := by
  unfold count
  rw [List.countP_pos_iff]
  constructor
  · rintro ⟨⟨key, a⟩, hmem, hp⟩
    exact ⟨key, a, mem_entries_iff.1 hmem, hp⟩
  · rintro ⟨key, a, ha, hp⟩
    exact ⟨(key, a), mem_entries_iff.2 ha, hp⟩

/-- What at most one entry has two entries do not have. -/
theorem eq_of_count_le_one {t : Table κ α} {p : α → Bool} (h : t.count p ≤ 1) {i j : κ} {a b : α}
    (hi : t.get? i = some a) (ha : p a = true) (hj : t.get? j = some b) (hb : p b = true) :
    i = j := by
  by_contra hij
  have herase := (changes_erase hi).count p
  have hpos : 0 < (t.erase i).count p := by
    refine count_pos_iff.2 ⟨j, b, ?_, hb⟩
    rw [get?_erase, if_neg hij]
    exact hj
  simp [ha] at herase
  omega

end Table

/-! ### What tasks do -/

namespace Task

/-- Whether the task has a handle on the lock. -/
def handles (lock : Nat) (t : Task) : Bool := t.stage.handle? = some lock

/-- Whether the task holds the lock. -/
def holds (lock : Nat) (t : Task) : Bool := t.stage.holds && t.handles lock

theorem exists_handles {t : Task} (h : t.stage.holds = true) : ∃ lock, t.handles lock = true := by
  unfold handles
  cases hs : t.stage <;> rw [hs] at h <;> simp [Stage.holds, Stage.handle?] at h ⊢

/-- Whether the task drains the entity. -/
def drains (key : EntityKey) (t : Task) : Bool :=
  match t.job with
  | .drain .. => t.key = key
  | .notification _ => false

end Task

/-! ### The books of a handler -/

/-- What locks and counts say is what the tasks do. -/
structure Core.Orderly {σ : Type} (c : Core σ) : Prop where
  numbered : ∀ id t, c.tasks.get? id = some t → id < c.fresh
  named : ∀ key lock, c.lockOf key = some lock → lock < c.fresh
  single : ∀ key key' lock, c.lockOf key = some lock → c.lockOf key' = some lock → key = key'
  known : ∀ id t lock, c.tasks.get? id = some t → t.handles lock = true →
    c.lockOf t.key = some lock
  counted : ∀ key lock, c.lockOf key = some lock → ∃ held,
    c.locks lock = some ⟨c.tasks.count (Task.handles lock), held⟩ ∧
      c.tasks.count (Task.holds lock) = held.toNat
  flight : ∀ key, c.inFlight key = c.tasks.count (Task.drains key)

namespace Core

variable {σ : Type} {c : Core σ}

namespace Orderly

variable (h : c.Orderly)
include h

/-- An entity has at most one task at work on it. -/
theorem exclusive {i j : Nat} {t u : Task} (ht : c.tasks.get? i = some t)
    (hu : c.tasks.get? j = some u) (hkey : t.key = u.key) (hholds : t.stage.holds = true)
    (hholds' : u.stage.holds = true) : i = j := by
  obtain ⟨lock, hl⟩ := Task.exists_handles hholds
  obtain ⟨lock', hl'⟩ := Task.exists_handles hholds'
  have hof := h.known i t lock ht hl
  have hof' := h.known j u lock' hu hl'
  rw [← hkey, hof] at hof'
  cases hof'
  obtain ⟨held, _, hcount⟩ := h.counted t.key lock hof
  have hle : c.tasks.count (Task.holds lock) ≤ 1 := by
    rw [hcount]
    exact Bool.toNat_le held
  apply Table.eq_of_count_le_one hle ht _ hu
  · simp [Task.holds, hholds', hl']
  · simp [Task.holds, hholds, hl]

theorem not_drained_of_idle {key : EntityKey} (hidle : c.inFlight key = 0) {id : Nat} {t : Task}
    (ht : c.tasks.get? id = some t) : t.drains key = false := by
  cases hd : t.drains key with
  | false => rfl
  | true =>
    have hpos : 0 < c.tasks.count (Task.drains key) := Table.count_pos_iff.2 ⟨id, t, ht, hd⟩
    rw [← h.flight key, hidle] at hpos
    exact absurd hpos (Nat.lt_irrefl 0)

end Orderly

/-! ### What steps keep -/

theorem of_get?_setStage {id j : Nat} {t u : Task} {stage : Stage}
    (hu : (c.setStage id t stage).tasks.get? j = some u) :
    (j = id ∧ u = { t with stage }) ∨ (j ≠ id ∧ c.tasks.get? j = some u) := by
  unfold setStage at hu
  rw [Table.get?_insert] at hu
  by_cases hj : id = j
  · rw [if_pos hj] at hu
    cases hu
    exact .inl ⟨hj.symm, rfl⟩
  · rw [if_neg hj] at hu
    exact .inr ⟨Ne.symm hj, hu⟩

section Keep

variable {d : Core σ} {id : Nat} {a b : Option Task}

/-- A step that leaves the locks alone. -/
theorem Orderly.of_changes (h : c.Orderly) (hch : c.tasks.Changes d.tasks id a b)
    (hlockOf : d.lockOf = c.lockOf) (hlocks : d.locks = c.locks) (hfresh : c.fresh ≤ d.fresh)
    (hid : id < d.fresh) (hkey : ∀ t ∈ b, ∀ lock, t.handles lock = true →
      c.lockOf t.key = some lock)
    (hhandles : ∀ lock, a.any (Task.handles lock) = b.any (Task.handles lock))
    (hholds : ∀ lock, a.any (Task.holds lock) = b.any (Task.holds lock))
    (hflight : ∀ key, d.inFlight key + (a.any (Task.drains key)).toNat =
      c.inFlight key + (b.any (Task.drains key)).toNat) : d.Orderly := by
  have hget (j : Nat) (t : Task) (ht : d.tasks.get? j = some t) :
      (j = id ∧ b = some t) ∨ c.tasks.get? j = some t := by
    rw [hch.after, Function.update_apply] at ht
    by_cases hj : j = id
    · rw [if_pos hj] at ht
      exact .inl ⟨hj, ht⟩
    · rw [if_neg hj] at ht
      exact .inr ht
  refine ⟨?_, ?_, ?_, ?_, ?_, ?_⟩
  · intro j t ht
    rcases hget j t ht with ⟨rfl, _⟩ | ht
    · exact hid
    · exact Nat.lt_of_lt_of_le (h.numbered j t ht) hfresh
  · intro key lock hl
    rw [hlockOf] at hl
    exact Nat.lt_of_lt_of_le (h.named key lock hl) hfresh
  · rw [hlockOf]
    exact h.single
  · intro j t lock ht hl
    rw [hlockOf]
    rcases hget j t ht with ⟨_, hb⟩ | ht
    · exact hkey t hb lock hl
    · exact h.known j t lock ht hl
  · intro key lock hl
    rw [hlockOf] at hl
    obtain ⟨held, hlock, hcount⟩ := h.counted key lock hl
    have hh := hch.count (Task.handles lock)
    have hs := hch.count (Task.holds lock)
    rw [hhandles] at hh
    rw [hholds] at hs
    refine ⟨held, ?_, by omega⟩
    rw [hlocks, hlock, show d.tasks.count (Task.handles lock) = c.tasks.count (Task.handles lock) by
      omega]
  · intro key
    have := hch.count (Task.drains key)
    have := h.flight key
    have := hflight key
    omega

/-- A step of one task that leaves the locks and the flight of entities alone. -/
theorem Orderly.setStage (h : c.Orderly) {t : Task} (ht : c.tasks.get? id = some t)
    {stage : Stage} (hhandle : stage.handle? = t.stage.handle?)
    (hholds : stage.holds = t.stage.holds) : (c.setStage id t stage).Orderly := by
  have hh (lock : Nat) : ({ t with stage } : Task).handles lock = t.handles lock := by
    simp [Task.handles, hhandle]
  have hs (lock : Nat) : ({ t with stage } : Task).holds lock = t.holds lock := by
    simp [Task.holds, hh, hholds]
  refine h.of_changes (d := c.setStage id t stage) (Table.changes_insert ht { t with stage }) rfl rfl
    (Nat.le_refl _) (h.numbered id t ht) ?_ ?_ ?_ ?_
  · intro u hu lock hl
    cases hu
    rw [hh] at hl
    exact h.known id t lock ht hl
  · intro lock
    exact (hh lock).symm
  · intro lock
    exact (hs lock).symm
  · intro key
    rfl

theorem Orderly.numbered_setStage (h : c.Orderly) {t : Task} (ht : c.tasks.get? id = some t)
    {stage : Stage} {j : Nat} {u : Task} (hu : (c.setStage id t stage).tasks.get? j = some u) :
    j < c.fresh := by
  rcases of_get?_setStage hu with ⟨rfl, _⟩ | ⟨_, hu⟩
  · exact h.numbered j t ht
  · exact h.numbered j u hu

/-- A task that moves on stays in flight. -/
theorem Orderly.flight_setStage (h : c.Orderly) {t : Task} (ht : c.tasks.get? id = some t)
    (stage : Stage) (key : EntityKey) :
    c.inFlight key = (c.setStage id t stage).tasks.count (Task.drains key) := by
  have hcount := (Table.changes_insert ht ({ t with stage } : Task)).count (Task.drains key)
  have hsame : (some ({ t with stage } : Task)).any (Task.drains key) =
      (some t).any (Task.drains key) := rfl
  rw [hsame] at hcount
  show c.inFlight key = (c.tasks.insert id { t with stage }).count (Task.drains key)
  rw [h.flight key]
  omega

/-- A step of one task that changes the lock of its entity. -/
theorem Orderly.relock (h : c.Orderly) {t : Task} (ht : c.tasks.get? id = some t) {lock : Nat}
    (hof : c.lockOf t.key = some lock) {stage : Stage} {l : PassLock}
    (hbefore : ∀ other, t.handles other = true → other = lock)
    (hafter : ∀ other, ({ t with stage } : Task).handles other = true → other = lock)
    (hhandles : l.handles + (t.handles lock).toNat =
      c.tasks.count (Task.handles lock) + (({ t with stage } : Task).handles lock).toNat)
    (hheld : l.held.toNat + (t.holds lock).toNat =
      c.tasks.count (Task.holds lock) + (({ t with stage } : Task).holds lock).toNat) :
    ({ c with locks := Function.update c.locks lock (some l) }.setStage id t stage).Orderly := by
  have hch := Table.changes_insert ht ({ t with stage } : Task)
  refine ⟨fun j u hu => h.numbered_setStage ht hu, h.named, h.single, ?_, ?_,
    h.flight_setStage ht stage⟩
  · intro j u other hu hl
    rcases of_get?_setStage hu with ⟨_, rfl⟩ | ⟨_, hu⟩
    · rw [hafter other hl]
      exact hof
    · exact h.known j u other hu hl
  · intro key other hl
    have hl : c.lockOf key = some other := hl
    have hcount := hch.count (Task.handles other)
    have hcount' := hch.count (Task.holds other)
    dsimp only [Option.any_some] at hcount hcount'
    show ∃ held, Function.update c.locks lock (some l) other = some ⟨_, held⟩ ∧ _
    by_cases ho : other = lock
    · subst ho
      refine ⟨l.held, ?_, ?_⟩
      · rw [Function.update_self]
        show some (⟨l.handles, l.held⟩ : PassLock) = _
        congr 2
        show l.handles = (c.tasks.insert id { t with stage }).count (Task.handles other)
        omega
      · show (c.tasks.insert id { t with stage }).count (Task.holds other) = l.held.toNat
        omega
    · -- another lock is none of this task's business
      have hno (u : Task) (hu : ∀ other, u.handles other = true → other = lock) :
          u.handles other = false ∧ u.holds other = false := by
        have hu : u.handles other = false := by
          cases hh : u.handles other with
          | false => rfl
          | true => exact absurd (hu other hh) ho
        exact ⟨hu, by simp [Task.holds, hu]⟩
      obtain ⟨held, hlock, hheld⟩ := h.counted key other hl
      rw [(hno t hbefore).1, (hno _ hafter).1] at hcount
      rw [(hno t hbefore).2, (hno _ hafter).2] at hcount'
      refine ⟨held, ?_, ?_⟩
      · rw [Function.update_of_ne ho, hlock]
        congr 2
        show _ = (c.tasks.insert id { t with stage }).count (Task.handles other)
        omega
      · show (c.tasks.insert id { t with stage }).count (Task.holds other) = held.toNat
        omega

theorem Orderly.get?_fresh (h : c.Orderly) : c.tasks.get? c.fresh = none := by
  cases ht : c.tasks.get? c.fresh with
  | none => rfl
  | some t => exact absurd (h.numbered _ t ht) (Nat.lt_irrefl _)

/-- A new task has no lock yet. -/
theorem Orderly.arrive (h : c.Orderly) {t : Task} (hs : t.stage = .arriving)
    (htasks : d.tasks = c.tasks.insert c.fresh t) (hfresh : d.fresh = c.fresh + 1)
    (hlockOf : d.lockOf = c.lockOf) (hlocks : d.locks = c.locks)
    (hflight : ∀ key, d.inFlight key = c.inFlight key + (t.drains key).toNat) : d.Orderly := by
  have hno (lock : Nat) : t.handles lock = false := by simp [Task.handles, hs, Stage.handle?]
  have hch : c.tasks.Changes d.tasks c.fresh none (some t) := by
    rw [htasks]
    exact Table.changes_insert h.get?_fresh t
  refine h.of_changes hch hlockOf hlocks (by omega) (by omega) ?_ ?_ ?_ ?_
  · intro u hu lock hl
    cases hu
    rw [hno] at hl
    exact nomatch hl
  · intro lock
    simp [hno]
  · intro lock
    simp [Task.holds, hno]
  · intro key
    simp [hflight]

/-- A task that has given its handle back goes. -/
theorem Orderly.depart (h : c.Orderly) {t : Task} (ht : c.tasks.get? id = some t)
    (hs : t.stage.handle? = none) (htasks : d.tasks = c.tasks.erase id) (hfresh : d.fresh = c.fresh)
    (hlockOf : d.lockOf = c.lockOf) (hlocks : d.locks = c.locks)
    (hflight : ∀ key, d.inFlight key + (t.drains key).toNat = c.inFlight key) : d.Orderly := by
  have hno (lock : Nat) : t.handles lock = false := by simp [Task.handles, hs]
  have hch : c.tasks.Changes d.tasks id (some t) none := by
    rw [htasks]
    exact Table.changes_erase ht
  have hid := h.numbered id t ht
  refine h.of_changes hch hlockOf hlocks (by omega) (by omega) ?_ ?_ ?_ ?_
  · intro u hu
    exact nomatch hu
  · intro lock
    simp [hno]
  · intro lock
    simp [Task.holds, hno]
  · intro key
    simp [hflight]

/-- Nobody has a handle on a lock with a number that is free. -/
theorem Orderly.not_handles_fresh (h : c.Orderly) {t : Task} (ht : c.tasks.get? id = some t) :
    t.handles c.fresh = false := by
  rw [← Bool.not_eq_true]
  exact fun hh => Nat.lt_irrefl _ (h.named _ _ (h.known id t _ ht hh))

theorem Orderly.count_fresh (h : c.Orderly) :
    c.tasks.count (Task.handles c.fresh) = 0 ∧ c.tasks.count (Task.holds c.fresh) = 0 := by
  constructor
  · by_contra hne
    obtain ⟨j, u, hu, hh⟩ := Table.count_pos_iff.1 (Nat.pos_of_ne_zero hne)
    rw [h.not_handles_fresh hu] at hh
    exact nomatch hh
  · by_contra hne
    obtain ⟨j, u, hu, hh⟩ := Table.count_pos_iff.1 (Nat.pos_of_ne_zero hne)
    rw [Task.holds, h.not_handles_fresh hu, Bool.and_false] at hh
    exact nomatch hh

/-- The first task of an entity without a lock makes one. -/
theorem Orderly.make (h : c.Orderly) {t : Task} (ht : c.tasks.get? id = some t)
    (hs : t.stage = .arriving) (hl : c.lockOf t.key = none) :
    ((c.makeLock t.key).setStage id t (.waiting c.fresh)).Orderly := by
  have hch := Table.changes_insert ht ({ t with stage := .waiting c.fresh } : Task)
  have hold (other : Nat) : t.handles other = false := by simp [Task.handles, hs, Stage.handle?]
  have hnew (other : Nat) : ({ t with stage := .waiting c.fresh } : Task).handles other = true ↔
      other = c.fresh := by simp [Task.handles, Stage.handle?, eq_comm]
  have hidle (other : Nat) : ({ t with stage := .waiting c.fresh } : Task).holds other = false := rfl
  obtain ⟨hfree, hfree'⟩ := h.count_fresh
  have hof (key : EntityKey) (lock : Nat)
      (hk : Function.update c.lockOf t.key (some c.fresh) key = some lock) :
      (key = t.key ∧ lock = c.fresh) ∨ (key ≠ t.key ∧ c.lockOf key = some lock) := by
    rw [Function.update_apply] at hk
    by_cases hkey : key = t.key
    · rw [if_pos hkey] at hk
      cases hk
      exact .inl ⟨hkey, rfl⟩
    · rw [if_neg hkey] at hk
      exact .inr ⟨hkey, hk⟩
  refine ⟨fun j u hu => Nat.lt_succ_of_lt (h.numbered_setStage ht hu), ?_, ?_, ?_, ?_,
    h.flight_setStage ht _⟩
  · intro key lock hk
    show lock < c.fresh + 1
    rcases hof key lock hk with ⟨_, rfl⟩ | ⟨_, hk⟩
    · omega
    · have := h.named key lock hk
      omega
  · intro key key' lock hk hk'
    rcases hof key lock hk with ⟨rfl, rfl⟩ | ⟨_, hk⟩
    · rcases hof key' _ hk' with ⟨rfl, _⟩ | ⟨_, hk'⟩
      · rfl
      · exact absurd (h.named key' _ hk') (Nat.lt_irrefl _)
    · rcases hof key' _ hk' with ⟨_, rfl⟩ | ⟨_, hk'⟩
      · exact absurd (h.named key _ hk) (Nat.lt_irrefl _)
      · exact h.single key key' lock hk hk'
  · intro j u lock hu hh
    show Function.update c.lockOf t.key (some c.fresh) u.key = some lock
    rcases of_get?_setStage hu with ⟨_, rfl⟩ | ⟨_, hu⟩
    · rw [(hnew lock).1 hh, Function.update_self]
    · have hk := h.known j u lock hu hh
      rw [Function.update_of_ne, hk]
      intro heq
      rw [heq, hl] at hk
      exact nomatch hk
  · intro key lock hk
    have hcount := hch.count (Task.handles lock)
    have hcount' := hch.count (Task.holds lock)
    have hold' : (some t).any (Task.holds lock) = false := by simp [Task.holds, hold]
    simp only [Option.any_some, hold, hidle, hold', Bool.toNat_false, Nat.add_zero] at hcount hcount'
    show ∃ held, Function.update c.locks c.fresh (some ⟨1, false⟩) lock =
      some ⟨(c.tasks.insert id { t with stage := .waiting c.fresh }).count (Task.handles lock), held⟩ ∧
        (c.tasks.insert id { t with stage := .waiting c.fresh }).count (Task.holds lock) = held.toNat
    rcases hof key lock hk with ⟨_, rfl⟩ | ⟨_, hk⟩
    · rw [(hnew c.fresh).2 rfl, hfree] at hcount
      rw [hcount, hcount', hfree', Function.update_self]
      exact ⟨false, rfl, rfl⟩
    · have hne : lock ≠ c.fresh := Nat.ne_of_lt (h.named key lock hk)
      have hno : ({ t with stage := .waiting c.fresh } : Task).handles lock = false := by
        rw [← Bool.not_eq_true]
        exact fun hh => hne ((hnew lock).1 hh)
      rw [hno] at hcount
      rw [hcount, hcount', Function.update_of_ne hne]
      exact h.counted key lock hk

/-- The last task that gives back its handle takes the lock away. -/
theorem Orderly.unmake (h : c.Orderly) {t : Task} (ht : c.tasks.get? id = some t) {lock : Nat}
    {result : TaskResult} (hs : t.stage = .closing lock result)
    (hlast : c.tasks.count (Task.handles lock) = 1) {stage : Stage} (hstage : stage.handle? = none)
    (locks : Nat → Option PassLock) (hlocks : ∀ other, other ≠ lock → locks other = c.locks other) :
    ({ c with lockOf := Function.update c.lockOf t.key none, locks }.setStage id t stage).Orderly := by
  have hch := Table.changes_insert ht ({ t with stage } : Task)
  have hold (other : Nat) : t.handles other = true ↔ other = lock := by
    simp [Task.handles, hs, Stage.handle?, eq_comm]
  have hnew (other : Nat) : ({ t with stage } : Task).handles other = false := by
    simp [Task.handles, hstage]
  have hof : c.lockOf t.key = some lock := h.known id t lock ht ((hold lock).2 rfl)
  have hkeep {key : EntityKey} {other : Nat}
      (hk : Function.update c.lockOf t.key none key = some other) :
      c.lockOf key = some other ∧ other ≠ lock := by
    rw [Function.update_apply] at hk
    by_cases hkey : key = t.key
    · rw [if_pos hkey] at hk
      exact nomatch hk
    · rw [if_neg hkey] at hk
      refine ⟨hk, ?_⟩
      rintro rfl
      exact hkey (h.single key t.key _ hk hof)
  refine ⟨fun j u hu => h.numbered_setStage ht hu, ?_, ?_, ?_, ?_, h.flight_setStage ht stage⟩
  · intro key other hk
    exact h.named key other (hkeep hk).1
  · intro key key' other hk hk'
    exact h.single key key' other (hkeep hk).1 (hkeep hk').1
  · intro j u other hu hh
    show Function.update c.lockOf t.key none u.key = some other
    rcases of_get?_setStage hu with ⟨_, rfl⟩ | ⟨hj, hu⟩
    · rw [hnew] at hh
      exact nomatch hh
    · have hk := h.known j u other hu hh
      rw [Function.update_of_ne, hk]
      -- the task that goes is the only one with a handle on the lock of its entity
      intro heq
      rw [heq, hof] at hk
      cases hk
      have hle : c.tasks.count (Task.handles lock) ≤ 1 := by omega
      exact hj (Table.eq_of_count_le_one hle hu hh ht ((hold lock).2 rfl))
  · intro key other hk
    obtain ⟨hk, hne⟩ := hkeep hk
    have hcount := hch.count (Task.handles other)
    have hcount' := hch.count (Task.holds other)
    have hno : t.handles other = false := by
      rw [← Bool.not_eq_true]
      exact fun hh => hne ((hold other).1 hh)
    simp only [Option.any_some, hno, hnew, Task.holds, Bool.and_false, Bool.toNat_false,
      Nat.add_zero] at hcount hcount'
    obtain ⟨held, hlock, hheld⟩ := h.counted key other hk
    refine ⟨held, ?_, hcount'.trans hheld⟩
    show locks other = some ⟨(c.tasks.insert id { t with stage }).count (Task.handles other), held⟩
    rw [hlocks other hne, hlock, hcount]

theorem Orderly.close (h : c.Orderly) {t : Task} (ht : c.tasks.get? id = some t) {lock : Nat}
    {result : TaskResult} (hs : t.stage = .closing lock result) :
    ((c.closeLock t.key lock).setStage id t (closed t result)).Orderly := by
  have hhandles (other : Nat) : t.handles other = true ↔ other = lock := by
    simp [Task.handles, hs, Stage.handle?, eq_comm]
  have hholds : t.holds lock = false := by simp [Task.holds, hs, Stage.holds]
  have hof : c.lockOf t.key = some lock := h.known id t lock ht ((hhandles lock).2 rfl)
  have hclosed : (closed t result).handle? = none := by
    unfold closed
    cases t.job <;> rfl
  have hno (other : Nat) : ({ t with stage := closed t result } : Task).handles other = false := by
    simp [Task.handles, hclosed]
  obtain ⟨held, hlock, hheld⟩ := h.counted t.key lock hof
  have hpos : 0 < c.tasks.count (Task.handles lock) :=
    Table.count_pos_iff.2 ⟨id, t, ht, (hhandles lock).2 rfl⟩
  have hlocks : Function.update c.locks lock
      ((c.locks lock).map fun l => { l with handles := l.handles - 1 }) lock =
        some ⟨c.tasks.count (Task.handles lock) - 1, held⟩ := by
    rw [Function.update_self, hlock]
    rfl
  unfold closeLock
  dsimp only
  rw [hof]
  dsimp only
  rw [hlocks]
  rcases Nat.eq_or_lt_of_le hpos with hlast | hmore
  · rw [← hlast]
    refine h.unmake ht hs hlast.symm hclosed _ fun other hne => ?_
    rw [Function.update_of_ne hne, Function.update_of_ne hne]
  · split
    · rename_i heq
      have heq := congrArg PassLock.handles (Option.some.inj heq)
      dsimp only at heq
      omega
    · rw [hlock]
      refine h.relock (l := ⟨c.tasks.count (Task.handles lock) - 1, held⟩) ht hof
        (fun other hh => (hhandles other).1 hh) (fun other hh => ?_) ?_ ?_
      · rw [hno] at hh
        exact nomatch hh
      · rw [(hhandles lock).2 rfl, hno]
        simp only [Bool.toNat_true, Bool.toNat_false]
        omega
      · rw [hholds, hheld]
        simp [Task.holds, hno]

theorem Orderly.join (h : c.Orderly) {t : Task} (ht : c.tasks.get? id = some t) {lock : Nat}
    (hs : t.stage = .arriving) (hl : c.lockOf t.key = some lock) :
    ((c.joinLock lock).setStage id t (.waiting lock)).Orderly := by
  have hno (other : Nat) : t.handles other = false := by simp [Task.handles, hs, Stage.handle?]
  have hnew (other : Nat) : ({ t with stage := .waiting lock } : Task).handles other = true ↔
      other = lock := by simp [Task.handles, Stage.handle?, eq_comm]
  obtain ⟨held, hlock, hheld⟩ := h.counted t.key lock hl
  unfold joinLock
  rw [hlock]
  refine h.relock (l := ⟨c.tasks.count (Task.handles lock) + 1, held⟩) ht hl (fun other hh => ?_)
    (fun other hh => (hnew other).1 hh) ?_ ?_
  · rw [hno] at hh
    exact nomatch hh
  · rw [hno, (hnew lock).2 rfl]
    rfl
  · rw [hheld]
    simp [Task.holds, hno, Stage.holds]

theorem Orderly.acquire (h : c.Orderly) {t : Task} (ht : c.tasks.get? id = some t)
    {lock handles resume : Nat} {program : Lookup (Except StoreError Plan)}
    (hs : t.stage = .waiting lock) (hl : c.locks lock = some ⟨handles, false⟩) :
    ((c.setHeld lock true).setStage id t (.reading lock resume program)).Orderly := by
  have hold (other : Nat) : t.handles other = true ↔ other = lock := by
    simp [Task.handles, hs, Stage.handle?, eq_comm]
  have hnew (other : Nat) : ({ t with stage := .reading lock resume program } : Task).handles other =
      t.handles other := by simp [Task.handles, hs, Stage.handle?]
  have hof := h.known id t lock ht ((hold lock).2 rfl)
  obtain ⟨held, hlock, hheld⟩ := h.counted t.key lock hof
  rw [hl] at hlock
  cases hlock
  unfold setHeld
  rw [hl]
  refine h.relock (l := ⟨c.tasks.count (Task.handles lock), true⟩) ht hof
    (fun other hh => (hold other).1 hh) (fun other hh => (hold other).1 (hnew other ▸ hh)) ?_ ?_
  · rw [hnew]
  · rw [hheld]
    simp [Task.holds, hs, hnew, (hold lock).2 rfl, Stage.holds]

theorem Orderly.release (h : c.Orderly) {t : Task} (ht : c.tasks.get? id = some t) {lock : Nat}
    {result : TaskResult} (hs : t.stage = .leaving lock result) :
    ((c.setHeld lock false).setStage id t (.closing lock result)).Orderly := by
  have hold (other : Nat) : t.handles other = true ↔ other = lock := by
    simp [Task.handles, hs, Stage.handle?, eq_comm]
  have hnew (other : Nat) : ({ t with stage := .closing lock result } : Task).handles other =
      t.handles other := by simp [Task.handles, hs, Stage.handle?]
  have hholds : t.holds lock = true := by simp [Task.holds, hs, (hold lock).2 rfl, Stage.holds]
  have hof := h.known id t lock ht ((hold lock).2 rfl)
  obtain ⟨held, hlock, hheld⟩ := h.counted t.key lock hof
  have hpos : 0 < c.tasks.count (Task.holds lock) := Table.count_pos_iff.2 ⟨id, t, ht, hholds⟩
  have hone : c.tasks.count (Task.holds lock) = 1 := by
    have := Bool.toNat_le held
    omega
  unfold setHeld
  rw [hlock]
  refine h.relock (l := ⟨c.tasks.count (Task.handles lock), false⟩) ht hof
    (fun other hh => (hold other).1 hh) (fun other hh => (hold other).1 (hnew other ▸ hh)) ?_ ?_
  · rw [hnew]
  · rw [hone, hholds]
    simp [Task.holds, Stage.holds]

/-! ### Runs -/

theorem Orderly.start (settings : Settings) (s : σ) : (Handler.start settings s).core.Orderly := by
  rw [Handler.core_start]
  exact ⟨fun _ _ h => (nomatch h), fun _ _ h => (nomatch h), fun _ _ _ h => (nomatch h),
    fun _ _ _ h => (nomatch h), fun _ _ h => (nomatch h), fun _ => rfl⟩

/-- Only notifications end with a result to collect. -/
def Ended (c : Core σ) : Prop := ∀ id t result, c.tasks.get? id = some t →
  t.stage = .finished result → ∃ property, t.job = .notification property

theorem Ended.start (settings : Settings) (s : σ) : (Handler.start settings s).core.Ended := by
  rw [Handler.core_start]
  exact fun _ _ _ h => (nomatch h)

theorem Ended.setStage (h : c.Ended) {t : Task} {stage : Stage}
    (hs : ∀ result, stage = .finished result → ∃ property, t.job = .notification property) :
    (c.setStage id t stage).Ended := by
  intro j u result hu hfinished
  rcases of_get?_setStage hu with ⟨_, rfl⟩ | ⟨_, hu⟩
  · exact hs result hfinished
  · exact h j u result hu hfinished

theorem Ended.arrive (h : c.Ended) {t : Task} (hs : t.stage = .arriving)
    (htasks : d.tasks = c.tasks.insert id t) : d.Ended := by
  intro j u result hu hfinished
  rw [htasks, Table.get?_insert] at hu
  split at hu
  · cases hu
    rw [hs] at hfinished
    cases hfinished
  · exact h j u result hu hfinished

theorem Ended.depart (h : c.Ended) (htasks : d.tasks = c.tasks.erase id) : d.Ended := by
  intro j u result hu hfinished
  rw [htasks, Table.get?_erase] at hu
  split at hu
  · cases hu
  · exact h j u result hu hfinished

theorem Ended.issue (h : c.Ended) (hissue : c.Issue d) : d.Ended := by
  cases hissue with
  | number fresh hle => exact h
  | launch key actor batch => exact h.arrive (d := c.launch key actor batch) rfl rfl

theorem Ended.step (h : c.Ended) {engine : Engine σ} (hstep : c.Step engine d) : d.Ended := by
  cases hstep with
  | forget ht hs => exact h.depart rfl
  | land ht hs hj => exact h.depart rfl
  | @close id t lock result ht hs =>
    have hclose : (c.closeLock t.key lock).Ended := by
      unfold closeLock
      dsimp only
      split
      · split
        · exact h
        · exact h
      · exact h
    apply hclose.setStage
    intro r hr
    unfold closed at hr
    cases hj : t.job with
    | notification property => exact ⟨property, rfl⟩
    | drain names actor batch =>
      rw [hj] at hr
      exact nomatch hr
  | join ht hs hl => exact Ended.setStage (c := c.joinLock _) h fun _ hr => nomatch hr
  | @make id t ht hs hl => exact Ended.setStage (c := c.makeLock t.key) h fun _ hr => nomatch hr
  | acquire ht hs hl resume now =>
    exact Ended.setStage (c := c.setHeld _ true) h fun _ hr => nomatch hr
  | fetch ht hs resume' => exact Ended.setStage (c := { c with store := _ }) h fun _ hr => nomatch hr
  | relate ht hs => exact Ended.setStage (c := { c with store := _ }) h fun _ hr => nomatch hr
  | write ht hs hw => exact Ended.setStage (c := { c with store := _ }) h fun _ hr => nomatch hr
  | refuse ht hs hw => exact Ended.setStage (c := { c with store := _ }) h fun _ hr => nomatch hr
  | enqueue ht hs hj => exact Ended.setStage (c := c.enqueue _ _) h fun _ hr => nomatch hr
  | release ht hs => exact Ended.setStage (c := c.setHeld _ false) h fun _ hr => nomatch hr
  | decide ht hs => exact h.setStage fun _ hr => nomatch hr
  | abandon ht hs => exact h.setStage fun _ hr => nomatch hr
  | settle ht hs hj => exact h.setStage fun _ hr => nomatch hr

theorem Orderly.notify (h : c.Orderly) (n : Notification) : (c.notify n).Orderly :=
  h.arrive (d := c.notify n) rfl rfl rfl rfl rfl fun _ => rfl

theorem Orderly.issue (h : c.Orderly) (hissue : c.Issue d) : d.Orderly := by
  cases hissue with
  | number fresh hle =>
    refine ⟨fun j t ht => ?_, fun key lock hl => ?_, h.single, h.known, h.counted, h.flight⟩
    · exact Nat.lt_of_lt_of_le (h.numbered j t ht) hle
    · exact Nat.lt_of_lt_of_le (h.named key lock hl) hle
  | launch key actor batch =>
    refine h.arrive (d := c.launch key actor batch) (t := { key, job := .drain (c.queued key) actor batch })
      rfl rfl rfl rfl rfl fun k => ?_
    show Function.update c.inFlight key (c.inFlight key + 1) k = _
    rw [Function.update_apply]
    by_cases hk : k = key
    · simp [hk, Task.drains]
    · simp [hk, Task.drains, Ne.symm hk]

/-- The books say nothing of the store and the queue. -/
theorem Orderly.withStore (h : c.Orderly) (store : σ) (queued : EntityKey → List String) :
    Orderly { c with store, queued } := ⟨h.1, h.2, h.3, h.4, h.5, h.6⟩

/-- A task goes on to a stage with the same lock. -/
theorem Orderly.goOn (h : c.Orderly) {id : Nat} {t : Task} (ht : c.tasks.get? id = some t)
    {stage : Stage} (hhandle : stage.handle? = t.stage.handle?)
    (hholds : stage.holds = t.stage.holds) (store : σ) (queued : EntityKey → List String) :
    ({ c with store, queued }.setStage id t stage).Orderly :=
  (h.withStore store queued).setStage ht hhandle hholds

theorem Orderly.step (h : c.Orderly) (hended : c.Ended) {engine : Engine σ}
    (hstep : c.Step engine d) : d.Orderly := by
  cases hstep with
  | @forget id t result ht hs =>
    obtain ⟨property, hj⟩ := hended id t result ht hs
    refine h.depart (d := { c with tasks := c.tasks.erase id }) ht (by rw [hs]; rfl) rfl rfl rfl rfl
      fun key => ?_
    simp [Task.drains, hj]
  | join ht hs hl => exact h.join ht hs hl
  | make ht hs hl => exact h.make ht hs hl
  | acquire ht hs hl resume now => exact h.acquire ht hs hl
  | fetch ht hs | relate ht hs | decide ht hs | abandon ht hs | write ht hs | refuse ht hs
  | enqueue ht hs | settle ht hs => exact h.goOn ht (by rw [hs]; rfl) (by rw [hs]; rfl) _ _
  | release ht hs => exact h.release ht hs
  | close ht hs => exact h.close ht hs
  | @land id t names actor batch result ht hs hj =>
    refine h.depart (d := c.land t.key id) ht (by rw [hs]; rfl) rfl rfl rfl rfl fun key => ?_
    have hpos : 0 < c.inFlight t.key := by
      rw [h.flight t.key]
      exact Table.count_pos_iff.2 ⟨id, t, ht, by simp [Task.drains, hj]⟩
    show Function.update c.inFlight t.key (c.inFlight t.key - 1) key + _ = _
    rw [Function.update_apply]
    by_cases hk : key = t.key
    · simp [hk, Task.drains, hj]
      omega
    · simp [hk, Task.drains, hj, Ne.symm hk]

end Keep

end Core

end EntityFormulas
