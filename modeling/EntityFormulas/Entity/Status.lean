/-
  EntityFormulas/Entity/Status.lean
  =================================
  **How far the computation of a property has come.**

  A derived property waits for its first pass, holds a valid value, has gone
  stale, ended in an error, or lies on a cycle of formulas.  `canBecome` is the
  table of allowed moves: nothing leaves `circular`, nothing returns to
  `pending`, and what never had a value cannot go stale.
-/

namespace EntityFormulas

/-- How far the computation of a property has come. -/
inductive Status where
  | pending
  | valid
  | stale
  | error
  | circular
deriving DecidableEq, Repr

/-- A move that the table of allowed moves lacks. -/
structure InvalidTransition where
  origin : Status
  target : Status
deriving DecidableEq, Repr

namespace Status

instance : Inhabited Status := ⟨.pending⟩

def name : Status → String
  | .pending => "pending"
  | .valid => "valid"
  | .stale => "stale"
  | .error => "error"
  | .circular => "circular"

def all : List Status := [pending, valid, stale, error, circular]

/-- Whether a property may move from one status to the next. -/
def canBecome : Status → Status → Bool
  | .circular, _ => false
  | _, .valid | _, .error | _, .circular => true
  | .pending, .stale => false
  | _, .stale => true
  | _, .pending => false

/-- The next status, if the move is allowed. -/
def become (s next : Status) : Except InvalidTransition Status :=
  if s.canBecome next then .ok next else .error ⟨s, next⟩

/-- Whether a pass over stale properties computes the property. -/
def needsRecompute : Status → Bool
  | .pending | .stale => true
  | _ => false

/-- Whether a mark makes the property stale: only what a pass has settled goes stale. -/
def goesStale : Status → Bool
  | .valid | .error => true
  | _ => false

/-- The status after a staleness mark. -/
def marked (s : Status) : Status := if s.goesStale then .stale else s

end Status

namespace InvalidTransition

def message (t : InvalidTransition) : String :=
  "invalid status transition " ++ t.origin.name ++ " -> " ++ t.target.name

end InvalidTransition

end EntityFormulas
