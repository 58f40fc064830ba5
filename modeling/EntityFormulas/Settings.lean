/-
  EntityFormulas/Settings.lean
  ============================
  **What can be tuned.**

  Every setting has a default, so an empty document is a valid configuration.
-/
import EntityFormulas.Json.Decoder

namespace EntityFormulas

/-- When a notification leads to a pass. -/
inductive RecalcMode where
  /-- Notifications are collected for each entity, and one pass serves them all. -/
  | batched
  /-- Every notification leads to a pass of its own. -/
  | eager
deriving DecidableEq, Repr

namespace RecalcMode

def name : RecalcMode → String
  | .batched => "batched"
  | .eager => "eager"

def ofName? (s : String) : Option RecalcMode := [batched, eager].find? fun m => m.name = s

def ofJson? (place : Json.Place) (j : Json) : Option RecalcMode := (j.asName? place).bind ofName?

end RecalcMode

/-- The settings of recalculation. -/
structure RecalcSettings where
  mode : RecalcMode := .batched
  /-- How many milliseconds an entity waits after its last notification. -/
  batchDelay : Nat := 250
  /-- Who is on record for passes that nobody asked for. -/
  systemActor : String := "system"
deriving DecidableEq, Repr

/-- All settings. -/
structure Settings where
  /-- How many steps of a traversal are followed. -/
  maxDepth : Nat := 50
  /-- How deep evaluation nests, formulas of own properties included. -/
  recursionLimit : Nat := 256
  /-- Whether a missing reference is an error rather than an absent value. -/
  strict : Bool := false
  recalc : RecalcSettings := {}
deriving DecidableEq, Repr

namespace RecalcSettings

def toJson (s : RecalcSettings) : Json :=
  .object [("mode", .text s.mode.name), ("batch_delay_ms", .count s.batchDelay),
    ("system_actor", .text s.systemActor)]

def ofJson? (place : Json.Place) (j : Json) : Option RecalcSettings := do
  let [mode, batchDelay, systemActor] ←
    j.fieldsAt? place ["mode", "batch_delay_ms", "system_actor"] | none
  let default : RecalcSettings := {}
  some ⟨← Json.defaulted (RecalcMode.ofJson? place) default.mode mode,
    ← Json.defaulted Json.asCount? default.batchDelay batchDelay,
    ← Json.defaulted Json.asText? default.systemActor systemActor⟩

end RecalcSettings

namespace Settings

def toJson (s : Settings) : Json :=
  .object [("max_depth", .count s.maxDepth), ("recursion_limit", .count s.recursionLimit),
    ("strict", .bool s.strict), ("recalc", s.recalc.toJson)]

def ofJson? (place : Json.Place) (j : Json) : Option Settings := do
  let [maxDepth, recursionLimit, strict, recalc] ←
    j.fieldsAt? place ["max_depth", "recursion_limit", "strict", "recalc"] | none
  let default : Settings := {}
  some ⟨← Json.defaulted Json.asCount? default.maxDepth maxDepth,
    ← Json.defaulted Json.asCount? default.recursionLimit recursionLimit,
    ← Json.defaulted Json.asBool? default.strict strict,
    ← Json.defaulted (RecalcSettings.ofJson? place) default.recalc recalc⟩

end Settings

end EntityFormulas
