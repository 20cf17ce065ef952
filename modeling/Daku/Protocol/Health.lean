import Daku.Protocol.Json
import Mathlib.Tactic.Common

/-!
# Health vocabulary

The enumerations of `crates/daku-protocol/src/protocol.rs:109–331` with their stored texts,
and the two payload readers of `crates/daku-protocol/src/payload.rs:61–74`. Tables keep the
texts; parsing them back is total on what the daemon writes and fails on anything else.
-/

namespace Daku.Protocol

/-- Rolled-up health of one Environment (`protocol.rs:109–116`). -/
inductive EnvironmentHealth where
  | healthy
  | degraded
  | down
  | waiting
  deriving DecidableEq, Repr

/-- State of one Signal snapshot (`protocol.rs:147–157`). -/
inductive SignalState where
  | healthy
  | degraded
  | down
  | skipped
  deriving DecidableEq, Repr

/-- Whether an Environment answered at all (`protocol.rs:118–124`). -/
inductive Reachability where
  | reachable
  | unreachable
  | asleep
  deriving DecidableEq, Repr

/-- The two kinds of stored health events (`protocol.rs:310–315`). -/
inductive HealthEventKind where
  | health
  | build
  deriving DecidableEq, Repr

namespace EnvironmentHealth

/-- Stored text (`protocol.rs:127–134`). -/
def asStr : EnvironmentHealth → String
  | healthy => "healthy"
  | degraded => "degraded"
  | down => "down"
  | waiting => "waiting"

/-- Parse a stored text (`protocol.rs:136–144`). -/
def parse (text : String) : Option EnvironmentHealth :=
  if text = "healthy" then some healthy
  else if text = "degraded" then some degraded
  else if text = "down" then some down
  else if text = "waiting" then some waiting
  else none

/-- What is written reads back. -/
@[simp] theorem parse_asStr (h : EnvironmentHealth) : parse h.asStr = some h := by
  cases h <;> decide

/-- Different values have different texts. -/
theorem asStr_injective : Function.Injective asStr := by
  intro a b h
  exact Option.some.inj (by rw [← parse_asStr a, ← parse_asStr b, h])

@[simp] theorem asStr_inj {a b : EnvironmentHealth} : a.asStr = b.asStr ↔ a = b :=
  asStr_injective.eq_iff

end EnvironmentHealth

namespace SignalState

/-- Stored text (`protocol.rs:160–167`). -/
def asStr : SignalState → String
  | healthy => "healthy"
  | degraded => "degraded"
  | down => "down"
  | skipped => "skipped"

/-- Parse a stored text (`protocol.rs:169–177`). -/
def parse (text : String) : Option SignalState :=
  if text = "healthy" then some healthy
  else if text = "degraded" then some degraded
  else if text = "down" then some down
  else if text = "skipped" then some skipped
  else none

/-- What is written reads back. -/
@[simp] theorem parse_asStr (s : SignalState) : parse s.asStr = some s := by
  cases s <;> decide

/-- Different states have different texts. -/
theorem asStr_injective : Function.Injective asStr := by
  intro a b h
  exact Option.some.inj (by rw [← parse_asStr a, ← parse_asStr b, h])

@[simp] theorem asStr_inj {a b : SignalState} : a.asStr = b.asStr ↔ a = b :=
  asStr_injective.eq_iff

end SignalState

namespace Reachability

/-- Stored text (`protocol.rs:181–187`). -/
def asStr : Reachability → String
  | reachable => "reachable"
  | unreachable => "unreachable"
  | asleep => "asleep"

/-- Parse a stored text (`protocol.rs:189–196`). -/
def parse (text : String) : Option Reachability :=
  if text = "reachable" then some reachable
  else if text = "unreachable" then some unreachable
  else if text = "asleep" then some asleep
  else none

/-- What is written reads back. -/
@[simp] theorem parse_asStr (r : Reachability) : parse r.asStr = some r := by
  cases r <;> decide

end Reachability

namespace HealthEventKind

/-- Stored text (`protocol.rs:318–323`). -/
def asStr : HealthEventKind → String
  | health => "health"
  | build => "build"

/-- Parse a stored text (`protocol.rs:325–331`). -/
def parse (text : String) : Option HealthEventKind :=
  if text = "health" then some health
  else if text = "build" then some build
  else none

/-- What is written reads back. -/
@[simp] theorem parse_asStr (k : HealthEventKind) : parse k.asStr = some k := by
  cases k <;> decide

/-- Different kinds have different texts. -/
theorem asStr_injective : Function.Injective asStr := by
  intro a b h
  exact Option.some.inj (by rw [← parse_asStr a, ← parse_asStr b, h])

@[simp] theorem asStr_inj {a b : HealthEventKind} : a.asStr = b.asStr ↔ a = b :=
  asStr_injective.eq_iff

end HealthEventKind

/-- A non-empty text field of a payload (`payload.rs:44–50`). -/
def text (value : Value) (key : String) : Option String :=
  ((value.get key).bind Value.asStr).filter (· ≠ "")

/-- Reachability from an availability payload; anything unreadable is reachable
(`payload.rs:61–69`). -/
def parseReachability (payload : Value) : Reachability :=
  (((payload.get "reachability").bind Value.asStr).bind Reachability.parse).getD .reachable

/-- Build from an availability payload, if the probe read one (`payload.rs:71–74`). -/
def parseBuild (payload : Value) : Option String := text payload "build"

end Daku.Protocol
