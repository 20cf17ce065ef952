import Daku.Collector.Collect
import Daku.Health.Dashboard

/-!
# The collector loop

One turn of `CollectorLoop::run` (`crates/daku-core/src/collector.rs:394–430`): the collectors of
a tick, then the publish of `start_default_loop_with_store` (`collector.rs:729–745`). The pause
while the machine is offline only delays the next turn, and the publish before the first tick is
a turn without collectors.
-/

namespace Daku.Collector

open Daku.Base Daku.Base.Prog Daku.Protocol Daku.Store Daku.Health

/-- One publish, its messages aside. -/
def publish (fromStr : FromStr) (poll : Nat) (environments : List EnvironmentConfig) (now : Int) :
    DbProg Unit := do
  let _ ← publishDashboard fromStr environments now poll
  pure ()

/-- The collectors that ran and the publish that followed them. -/
structure Turn where
  runs : List CollectorRun
  environments : List EnvironmentConfig
  now : Int

/-- The statements of one turn. -/
def Turn.program (fromStr : FromStr) (toText : ToText) (poll : Nat) (turn : Turn) :
    DbProg Unit := do
  tick fromStr toText turn.runs
  publish fromStr poll turn.environments turn.now

section Turn

variable {fromStr : FromStr} {toText : ToText} {poll : Nat} {environments : List EnvironmentConfig}
  {now : Int}

theorem trace_publish (db : Db) : (publish fromStr poll environments now).trace db =
    (publishDashboard fromStr environments now poll).trace db := by
  rw [publish, trace_bind, trace_pure, List.append_nil]

theorem run_publish (db : Db) : (publish fromStr poll environments now).run db =
    (publishDashboard fromStr environments now poll).run db := by
  rw [Prog.run, trace_publish]
  rfl

/-- A publish writes event logs, streaks and roll-ups only. -/
theorem only_publish : Only (fun c ↦ RecordsEvents c ∨ TouchesRollups c)
    (publish fromStr poll environments now) := by
  intro db c hc
  rw [trace_publish, trace_publishDashboard, List.mem_append] at hc
  rcases hc with hc | hc
  · exact Or.inl (only_collect environments (fun e _ ↦
      only_publishEnvironment fromStr (loadAllSignalSnapshots db) now poll e) _ c hc)
  · exact Or.inr (only_collect environments (fun e _ ↦
      only_publishDetails (loadAllSignalSnapshots db) now e) _ c hc)

theorem run_turn (turn : Turn) (db : Db) : (turn.program fromStr toText poll).run db =
    (publish fromStr poll turn.environments turn.now).run
      ((tick fromStr toText turn.runs).run db) := by
  rw [Turn.program, run_bind]

end Turn

end Daku.Collector
