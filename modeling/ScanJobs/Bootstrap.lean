import ScanJobs.Engine.Local
import ScanJobs.Config.Flat

/-! # Starting from settings

Settings give the local engine on which jobs run, and the configuration that every job starts with.
-/

namespace ScanJobs.Settings

/-- **The engine** that the settings ask for. -/
def engine (s : Settings) : Except Failure Engine.Local :=
  Engine.Local.create (.text s.pool.name) (.int s.maxWorkers) (.float s.poll)
    ((s.start.map fun m => Value.text m.name).getD .none)

/-- **The configuration** that the settings start every job with. -/
def configuration (s : Settings) : Except Failure Config.Flat :=
  Config.Flat.ofEntries (s.properties.entries.map fun e => (.text e.1, .text e.2))

end ScanJobs.Settings
