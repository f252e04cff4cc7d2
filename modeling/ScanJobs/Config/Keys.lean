import ScanJobs.Failure.Basic

/-! # The keys of scan jobs

Scan jobs keep some keys of a flat configuration for themselves: for the name of the job, for its
module, for the name of the root of its configuration, and all keys below a prefix.
-/

namespace ScanJobs.Config

open Text

/-- The keys that scan jobs use. -/
structure Keys where
  jobClass : String
  jobModule : String
  root : String
  above : String
deriving DecidableEq, Repr

namespace Keys

/-- The keys under one name. -/
def under (name : String) : Keys where
  jobClass := name ++ ".scanjob.class"
  jobModule := name ++ ".scanjob.class-module"
  root := name ++ ".scanjob.conf-root"
  above := name ++ ".scanjob.conf"

/-- The keys in the namespace of an engine. -/
def ofNamespace (name : String) : Except Failure Keys :=
  if isBlank name then .error (.blank "engine_namespace") else .ok (under (strip name))

/-- The keys that runners and workers use. -/
def standard : Keys :=
  under "scanrunner"

end Keys

end ScanJobs.Config
