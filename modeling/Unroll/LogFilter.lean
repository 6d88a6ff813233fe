/-!
Log filters: which events a log shows. A filter is a list of directives between commas, each a
level, a target, or a level for a target.
-/

namespace Unroll

inductive LogLevel where
  | off | error | warn | info | debug | trace
deriving DecidableEq

def LogLevel.ofName? (name : String) : Option LogLevel :=
  match name.toLower with
  | "off" => some .off
  | "error" => some .error
  | "warn" => some .warn
  | "info" => some .info
  | "debug" => some .debug
  | "trace" => some .trace
  | _ => none

/-- Shows the events of a target, or of all targets, up to a level. -/
structure LogDirective where
  target : Option String
  level : LogLevel
deriving DecidableEq

/-- Reads a directive. A word that names no level is a target, all of whose events are shown; behind
an equals sign only a level may stand. -/
def LogDirective.ofString? (s : String) : Option LogDirective :=
  match s.splitOn "=" with
  | [word] =>
      match LogLevel.ofName? word with
      | some level => some ⟨none, level⟩
      | none => some ⟨some word, .trace⟩
  | [target, level] => (LogLevel.ofName? level).map (⟨some target, ·⟩)
  | _ => none

abbrev LogFilter := List LogDirective

/-- Reads a filter. Empty directives are skipped, so the empty text is a filter. -/
def LogFilter.ofString? (s : String) : Option LogFilter :=
  ((s.splitOn ",").filter (· != "")).mapM LogDirective.ofString?

/-- The log of a process, which can be started once. -/
structure Log where
  filter : Option LogFilter := none

/-- Starts the log if a setting asks for one. The first part says whether this call started it. -/
def Log.start (log : Log) (setting : Option String) : Bool × Log :=
  match log.filter, setting.bind LogFilter.ofString? with
  | none, some filter => (true, ⟨some filter⟩)
  | _, _ => (false, log)

end Unroll
