/-!
# Log

What happens during a run, as lines of a log.  Failed directives are warnings; the rest is detail.
-/

namespace DocDirective

/-- How important a line is. -/
inductive LogLevel
  | debug
  | warning
  deriving DecidableEq, Repr

/-- The word for a level. -/
def LogLevel.label : LogLevel → String
  | .debug   => "DEBUG"
  | .warning => "WARNING"

/-- A line: its level, the part of the program that it comes from and what it says. -/
structure LogLine where
  level   : LogLevel
  origin  : String
  message : String
  deriving DecidableEq, Repr

namespace LogLine

/-- Where the lines of the whole program come from. -/
def program : String := "docmeta"

/-- The line as it is printed. -/
def printed (l : LogLine) : String := s!"[{program}] {l.level.label} {l.message}\n"

/-- The line as it is kept in a file, behind its time. -/
def kept (l : LogLine) : String := s!"{l.level.label} {program}.{l.origin}: {l.message}\n"

/-- The line shows at a verbosity. -/
def shows (verbose : Bool) (l : LogLine) : Bool := verbose || l.level = .warning

end LogLine

end DocDirective
