import DocDirective.CommandLine.Run
import DocDirective.Yaml.Reader
import Std.Time.Zoned

/-!
# Main

The program: finds the files that a command line speaks of, runs it on them, and prints and keeps
what the run leaves.  The files are read as YAML, and no plugins are linked into the program.
-/

namespace DocDirective

/-- The paths that settings may stand at. -/
def settingsPaths (d : Disk) (config : String) : List Path :=
  match d.expandHome (.ofText config) with
  | .ok p    => [p, p.child settingsFile]
  | .error _ => []

/-- The paths that a command looks at before its settings are known. -/
def CommandLine.Command.paths (d : Disk) : CommandLine.Command → List Path
  | .parse _                => []
  | .expand manifest config => .ofText manifest :: settingsPaths d config
  | .annotations config     => settingsPaths d config

/-- The home directories of accounts; the present one comes first, under the empty name. -/
def homes : IO (List (String × Path)) := do
  let own := (← IO.getEnv "HOME").map fun h => ("", Path.ofText h)
  let table ← try IO.FS.lines "/etc/passwd" catch _ => pure #[]
  let others := table.toList.filterMap fun line =>
    match line.splitOn ":" with
    | account :: _ :: _ :: _ :: _ :: home :: _ => some (account, Path.ofText home)
    | _                                        => none
  return own.toList ++ others

/-- What stands at a path below a working directory, by the names of the path. -/
def look (cwd p : Path) : IO (List (List String × Found)) := do
  let q := p.resolve cwd
  let file := (← IO.currentDir) / q.text
  try
    match (← file.metadata).type with
    | .dir => return [(q.names, .directory)]
    | _    => return [(q.names, .file (← IO.FS.readBinFile file).toList)]
  catch _ => return []

/-- Finds files. -/
def Disk.collect (d : Disk) (paths : List Path) : IO Disk := do
  let mut nodes := d.nodes
  for p in paths do
    nodes := nodes ++ (← look d.cwd p)
  return { d with nodes }

/-- The log file that the settings of a command name, and the directory it stands in. -/
def logPaths (d : Disk) (c : CommandLine.Command) : List Path :=
  let settings := match c with
    | .parse _            => none
    | .expand _ config    => (Settings.load Yaml.reader d (.ofText config)).toOption
    | .annotations config => (Settings.load Yaml.reader d (.ofText config)).toOption
  match settings.bind (·.logFile) with
  | some p => [p, p.resolve d.cwd |>.parent]
  | none   => []

/-- A number with at least so many digits. -/
def padded (width n : Nat) : String :=
  let ds := Nat.toDigits 10 n
  String.ofList (List.replicate (width - ds.length) '0' ++ ds)

/-- The time in front of the lines that a run keeps. -/
def timeText : IO String := do
  let t ← Std.Time.PlainDateTime.now
  let day := s!"{padded 4 t.year.toInt.toNat}-{padded 2 t.month.toNat}-{padded 2 t.day.toNat}"
  let clock := s!"{padded 2 t.hour.toNat}:{padded 2 t.minute.toNat}:{padded 2 t.second.toNat}"
  return s!"{day} {clock},{padded 3 (t.nanosecond.toNat / 1000000)} "

/-- Adds lines to the log file. -/
def keep (time : String) (file : Path) (lines : List LogLine) : IO Unit := do
  let h ← IO.FS.Handle.mk file.text .append
  h.putStr (String.join (lines.map fun l => time ++ l.kept))

/-- Prints and keeps what a run leaves; gives its exit code. -/
def report (time : String) (run : CommandLine.Run) : IO UInt32 := do
  match run with
  | .error c =>
    IO.eprintln c.message
    return 1
  | .ok o    =>
    IO.print o.output
    IO.eprint o.errors
    match o.kept with
    | some (file, lines) => keep time file lines
    | none               => pure ()
    return o.exit.toUInt32

end DocDirective

open DocDirective in
def main (words : List String) : IO UInt32 := do
  let cwd := Path.ofText (← IO.currentDir).toString
  let time ← timeText
  let d : Disk := ⟨cwd, [(cwd.names, .directory)], ← homes⟩
  match CommandLine.Request.ofWords words with
  | .error _ => report time (CommandLine.run Yaml.reader d {} words "" time)
  | .ok r    =>
    let d ← d.collect (r.command.paths d)
    let d ← d.collect (logPaths d r.command)
    let input ← match r.command with
      | .parse "-" => (← IO.getStdin).readToEnd
      | _          => pure ""
    report time (CommandLine.run Yaml.reader d {} words input time)
