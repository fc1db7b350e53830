import DocDirective.CommandLine.Request
import DocDirective.Manifest
import DocDirective.Report.Json
import DocDirective.Report.Record
import DocDirective.Settings

/-!
# Command line — Run

What a command line prints and the code it ends with, whatever reads the documents in its files.
Results go to the output, log lines and errors to the error output; a log file gets the log lines
too, each behind the time.  The log file is open before a manifest is read, so a manifest may be the
log file itself.
-/

namespace DocDirective.CommandLine

/-- Why a log file cannot be opened. -/
inductive LogFileError
  | path         (f : PathFault)
  | notFound     (path : Path)
  | notDirectory (path : Path)
  | isDirectory  (path : Path)

/-- The wording of the failure. -/
def LogFileError.message : LogFileError → String
  | .path f         => f.message
  | .notFound p     => s!"[Errno 2] No such file or directory: {Text.quoted p.text}"
  | .notDirectory p => s!"[Errno 20] Not a directory: {Text.quoted p.text}"
  | .isDirectory p  => s!"[Errno 21] Is a directory: {Text.quoted p.text}"

/-- What ends a run without an answer. -/
inductive Crash
  | fault    (f : Fault)
  | path     (f : PathFault)
  | read     (e : ReadError)
  | manifest (e : ManifestError)
  | logFile  (e : LogFileError)

/-- The wording of a crash. -/
def Crash.message : Crash → String
  | .fault f    => f.message
  | .path f     => f.message
  | .read e     => e.message
  | .manifest e => e.message
  | .logFile e  => e.message

/-- What a run leaves: its exit code, its output, its error output, and the lines that are added to
the log file, if there is one. -/
structure Outcome where
  exit   : Nat
  output : String
  errors : String
  kept   : Option (Path × List LogLine) := none

/-- A run that ends with an answer or not at all. -/
abbrev Run := Except Crash Outcome

/-- Where log lines go. -/
structure Logging where
  verbose : Bool
  file    : Option Path := none

namespace Logging

/-- The lines as they are printed. -/
def printed (l : Logging) (lines : List LogLine) : String :=
  String.join ((lines.filter (·.shows l.verbose)).map (·.printed))

/-- The lines that are added to the log file. -/
def kept (l : Logging) (lines : List LogLine) : Option (Path × List LogLine) :=
  l.file.map fun p => (p, lines.filter (·.shows l.verbose))

/-- A disk with lines added to the log file. -/
def write (l : Logging) (time : String) (lines : List LogLine) (d : Disk) : Disk :=
  match l.kept lines with
  | none           => d
  | some (p, kept) =>
    d.append p.names (String.join (kept.map fun k => time ++ k.kept)).toUTF8.toList

/-- Ends a run. -/
def finish (l : Logging) (lines : List LogLine) (exit : Nat) (output errors : String) : Outcome :=
  ⟨exit, output, l.printed lines ++ errors, l.kept lines⟩

/-- Ends a run that has its result. -/
def succeed (l : Logging) (lines : List LogLine) (output : String) : Outcome :=
  l.finish lines 0 output ""

/-- Ends a run that has a record for its result, if the record can be written. -/
def print (l : Logging) (lines : List LogLine) (record : Value) : Run :=
  match Json.text record with
  | .ok text => .ok (l.succeed lines (text ++ "\n"))
  | .error o => .error (.fault (.overlong o))

/-- Ends a run that failed. -/
def failWith (l : Logging) (lines : List LogLine) (message : String) : Outcome :=
  l.finish lines 1 "" message

/-- The file that lines are added to, if it can be opened. -/
def openFile (d : Disk) (file : Path) : Except LogFileError Path :=
  let p := file.below d.cwd
  match d.find p, d.find p.parent with
  | .error f,       _               => .error (.path f)
  | .ok .directory, _               => .error (.isDirectory p)
  | .ok _,          .ok .directory  => .ok p
  | .ok _,          _               =>
    .error (if d.isBelowFile p then .notDirectory p else .notFound p)

end Logging

/-! ### Commands -/

/-- Shows the directives of a text. -/
def runParse (verbose : Bool) (text : String) : Run :=
  let logging : Logging := ⟨verbose, none⟩
  match Reading.ofText text with
  | .ok rs               => logging.print [] (.list (rs.map (·.record)))
  | .error (.reported e) => .ok (logging.failWith [] (e.message ++ "\n"))
  | .error f             => .error (.fault f)

/-- The fault of errors whose places cannot be written. -/
def placeFault? (errors : List AnnotationError) : Option Fault :=
  (errors.findSome? (·.overlong?)).map .overlong

/-- The fault that ends the whole run with a pass: one that is neither an error about a directive
nor a batch of such errors. -/
def runFault? (pass : Pass) : Option Fault :=
  match pass.fault with
  | some (.reported _) => none
  | some (.batch _)    => none
  | f                  => f

/-- The passes over classes, each into a descriptor of its own. -/
def expandAll (p : Processor) : List ClassSource → Except Fault (List Pass)
  | []        => .ok []
  | s :: rest =>
    let pass := p.expandFresh s
    match runFault? pass with
    | some f => .error f
    | none   => (expandAll p rest).map (pass :: ·)

/-- Expands the classes of a manifest against a registry. -/
def expandClasses (logging : Logging) (lines : List LogLine) (registry : Registry)
    (sources : List ClassSource) : Run :=
  match expandAll ⟨registry⟩ sources with
  | .error f   => .error (.fault f)
  | .ok passes =>
    let lines  := lines ++ passes.flatMap (·.log)
    let errors := passes.flatMap (·.failures)
    let whole  := passes.filter (·.fault.isNone)
    if errors.isEmpty then
      logging.print lines (Descriptor.recordAll (whole.map (·.descriptor)))
    else match placeFault? errors with
      | some f => .error (.fault f)
      | none   => .ok (logging.failWith lines (AnnotationError.report errors))

/-- A failure to read a file that is reported, or one that is not. -/
def readFailure (e : ReadError) (reported : Outcome) : Run :=
  match e with
  | .undecodable _ => .error (.read e)
  | .broken _      => .error (.read e)
  | _              => .ok reported

/-- A failure to load a manifest. -/
def manifestFailure (e : ManifestError) (reported : Outcome) : Run :=
  match e with
  | .path f        => .error (.path f)
  | .read e        => readFailure e reported
  | .notIterable _ => .error (.manifest e)
  | .overlong _    => .error (.manifest e)
  | _              => .ok reported

/-- Expands the classes of a manifest. -/
def runExpand (read : DocumentReader) (d : Disk) (logging : Logging) (filling : Filling)
    (manifest : String) : Run :=
  match Manifest.load read d (.ofText manifest) with
  | .error e    => manifestFailure e (logging.failWith filling.log (e.message ++ "\n"))
  | .ok sources =>
    expandClasses logging
      (filling.log ++ [⟨.debug, "cli", s!"Loaded {sources.length} classes from {manifest}"⟩])
      filling.registry sources

/-- The lines about a kind: its directive, where it applies and how it is used. -/
def kindLines (k : Kind) : String :=
  let labels := ((k.mask.map (·.members)).getD []).map (·.label)
  s!"!{k.identifier}  (" ++ ", ".intercalate labels ++ ")\n" ++ s!"    {k.usage}\n"

/-- Lists the kinds of directives. -/
def runAnnotations (logging : Logging) (filling : Filling) : Run :=
  let kinds := filling.registry.kinds.values.mergeSort fun a b => !(b.identifier < a.identifier)
  .ok (logging.succeed filling.log (String.join (kinds.map kindLines)))

/-- Runs a command that works with settings, on the disk with the log file open. -/
def withSettings (read : DocumentReader) (d : Disk) (plugins : Plugins) (verbose : Bool)
    (config time : String) (run : Disk → Logging → Filling → Run) : Run :=
  match Settings.load read d (.ofText config) with
  | .error e     =>
    let reported : Outcome := ⟨1, "", e.message ++ "\n", none⟩
    match e with
    | .path f      => .error (.path f)
    | .read e      => readFailure e reported
    | .notAMapping => .ok reported
  | .ok settings =>
    let verbose := verbose || settings.verbose
    let go (file : Option Path) : Run :=
      let logging : Logging := ⟨verbose, file⟩
      let filling := settings.selection.populate plugins
      match filling.failure with
      | some e => .ok (logging.failWith filling.log s!"Failed to load annotations: {e.message}\n")
      | none   => run (logging.write time filling.log d) logging filling
    match settings.logFile.map (Logging.openFile d) with
    | none             => go none
    | some (.ok p)     => go (some p)
    | some (.error e)  => .error (.logFile e)

/-- How the program is called. -/
def usageText : String :=
  "usage: docmeta [-h] [-v] \x7bparse,expand,annotations\x7d ...\n"

/-- Runs a command line at a time.  The text to parse is `-` where it is to be read from the
input. -/
def run (read : DocumentReader) (d : Disk) (plugins : Plugins) (words : List String)
    (input time : String) : Run :=
  match Request.ofWords words with
  | .error .usage => .ok ⟨2, "", usageText, none⟩
  | .error .help  => .ok ⟨0, usageText, "", none⟩
  | .ok r         =>
    match r.command with
    | .parse text           => runParse r.verbose (if text = "-" then input else text)
    | .expand path config   =>
      withSettings read d plugins r.verbose config time fun d l f => runExpand read d l f path
    | .annotations config   =>
      withSettings read d plugins r.verbose config time fun _ l f => runAnnotations l f

end DocDirective.CommandLine
