import FaultPoints.Control.Http
import FaultPoints.Launch.Program

/-!
# The command line

The program takes its settings from the environment and from the file that the environment
names. Once its node is ready it reads commands from its input, one document on a line, and
writes the answers to its output; the end of the input stops it.

## Main Definitions

* `main` — the program
-/

namespace FaultPoints.Main

/-- The texts between the zero bytes of a list. -/
def variableTexts (bytes : List UInt8) : List String :=
  let texts := bytes.foldr (fun b acc =>
    match b == 0, acc with
    | true, _ => [] :: acc
    | false, text :: rest => (b :: text) :: rest
    | false, [] => [[b]]) []
  texts.map fun t => (String.fromUTF8? ⟨t.toArray⟩).getD ""

/-- A variable with its text. -/
def readPair (s : String) : Option (String × String) :=
  let cs := s.toList
  match cs.dropWhile (· ≠ '=') with
  | '=' :: rest => some (String.ofList (cs.takeWhile (· ≠ '=')), String.ofList rest)
  | _ => none

/-- The environment. -/
def environment : IO Settings.Environment := do
  let bytes ← IO.FS.readBinFile "/proc/self/environ"
  pure ((variableTexts bytes.toList).filterMap readPair)

/-- The settings file that the environment names, as it is found under its path or with the
extension added. -/
def settingsFiles (e : Settings.Environment) : IO Files.Store := do
  let path := (e.get? Settings.pathVariable).getD ""
  let more := (Files.withSuffix path ("." ++ Settings.fileExtension)).toList
  (path :: more).foldlM (fun (files : Files.Store) (p : String) => do
    try
      let text ← IO.FS.readFile p
      pure (files.append p text).2
    catch _ => pure files) .vacant

/-- Adds a text to the log. -/
def writeLog (path text : String) : IO Unit := do
  match Files.parent path with
  | some directory => if !directory.isEmpty then IO.FS.createDirAll directory
  | none => pure ()
  let log ← IO.FS.Handle.mk path .append
  log.putStr text

/-- What is said of a line that is no command. -/
def wording : Control.Http.Wording where
  broken _
    | .malformed => "the line is no document"
    | .ended => "the line ends within a document"
  place _ := ""

/-- The answer to a line. -/
def answerLine (line : String) : Except Control.CommandError Control.Response → String
  | .ok r => r.toValue.render
  | .error (.unread f) =>
    (Control.ErrorReply.toValue ⟨wording.flaw line.toUTF8.toList f⟩).render
  | .error (.refused r) => (Control.ErrorReply.toValue ⟨r.message⟩).render

/-- Answers commands until the input ends. -/
partial def answerAll (id : Nat) (p : Fault.Host) : IO Fault.Host := do
  let line ← (← IO.getStdin).getLine
  if line.isEmpty then pure p
  else
    let (answer, q) := Control.execute p id (Text.glyphs line)
    IO.println (answerLine line answer)
    answerAll id q

/-- Ends with a failure. -/
def fail (f : Failure) : IO UInt32 := do
  IO.eprintln ("Error: " ++ f.report)
  pure 1

/-- Runs the program with settings that have been checked. -/
def runWith (e : Settings.Environment) (s : Settings) : IO UInt32 := do
  let path := Launch.logPath s
  match Launch.start s e fun _ => false with
  | .error (f, records) =>
    writeLog path (Launch.logText e records)
    fail f
  | .ok n =>
    writeLog path (Launch.logText e n.records)
    let host ← answerAll n.node.controller n.host
    writeLog path (Launch.logText e (Launch.runRecords n.node host .terminate))
    pure 0

end FaultPoints.Main

/-- The program. -/
def main : IO UInt32 := do
  let e ← FaultPoints.Main.environment
  let files ← FaultPoints.Main.settingsFiles e
  match FaultPoints.Launch.settings e files with
  | .error f => FaultPoints.Main.fail f
  | .ok s => FaultPoints.Main.runWith e s
