import CodeIndex.Command.Run

/-!
# CodeIndex.Main

The command line program. It reads the files that its arguments name and shows the outputs of the
command. No grammar and no vocabulary is linked into it: the loader refuses every language, and no encoding
has a name. Its terminal shows every output as it is.
-/

namespace CodeIndex

def bareEngine : Engine where
  load := fun name _ => .error ⟨"no grammar named " ++ name⟩
  parse := fun _ _ => none
  queryFault? := fun _ _ => none

/-- What is found at a path. -/
def entryAt? (path : String) : IO (Option Disk.Entry) := do
  try
    let bytes ← IO.FS.readBinFile path
    return some (.file bytes.toList)
  catch
    | .permissionDenied _ _ _ => return some .locked
    | _ => return none

def diskOf (directory : String) : List String → IO Disk
  | [] => return []
  | argument :: arguments => do
    let disk ← diskOf directory arguments
    let file := Path.canonical directory argument
    match ← entryAt? file with
    | some entry => return disk.write file entry
    | none => return disk

def environment : IO Environment := do
  return {
    logLevel := ← IO.getEnv "TREESITTER_SEARCH_LOG_LEVEL"
    encoding := ← IO.getEnv "TREESITTER_SEARCH_ENCODING"
    usageLog := ← IO.getEnv "TREESITTER_SEARCH_USAGE_LOG" }

def tabbed (cells : List String) : String := "\t".intercalate cells

def showOutput : Output → IO Unit
  | .line text => IO.println text
  | .table headers rows => do
    IO.println (tabbed headers)
    for row in rows do
      IO.println (tabbed row)
  | .code text _ => IO.println text
  | .json text => IO.println text

def showNotice (settings : Settings) (notice : Notice) : IO Unit := do
  let rank (level : String) : Nat := (Settings.levels.get? level).getD 0
  if rank settings.logLevel ≤ rank notice.severity.name then
    IO.eprintln notice.line

def showEffect (settings : Settings) : Effect → IO Unit
  | .log notice => showNotice settings notice
  | .shown output => showOutput output
  | _ => return ()

/-- Carries out the command and gives its exit status. -/
def program (arguments : List String) : IO UInt32 := do
  let directory := (← IO.currentDir).toString
  let setup : Setup := {
    engine := bareEngine
    directory := directory
    settings := .ofEnvironment (← environment)
    vocabulary? := fun _ => none
    encoding := none
    blocks := []
    sink := .log
    room := 1000
    draw := .ok }
  let disk ← diskOf directory arguments
  let run := Action.commandLine arguments setup { world := { disk := disk } }
  for effect in run.effects do
    showEffect setup.settings effect
  match run.result with
  | .ok console => return console.exit.toUInt32
  | .error failure =>
    IO.eprintln failure.message
    return 1

end CodeIndex

def main (arguments : List String) : IO UInt32 := CodeIndex.program arguments
