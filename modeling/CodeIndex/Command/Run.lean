import CodeIndex.Command.Arguments
import CodeIndex.Lookup.ByPath

/-!
# CodeIndex.Command.Run

Carrying out a command. Each command works on an index of its own, which is empty at the start, over
the same files and grammars. What a command prints is given as a list of outputs, and the exit status
tells how it ended: 0, or 1 after an error or when there is no snippet. The outputs are drawn on the terminal
in their order, and an output that cannot be drawn ends the command.
-/

namespace CodeIndex

/-- How the tool server is started. -/
inductive Service where
  | stdio
  | network (transport host : String) (port : Int)
deriving DecidableEq

/-- What a command leaves: its exit status, what it hands to the terminal, and the servers it starts. -/
structure Console where
  exit : Nat
  printed : List Output := []
  served : List Service := []
deriving DecidableEq

namespace Console

/-- A table and the count of its rows. -/
def table (headers : List String) (rows : List (List String)) : List Output :=
  [.table headers rows, .line ("(" ++ toString rows.length ++ " rows)")]

def captureRow (c : Capture) : List String := [c.name, c.text, c.start.text, c.stop.text]

def elementRow (e : Element) : List String := [e.name, e.kind, e.start.text, e.stop.text]

def ofCaptures (captures : List Capture) : Console :=
  ⟨0, table ["capture", "text", "start", "end"] (captures.map captureRow), []⟩

def ofElements (elements : List Element) : Console :=
  ⟨0, table ["name", "type", "start", "end"] (elements.map elementRow), []⟩

def nothingEnclosing : Console :=
  ⟨1, [.line
    "[yellow]Could not find a contextual snippet for the given position.[/yellow]"], []⟩

def ofText (text lexer : String) : Console := ⟨0, [.code text lexer], []⟩

def thinPart (showThin : Bool) (thin : Option Thin) : List Output :=
  match showThin, thin with
  | true, some t => [.json (Thin.compactText (some t))]
  | _, _ => []

def ofComparison (showThin : Bool) (c : Comparison) : Console :=
  ⟨0, table ["representation", "tokens"] [
    ["original", toString c.sourceTokens],
    ["cst", toString c.concreteTokens],
    ["thin ast", toString c.thinTokens]] ++ thinPart showThin c.thin, []⟩

def ofError (e : Error) : Console := ⟨1, [.line ("[red]Error:[/red] " ++ e.message)], []⟩

def ofService (transport host : String) (port : Int) : Console :=
  if transport = "stdio" then ⟨0, [], [.stdio]⟩
  else
    ⟨0, [.line ("[green]Starting MCP server (transport: " ++ transport ++ ") on " ++ host ++ ":" ++
      toString port ++ "[/green]")], [.network transport host port]⟩

end Console

namespace Action

/-- An error is shown in one line. -/
def orErrorLine (x : Action Console) : Action Console := do
  match ← attempt x with
  | .ok console => return console
  | .error (.error e) => return .ofError e
  | .error (.fault f) => fail (.fault f)

def enclosingConsole (path : String) (p : Point) : Action Console := do
  match ← enclosing path p with
  | none => return .nothingEnclosing
  | some text =>
    match ← entry? path with
    | some d => return .ofText text d.language
    | none => return .ofText text "text"

/-- Comparisons are counted under the encoding that the environment names, which is taken first. -/
def runCommand : Command → Action Console
  | .search path query => orErrorLine do return .ofCaptures (← captures path query)
  | .elements path kind => orErrorLine do return .ofElements (← elements path kind)
  | .snippet path row column => orErrorLine (enclosingConsole path ⟨row, column⟩)
  | .analyze path language showThin => do
    let encoding ← environmentEncoding
    under (fun setup => { setup with encoding := some encoding })
      (orErrorLine do return .ofComparison showThin (← comparison path language none))
  | .serve transport host port => do
    let _ ← environmentEncoding
    return .ofService transport host port

/-- The log must have a level that exists. -/
def checkLevel : Action Unit := do
  let level := (← setup).settings.logLevel
  if Settings.levels.contains level then return ()
  else fail (.fault (.unknownLevel level))

/-- Hands outputs to the terminal, one after the other. -/
def drawAll : List Output → Action Unit
  | [] => return ()
  | output :: outputs => do
    match (← setup).draw output with
    | .ok seen =>
      emit (.shown seen)
      drawAll outputs
    | .error f => fail (.fault f)

def commandLine (arguments : List String) : Action Console := do
  match Command.select arguments with
  | .error exit => return ⟨exit, [], []⟩
  | .ok (name, rest) =>
    checkLevel
    match name.command rest with
    | .error exit => return ⟨exit, [], []⟩
    | .ok command =>
      let console ← onFreshIndex (under (fun setup => { setup with encoding := none, blocks := [] })
        (runCommand command))
      drawAll console.printed
      return console

end Action
end CodeIndex
