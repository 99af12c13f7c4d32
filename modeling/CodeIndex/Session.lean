import CodeIndex.Command.Run
import CodeIndex.Tool.Function

/-!
# CodeIndex.Session

One index in use, step by step.

* `Step` and `Reply`: what may be done, and what comes back.
* `Session`: the state of the index and its surroundings, and the documents that have been shown. A
  document has the number of its first showing.
* `Session.step`: one step. Loads that are still under way at its end are settled.
-/

namespace CodeIndex

inductive Step where
  | request (tool : String) (arguments : Table Value) (seconds : Float)
  | document (path : String) (language content : Option String)
  | reparse (path : String) (language content : Option String)
  | entry (path : String)
  | isCached (path : String)
  | forget (path : String)
  | forgetAll
  | captures (path query : String)
  | elements (path kind : String)
  | enclosing (path : String) (point : Point)
  | comparison (path : String) (language content : Option String)
  | load (language : String)
  | loadEach (languages : List String)
  | loadCancelled (language : String)
  | isLoaded (language : String)
  | grammar (language : String)
  | write (path : String) (entry : Disk.Entry)
  | delete (path : String)
  | function (tool : Tool) (given : Table Value)
  | describe (tool : Tool)
  | commandLine (arguments : List String)

inductive Reply where
  | done
  | flag (b : Bool)
  | document (d : Document)
  | noDocument
  | captures (captures : List Capture)
  | elements (elements : List Element)
  | enclosing (text : Option String)
  | comparison (c : Comparison)
  | answer (a : Answer)
  | loads (results : List (Except Failure Unit))
  | ended (cancelled : Bool)
  | grammar (g : Grammar)
  | payload (p : Except Function.Raised Function.Payload)
  | function (f : Function)
  | console (c : Console)

namespace Step

/-- The operation of a step. -/
def run : Step → Action Reply
  | .request tool arguments seconds => return .answer (← Action.request tool arguments seconds)
  | .document path language content => return .document (← Action.document path language content)
  | .reparse path language content => return .document (← Action.reparse path language content)
  | .entry path => do
    match ← Action.entry? path with
    | some d => return .document d
    | none => return .noDocument
  | .isCached path => return .flag (← Action.isCached path)
  | .forget path => return .flag (← Action.forget path)
  | .forgetAll => do
    Action.forgetAll
    return .done
  | .captures path query => return .captures (← Action.captures path query)
  | .elements path kind => return .elements (← Action.elements path kind)
  | .enclosing path point => return .enclosing (← Action.enclosing path point)
  | .comparison path language content =>
    return .comparison (← Action.comparison path language content)
  | .load language => do
    Action.load language
    return .done
  | .loadEach languages => return .loads (← Action.loadEach languages)
  | .loadCancelled language => return .ended (← Action.loadCancelled language)
  | .isLoaded language => return .flag (← Action.isLoaded language)
  | .grammar language => return .grammar (← Action.grammar language)
  | .write path written => do
    let file := Path.canonical (← Action.setup).directory path
    Action.modifyWorld fun w => { w with disk := w.disk.write file written }
    return .done
  | .delete path => do
    let file := Path.canonical (← Action.setup).directory path
    Action.modifyWorld fun w => { w with disk := w.disk.delete file }
    return .done
  | .function tool given => return .payload (← Function.call tool given)
  | .describe tool => return .function (Function.ofTool tool)
  | .commandLine arguments => return .console (← Action.commandLine arguments)

end Step

structure Session where
  state : State := {}
  /-- Serials of the documents that have been shown, in order. -/
  shown : List Nat := []

namespace Index

/-- The cached files with their languages, by file id. -/
def listing (i : Index) : List (String × String) :=
  i.cache.sortedKeys.filterMap fun file =>
    (i.cache.get? file).map fun d => (file, d.language)

end Index

namespace Session

def start (disk : Disk) : Session := { state := { world := { disk := disk } } }

/-- The number of a document, if it has been shown. -/
def number? (session : Session) (d : Document) : Option Nat := session.shown.idxOf? d.serial

def noteShown (session : Session) (reply : Except Failure Reply) : Session :=
  match reply with
  | .ok (.document d) =>
    if session.shown.contains d.serial then session
    else { session with shown := session.shown ++ [d.serial] }
  | _ => session

/-- One step with its reply, the session after it, and what happened. -/
def step (setup : Setup) (session : Session) (step : Step) :
    Except Failure Reply × Session × List Effect :=
  let run := step.run setup session.state
  let settled := Action.settle setup run.state
  (run.result, noteShown { session with state := settled.state } run.result,
    run.effects ++ settled.effects)

/-- The states that a session goes through. -/
def run (setup : Setup) (session : Session) : List Step → Session
  | [] => session
  | s :: steps => run setup (session.step setup s).2.1 steps

end Session
end CodeIndex
