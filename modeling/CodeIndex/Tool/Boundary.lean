import CodeIndex.Tool.Request

/-!
# CodeIndex.Tool.Boundary

The boundary of a request. A failure becomes an error answer, and a request that gets an answer is
reported by one usage event before the answer is returned. A fault ends the request without an answer.
-/

namespace CodeIndex

namespace Usage

def levels (event : Usage) : Nat := (Value.obj event.arguments).levels

/-- What becomes of an event that the encoder of the log has no room for. -/
def tooDeep : Fault := .tooDeep "encoding a JSON object"

/-- What is logged about an event. -/
def notices (enabled : Bool) (event : Usage) : List Notice :=
  if enabled then [.usage event] else []

end Usage

namespace Action

def unknownTool (name : String) : String := "Unknown tool: " ++ name

def logAll : List Notice → Action Unit
  | [] => return ()
  | notice :: notices => do
    log notice
    logAll notices

/-- A log that is switched on writes the arguments of the event as JSON, by recursion. -/
def report (event : Usage) : Action Unit := do
  let setup ← setup
  match setup.sink with
  | .listener => emit (.event event)
  | .log =>
    if setup.settings.usageLog = true ∧ setup.room < event.levels then
      fail (.fault Usage.tooDeep)
    else logAll (event.notices setup.settings.usageLog)

def handle (tool : Tool) (arguments : Table Value) : Action Answer :=
  match tool.request arguments with
  | .ok request => request.run
  | .error e => fail (.error (.argument e))

/-- The answer to a request. -/
def answer (name : String) (arguments : Table Value) : Action Answer := do
  match Tool.named? name with
  | none => return .error (unknownTool name)
  | some tool =>
    match ← attempt (handle tool arguments) with
    | .ok answer => return answer
    | .error (.error e) =>
      log (.toolFailed name e)
      return .error e.message
    | .error (.fault f) => fail (.fault f)

/-- `seconds` is the time that passes between the start and the end of the request. -/
def request (name : String) (arguments : Table Value) (seconds : Float) : Action Answer := do
  let answer ← answer name arguments
  let tokens ← answerTokens answer.parts
  report ⟨name, arguments, answer.isError, answer.errorText?, seconds * 1000, tokens⟩
  return answer

end Action
end CodeIndex
