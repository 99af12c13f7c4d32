import CodeIndex.Index.Action

/-!
# CodeIndex.Index.Loading

Loading grammars into the registry of an index.

* `load`: one call, until it ends.
* `loadEach`: calls that run together; each has a result of its own.
* `loadTogether`: calls that run together and fail together. A call that fails at once is reported
  at once; the attempts of the others are then still to be settled.
* `loadCancelled`: a call that is cancelled before its attempt starts.
-/

namespace CodeIndex
namespace Action

/-- Runs a transition of the registry and keeps account of the names the loader is asked for. -/
def transition (f : Registry → Registry × List Effect) : Action Unit := fun _ s =>
  let next := f s.index.registry
  let loads := next.2.filterMap fun
    | .load name => some name
    | _ => none
  ⟨.ok (), { index := { s.index with registry := next.1 },
             world := { s.world with loads := s.world.loads ++ loads } }, next.2⟩

/-- Starts a call and gives its place among the calls. -/
def startLoad (language : String) : Action Nat := do
  let place := (← state).index.registry.calls.length
  transition fun r => r.call language
  return place

/-- Lets all attempts and calls end. -/
def settle : Action Unit := do
  let load := (← setup).engine.load
  let loads := (← state).world.loads
  transition fun r => r.settle fun name => load name (loads.count name)

/-- The failure of a call, if it has failed. -/
def loadFailure? (call : Nat) : Action (Option Failure) := do
  match (← state).index.registry.calls[call]? with
  | some ⟨name, _, .raised fault⟩ => return some (.error (.noGrammar name fault))
  | _ => return none

def firstFailure? : List Nat → Action (Option Failure)
  | [] => return none
  | c :: calls => do
    match ← loadFailure? c with
    | some e => return some e
    | none => firstFailure? calls

def startLoads : List String → Action (List Nat)
  | [] => return []
  | language :: languages => do
    let c ← startLoad language
    return c :: (← startLoads languages)

def endLoad (call : Nat) : Action Unit := do
  match ← loadFailure? call with
  | some e => fail e
  | none => return ()

def load (language : String) : Action Unit := do
  let c ← startLoad language
  settle
  endLoad c

def endLoads : List Nat → Action (List (Except Failure Unit))
  | [] => return []
  | c :: calls => do
    let result ← attempt (endLoad c)
    return result :: (← endLoads calls)

def loadEach (languages : List String) : Action (List (Except Failure Unit)) := do
  let calls ← startLoads languages
  settle
  endLoads calls

def failFirst (calls : List Nat) : Action Unit := do
  match ← firstFailure? calls with
  | some e => fail e
  | none => return ()

/-- Loads side by side, which one failure lets fail. A failure that comes at once ends this; otherwise all loads
are waited for, and the failure is the first in the list. Where failures come one after the other, the first
in time may be another one, and the other loads may still be under way then. -/
def loadTogether (languages : List String) : Action Unit := do
  let calls ← startLoads languages
  failFirst calls
  settle
  failFirst calls

/-- Whether the call was still under way when it was cancelled. -/
def loadCancelled (language : String) : Action Bool := do
  let c ← startLoad language
  endLoad c
  transition fun r => r.run [.cancel c, .wake c]
  let status := (← state).index.registry.status? c
  settle
  return status == some .cancelled

def isLoaded (language : String) : Action Bool :=
  return (← state).index.registry.isLoaded language

def grammar (language : String) : Action Grammar := do
  ofExcept ((← state).index.registry.get language)

end Action
end CodeIndex
