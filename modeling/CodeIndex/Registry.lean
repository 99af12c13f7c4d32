import CodeIndex.Effect
import CodeIndex.Language.Name

/-!
# CodeIndex.Registry

Grammars by name, each loaded once. Many load calls may be under way together, and they share the
attempts to load a grammar.

* `Registry`: the grammars that are registered, the attempt that the next call for a name would wait
  for, and all attempts and calls so far. Attempts and calls are known by their places.
* `Event`: a call starts, a call is cancelled, an attempt starts (this calls the loader), an attempt
  finishes, a call wakes up.
* `step`: what an event does. An event that cannot happen in a state changes nothing.
* `settle`: lets all attempts run to their ends and all calls return.
-/

namespace CodeIndex

structure Grammar where
  name : String
deriving DecidableEq, Repr

/-- How far an attempt is. -/
inductive Progress where
  | scheduled
  | running
  | finished (outcome : Except LoadFault Grammar)

structure Attempt where
  name : String
  progress : Progress

inductive CallStatus where
  /-- Waits for the end of its attempt. -/
  | waiting
  /-- Has been cancelled and has not noticed yet. -/
  | cancelling
  | returned
  | raised (fault : LoadFault)
  | cancelled
deriving DecidableEq

structure LoadCall where
  name : String
  /-- The attempt it waits for; none if the grammar was there already. -/
  attempt : Option Nat
  status : CallStatus
deriving DecidableEq

structure Registry where
  grammars : Table Grammar := []
  pending : Table Nat := []
  attempts : List Attempt := []
  calls : List LoadCall := []

inductive Event where
  | call (language : String)
  | cancel (call : Nat)
  | start (attempt : Nat)
  | finish (attempt : Nat) (outcome : Except LoadFault Grammar)
  | wake (call : Nat)

namespace Registry

def isLoaded (r : Registry) (language : String) : Bool :=
  r.grammars.contains (Language.normalize language)

def get (r : Registry) (language : String) : Except Error Grammar :=
  match r.grammars.get? (Language.normalize language) with
  | some g => .ok g
  | none => .error (.notLoaded (Language.normalize language))

def languages (r : Registry) : List String := r.grammars.sortedKeys

/-- The outcome of an attempt that is finished. -/
def outcome? (r : Registry) (attempt : Nat) : Option (Except LoadFault Grammar) :=
  match r.attempts[attempt]? with
  | some ⟨_, .finished outcome⟩ => some outcome
  | _ => none

def setProgress (r : Registry) (attempt : Nat) (name : String) (progress : Progress) : Registry :=
  { r with attempts := r.attempts.set attempt ⟨name, progress⟩ }

def setStatus (r : Registry) (call : Nat) (c : LoadCall) (status : CallStatus) : Registry :=
  { r with calls := r.calls.set call { c with status := status } }

/-- A call that ends takes its attempt out of the pending ones, if the attempt is finished and no
other one has taken its place. -/
def release (r : Registry) (name : String) (attempt : Nat) : Registry :=
  if (r.outcome? attempt).isSome ∧ r.pending.get? name = some attempt then
    { r with pending := r.pending.erase name }
  else r

def statusOf : Except LoadFault Grammar → CallStatus
  | .ok _ => .returned
  | .error fault => .raised fault

/-- A waiting call ends when its attempt is finished, and a cancelled one in any case. -/
def wake (r : Registry) (call : Nat) : Registry :=
  match r.calls[call]? with
  | some c =>
    match c.attempt, c.status with
    | some k, .waiting =>
      match r.outcome? k with
      | some outcome => (r.setStatus call c (statusOf outcome)).release c.name k
      | none => r
    | some k, .cancelling => (r.setStatus call c .cancelled).release c.name k
    | _, _ => r
  | none => r

/-- Makes a new attempt for a name. -/
def schedule (r : Registry) (name : String) : Registry :=
  { r with
    pending := r.pending.insert name r.attempts.length
    attempts := r.attempts ++ [⟨name, .scheduled⟩] }

def addCall (r : Registry) (c : LoadCall) : Registry := { r with calls := r.calls ++ [c] }

/-- A call waits for the pending attempt, which it makes if there is none. If that attempt is
finished already the call ends at once. -/
def call (r : Registry) (language : String) : Registry × List Effect :=
  let name := Language.normalize language
  if r.grammars.contains name then
    (r.addCall ⟨name, none, .returned⟩, [.log (.alreadyLoaded name)])
  else
    match r.pending.get? name with
    | some k => ((r.addCall ⟨name, some k, .waiting⟩).wake r.calls.length, [])
    | none => ((r.schedule name).addCall ⟨name, some r.attempts.length, .waiting⟩, [])

def cancel (r : Registry) (call : Nat) : Registry :=
  match r.calls[call]? with
  | some c => if c.status = .waiting then r.setStatus call c .cancelling else r
  | none => r

def start (r : Registry) (attempt : Nat) : Registry × List Effect :=
  match r.attempts[attempt]? with
  | some ⟨name, .scheduled⟩ => (r.setProgress attempt name .running, [.load name])
  | _ => (r, [])

/-- A success registers the grammar and a failure registers nothing. -/
def finish (r : Registry) (attempt : Nat) (outcome : Except LoadFault Grammar) :
    Registry × List Effect :=
  match r.attempts[attempt]? with
  | some ⟨name, .running⟩ =>
    let r := r.setProgress attempt name (.finished outcome)
    match outcome with
    | .ok g => ({ r with grammars := r.grammars.insert name g }, [.log (.loaded name)])
    | .error fault => (r, [.log (.loadFailed name fault)])
  | _ => (r, [])

def step (r : Registry) : Event → Registry × List Effect
  | .call language => r.call language
  | .cancel c => (r.cancel c, [])
  | .start k => r.start k
  | .finish k outcome => r.finish k outcome
  | .wake c => (r.wake c, [])

def run (r : Registry) : List Event → Registry × List Effect
  | [] => (r, [])
  | e :: events =>
    let now := r.step e
    let later := run now.1 events
    (later.1, now.2 ++ later.2)

/-- All attempts start, then all of them finish, then all calls wake up. What the loader answers
depends on the name alone. -/
def settleEvents (loader : String → Except LoadFault Grammar) (r : Registry) : List Event :=
  (List.range r.attempts.length).map .start ++
    r.attempts.mapIdx (fun k a => .finish k (loader a.name)) ++
    (List.range r.calls.length).map .wake

def settle (loader : String → Except LoadFault Grammar) (r : Registry) : Registry × List Effect :=
  r.run (r.settleEvents loader)

/-- The status of a call that has started. -/
def status? (r : Registry) (call : Nat) : Option CallStatus :=
  (r.calls[call]?).map LoadCall.status

end Registry
end CodeIndex
