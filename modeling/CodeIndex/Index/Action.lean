import CodeIndex.Disk
import CodeIndex.Effect
import CodeIndex.Index.Document
import CodeIndex.Settings

/-!
# CodeIndex.Index.Action

Operations on an index, as functions from a state to a result, the next state, and the effects.

* `Engine`: the grammar loader, the parser and the query compiler, which are not part of the index.
* `Setup`: what stays fixed while an index is in use.
* `Index` and `World`: what an operation may change, inside and outside of the index.
* `Action`: an operation. After a failure nothing more is done, but what was done stays done.
-/

namespace CodeIndex

structure Engine where
  /-- What the loader answers for a name that it has been asked for `earlier` times before. -/
  load : (name : String) → (earlier : Nat) → Except LoadFault Grammar
  parse : Grammar → (content : String) → Option Tree
  /-- What is wrong with a query, if it does not compile for a grammar. -/
  queryFault? : Grammar → (query : String) → Option String

/-- Where usage events go: to a listener, or to the log. -/
inductive Sink where
  | listener
  | log
deriving DecidableEq

structure Setup where
  engine : Engine
  /-- The absolute path that relative paths start from. -/
  directory : String
  settings : Settings
  /-- The encoding that has a name, if there is one. -/
  vocabulary? : (name : String) → Option Encoding
  /-- The encoding of the index; without one, the encoding that the environment names is taken. -/
  encoding : Option Encoding
  blocks : Table (List String)
  sink : Sink
  /-- How many levels of arrays and objects the encoder of the log can write before its stack is full. It is
  taken to be the same wherever a report is made. -/
  room : Nat
  /-- What the terminal makes of an output: what is seen of it, or the fault that drawing it ends in. The
  terminal reads markup in the texts of lines and tables, and it reads JSON anew. -/
  draw : Output → Except Fault Output

structure Index where
  registry : Registry := {}
  cache : Table Document := []
  /-- How many files have been parsed. -/
  made : Nat := 0

structure World where
  disk : Disk := []
  /-- The names that the loader has been asked for, in order. -/
  loads : List String := []
  /-- The vocabularies that have been taken. -/
  vocabularies : List String := []

structure State where
  index : Index := {}
  world : World := {}

structure Run (α : Type) where
  result : Except Failure α
  state : State
  effects : List Effect

def Action (α : Type) := Setup → State → Run α

namespace Action

variable {α β : Type}

def pure (a : α) : Action α := fun _ s => ⟨.ok a, s, []⟩

def bind (x : Action α) (f : α → Action β) : Action β := fun setup s =>
  let first := x setup s
  match first.result with
  | .ok a =>
    let next := f a setup first.state
    ⟨next.result, next.state, first.effects ++ next.effects⟩
  | .error e => ⟨.error e, first.state, first.effects⟩

instance : Monad Action where
  pure := pure
  bind := bind

def fail (e : Failure) : Action α := fun _ s => ⟨.error e, s, []⟩

def ofExcept (x : Except Error α) : Action α :=
  match x with
  | .ok a => pure a
  | .error e => fail (.error e)

/-- Turns a failure into a result. -/
def attempt (x : Action α) : Action (Except Failure α) := fun setup s =>
  let run := x setup s
  ⟨.ok run.result, run.state, run.effects⟩

def setup : Action Setup := fun setup s => ⟨.ok setup, s, []⟩

def state : Action State := fun _ s => ⟨.ok s, s, []⟩

def emit (effect : Effect) : Action Unit := fun _ s => ⟨.ok (), s, [effect]⟩

def log (notice : Notice) : Action Unit := emit (.log notice)

def modifyIndex (f : Index → Index) : Action Unit := fun _ s =>
  ⟨.ok (), { s with index := f s.index }, []⟩

def modifyWorld (f : World → World) : Action Unit := fun _ s =>
  ⟨.ok (), { s with world := f s.world }, []⟩

/-- Runs with another setup. -/
def under (f : Setup → Setup) (x : Action α) : Action α := fun setup s => x (f setup) s

/-- Runs on an empty index and leaves the present one as it is. -/
def onFreshIndex (x : Action α) : Action α := fun setup s =>
  let run := x setup { s with index := {} }
  ⟨run.result, { run.state with index := s.index }, run.effects⟩

@[simp] theorem pure_run (a : α) (setup : Setup) (s : State) :
    (Pure.pure a : Action α) setup s = ⟨.ok a, s, []⟩ := rfl

theorem bind_run (x : Action α) (f : α → Action β) (setup : Setup) (s : State) :
    (x >>= f) setup s =
      match (x setup s).result with
      | .ok a =>
        ⟨(f a setup (x setup s).state).result, (f a setup (x setup s).state).state,
          (x setup s).effects ++ (f a setup (x setup s).state).effects⟩
      | .error e => ⟨.error e, (x setup s).state, (x setup s).effects⟩ := rfl

theorem bind_run_ok {x : Action α} {setup : Setup} {s : State} {a : α}
    (h : (x setup s).result = .ok a) (f : α → Action β) :
    (x >>= f) setup s =
      ⟨(f a setup (x setup s).state).result, (f a setup (x setup s).state).state,
        (x setup s).effects ++ (f a setup (x setup s).state).effects⟩ := by
  simp [bind_run, h]

theorem bind_run_error {x : Action α} {setup : Setup} {s : State} {e : Failure}
    (h : (x setup s).result = .error e) (f : α → Action β) :
    (x >>= f) setup s = ⟨.error e, (x setup s).state, (x setup s).effects⟩ := by
  simp [bind_run, h]

end Action
end CodeIndex
