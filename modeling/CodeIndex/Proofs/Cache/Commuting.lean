import CodeIndex.Proofs.Action.Local
import Mathlib.Logic.Equiv.Basic

/-!
# CodeIndex.Proofs.Cache.Commuting

Operations on different files, in either order.

* `Local.after`: an operation does the same before and after one on another file.
* `Index.Renumbered`: the same index, but for the serials of documents.
* `operations_commute`: two operations on different files can change places.
-/

namespace CodeIndex
namespace Action

variable {α β : Type} {setup : Setup} {answer : String → Except LoadFault Grammar}
  {file? : Option String} {σ : Nat → Nat} {s : State}

/-- Between two local operations on different files the first one leaves the second one its entry. -/
theorem Local.after {renumber : (Nat → Nat) → α → α} {renumber' : (Nat → Nat) → β → β}
    {other? : Option String} {x : Action α} {y : Action β} (hx : Local setup answer file? renumber x)
    (hy : Local setup answer other? renumber' y)
    (different : ∀ file, file? = some file → other? ≠ some file) (steady : s.Steady answer)
    (old : ∀ n < s.index.made, σ n = n)
    (fresh : (x setup s).state.index.made ≠ s.index.made →
      σ s.index.made = (y setup s).state.index.made) :
    Matches answer file? σ renumber s (x setup s) (y setup s).state (x setup (y setup s).state) := by
  have frame := hy.frame s steady
  exact hx.agree s (y setup s).state σ steady frame.steady
    ⟨frame.disk, fun file hf => frame.others file (different file hf)⟩
    ⟨fun file d _ hd => old d.serial (steady.serial file d hd), fresh⟩

/-- If each of two operations makes a document, the two swap their serials. -/
theorem exists_swap {m x y : Nat} (hx : x = m ∨ x = m + 1) (hy : y = m ∨ y = m + 1) :
    ∃ σ : Nat → Nat, σ.Involutive ∧ (∀ n < m, σ n = n) ∧ (x ≠ m → σ m = y) ∧ (y ≠ m → σ m = x) := by
  by_cases both : x ≠ m ∧ y ≠ m
  · obtain ⟨rfl, rfl⟩ : x = m + 1 ∧ y = m + 1 := by omega
    refine ⟨Equiv.swap m (m + 1), Equiv.swap_apply_self m (m + 1), fun n hn => ?_,
      fun _ => Equiv.swap_apply_left m (m + 1), fun _ => Equiv.swap_apply_left m (m + 1)⟩
    exact Equiv.swap_apply_of_ne_of_ne (by omega) (by omega)
  · exact ⟨id, fun _ => rfl, fun _ _ => rfl, fun _ => by simp only [id]; omega,
      fun _ => by simp only [id]; omega⟩

end Action

/-- The same documents but for their serials, the same grammars, and the same outcomes that are pending. -/
structure Index.Renumbered (σ : Nat → Nat) (i j : Index) : Prop where
  made : j.made = i.made
  cache : ∀ file, j.cache.get? file = (i.cache.get? file).map (Document.renumber σ)
  grammar : ∀ name, j.registry.grammars.get? name = i.registry.grammars.get? name
  held : ∀ name, j.registry.held? name = i.registry.held? name

variable {setup : Setup} {answer : String → Except LoadFault Grammar}

/-- Two operations on different files can be done in either order, one after the other, in any state of a
session, where no load is under way, and over a loader that never changes its answers. Each of them has the same result, a failure too, and the cache and the registry are the same in
the end. Only the serials of documents that are made meanwhile are given out differently. -/
theorem operations_commute (constant : setup.LoadsAs answer) (disk : Disk) (steps : List Step)
    {a b : Step} {p q : String} (ha : a.path? = some p) (hb : b.path? = some q)
    (different : ∀ file, Action.fileOf? setup p = some file → Action.fileOf? setup q ≠ some file) :
    let s := ((Session.start disk).run setup steps).state
    let first := a.run setup s
    let second := b.run setup first.state
    let first' := b.run setup s
    let second' := a.run setup first'.state
    ∃ σ : Nat → Nat, σ.Involutive ∧ (∀ n < s.index.made, σ n = n) ∧
      second'.result = first.result.map (Reply.renumber σ) ∧
      first'.result = second.result.map (Reply.renumber σ) ∧
      second.state.index.Renumbered σ second'.state.index := by
  intro s first second first' second'
  have steady : s.Steady answer := Session.steady_run constant disk steps
  have localA := Action.local_step constant ha
  have localB := Action.local_step constant hb
  have different' : ∀ file, Action.fileOf? setup q = some file →
      Action.fileOf? setup p ≠ some file := fun file hq hp => different file hp hq
  have frameA : s.Frame answer _ first.state := localA.frame s steady
  have frameB : s.Frame answer _ first'.state := localB.frame s steady
  obtain ⟨σ, involutive, old, freshA, freshB⟩ := Action.exists_swap frameA.made frameB.made
  have runsA : Action.Matches answer _ σ Reply.renumber s first first'.state second' :=
    localA.after localB different steady old freshA
  have runsB : Action.Matches answer _ σ Reply.renumber s first' first.state second :=
    localB.after localA different' steady old freshB
  obtain ⟨wantedA, gainsA, gainsA'⟩ := runsA.gains
  obtain ⟨wantedB, gainsB, gainsB'⟩ := runsB.gains
  have othersA := (localA.frame first'.state frameB.steady).others
  have othersB := (localB.frame first.state frameA.steady).others
  refine ⟨σ, involutive, old, runsA.result, ?_, ?_, fun file => ?_, fun name => ?_, fun name => ?_⟩
  · rw [runsB.result]
    cases first'.result with
    | error e => rfl
    | ok reply => exact congrArg Except.ok (Reply.renumber_involutive involutive reply).symm
  · have madeA := runsA.made
    have madeB := runsB.made
    omega
  · by_cases hp : Action.fileOf? setup p = some file
    · rw [runsA.entry file hp, othersB file (different file hp)]
    rw [othersA file hp]
    by_cases hq : Action.fileOf? setup q = some file
    · rw [runsB.entry file hq, Option.map_map, (Document.renumber_involutive involutive).comp_self,
        Option.map_id, id]
    · rw [othersB file hq, frameA.others file hp, frameB.others file hq]
      exact (Document.map_renumber fun d hd => old d.serial (steady.serial file d hd)).symm
  · exact (gainsA.commute gainsB' gainsB gainsA' name).1
  · exact (gainsA.commute gainsB' gainsB gainsA' name).2

/-- Two files in different languages are parsed, the second one again. -/
theorem operations_commute_parsed :
    let engine : Engine := ⟨fun name _ => .ok ⟨name⟩, fun _ _ => some default, fun _ _ => none⟩
    let setup := { plainSetup "gpt2" with engine := engine }
    let steps : List Step := [.document "b.go" none (some "x"), .load "rust"]
    let a : Step := .document "a.py" none (some "x")
    let b : Step := .reparse "b.go" none (some "y")
    (Action.fileOf? setup "a.py" = some "/a.py" ∧ Action.fileOf? setup "b.go" = some "/b.go") ∧
      let s := ((Session.start []).run setup steps).state
      let first := a.run setup s
      let second := b.run setup first.state
      let first' := b.run setup s
      let second' := a.run setup first'.state
      ∃ σ : Nat → Nat, σ.Involutive ∧ (∀ n < s.index.made, σ n = n) ∧
        second'.result = first.result.map (Reply.renumber σ) ∧
        first'.result = second.result.map (Reply.renumber σ) ∧
        second.state.index.Renumbered σ second'.state.index := by
  intro engine setup steps a b
  have constant : setup.LoadsAs fun name => .ok ⟨name⟩ := fun _ _ => rfl
  have ha : Action.fileOf? setup "a.py" = some "/a.py" := by decide +kernel
  have hb : Action.fileOf? setup "b.go" = some "/b.go" := by decide +kernel
  have different : ∀ file, Action.fileOf? setup "a.py" = some file →
      Action.fileOf? setup "b.go" ≠ some file := by
    rw [ha, hb]
    rintro file ⟨⟩
    decide
  exact ⟨⟨ha, hb⟩, operations_commute constant [] steps rfl rfl different⟩

end CodeIndex
