import CodeIndex.Proofs.Syntax.Outline
import Mathlib.Data.List.Perm.Basic

/-!
# CodeIndex.Proofs.Syntax.Build

The stack machine that builds one result for each kept node, turn by turn.

* `Steps`: some turns of the machine, with the results that it makes in them. A node is finished only when
  all results that it leaves standing are there.
* `steps_visit`: the turns between the visit of a node and its finish, whatever else is on both stacks.
* `postorder`: the order of the results that are made.
* `Concrete.outline_ofNode`: a concrete tree has the nodes of the syntax tree, in the same places.
* `bottomUp_is_fold`: a whole run.
-/

namespace CodeIndex
namespace Build

variable {β : Type} {make : Node → List β → β} {keep : Node → Bool}

theorem fold_eq (make : Node → List β → β) (keep : Node → Bool) (n : Node) :
    fold make keep n = make n ((n.children.filter keep).map (fold make keep)) := by
  cases n
  rw [fold, foldAll_eq, Node.children_node]

/-! ## Turns -/

/-- What `make` is applied to. -/
abbrev Call (β : Type) := Node × List β

/-- From two stacks to two stacks, with the calls of `make` in their order. -/
inductive Steps (make : Node → List β → β) (keep : Node → Bool) :
    List Task → List β → List (Call β) → List Task → List β → Prop where
  | refl {tasks : List Task} {built : List β} : Steps make keep tasks built [] tasks built
  | visit {n : Node} {tasks tasks' : List Task} {built built' : List β} {calls : List (Call β)} :
      Steps make keep ((n.children.filter keep).map .visit ++ .finish n built.length :: tasks) built
        calls tasks' built' →
      Steps make keep (.visit n :: tasks) built calls tasks' built'
  | finish {n : Node} {tasks tasks' : List Task} {children built built' : List β}
      {calls : List (Call β)} :
      Steps make keep tasks (make n children :: built) calls tasks' built' →
      Steps make keep (.finish n built.length :: tasks) (children.reverse ++ built)
        ((n, children) :: calls) tasks' built'

namespace Steps

theorem trans {tasks₁ tasks₂ tasks₃ : List Task} {built₁ built₂ built₃ : List β}
    {calls calls' : List (Call β)} (h : Steps make keep tasks₁ built₁ calls tasks₂ built₂)
    (h' : Steps make keep tasks₂ built₂ calls' tasks₃ built₃) :
    Steps make keep tasks₁ built₁ (calls ++ calls') tasks₃ built₃ := by
  induction h with
  | refl => exact h'
  | visit _ ih => exact .visit (ih h')
  | finish _ ih => exact .finish (ih h')

/-- The turns are those of `run`. -/
theorem run_eq {tasks tasks' : List Task} {built built' : List β} {calls : List (Call β)}
    (h : Steps make keep tasks built calls tasks' built') :
    run make keep tasks built = run make keep tasks' built' := by
  induction h with
  | refl => rfl
  | visit _ ih => rw [run, ih]
  | @finish n tasks tasks' children built built' calls _ ih =>
    have hcount : (children.reverse ++ built).length - built.length = children.reverse.length := by
      simp
    rw [run, hcount, List.take_left, List.drop_left, List.reverse_reverse, ih]

/-- There is one way to the end. -/
theorem unique {tasks : List Task} {built built₁ built₂ : List β} {calls₁ calls₂ : List (Call β)}
    (h₁ : Steps make keep tasks built calls₁ [] built₁)
    (h₂ : Steps make keep tasks built calls₂ [] built₂) : calls₁ = calls₂ ∧ built₁ = built₂ := by
  generalize hend : ([] : List Task) = done at h₁
  induction h₁ generalizing calls₂ built₂ with
  | refl =>
    subst hend
    cases h₂
    exact ⟨rfl, rfl⟩
  | visit _ ih =>
    cases h₂ with
    | visit h₂ => exact ih h₂ hend
  | @finish n tasks tasks' children built built' calls _ ih =>
    generalize hstack : children.reverse ++ built = stack at h₂
    generalize hmark : built.length = mark at h₂
    cases h₂ with
    | @finish _ _ _ children₂ below _ calls₂ h₂ =>
      obtain ⟨hchildren, hbelow⟩ := List.append_inj' hstack hmark
      rw [List.reverse_inj] at hchildren
      subst hchildren hbelow
      obtain ⟨rfl, rfl⟩ := ih h₂ hend
      exact ⟨rfl, rfl⟩

end Steps

/-! ## A whole run -/

mutual

/-- The nodes that are reached through kept ones, each behind all that is below it. -/
def postorder (keep : Node → Bool) : Node → List Node
  | .node l cs => postorderAll keep cs ++ [.node l cs]

def postorderAll (keep : Node → Bool) : List Node → List Node
  | [] => []
  | c :: cs => if keep c then postorder keep c ++ postorderAll keep cs else postorderAll keep cs

end

theorem postorderAll_eq (keep : Node → Bool) (ns : List Node) :
    postorderAll keep ns = (ns.filter keep).flatMap (postorder keep) := by
  induction ns with
  | nil => rfl
  | cons n ns ih => cases h : keep n <;> simp [postorderAll, h, ih]

theorem postorder_eq (keep : Node → Bool) (n : Node) :
    postorder keep n = (n.children.filter keep).flatMap (postorder keep) ++ [n] := by
  cases n
  rw [postorder, postorderAll_eq, Node.children_node]

/-- The call for a node, with the results of its kept children. -/
def callOf (make : Node → List β → β) (keep : Node → Bool) (n : Node) : Call β :=
  (n, (n.children.filter keep).map (fold make keep))

theorem steps_visits {ns : List Node}
    (each : ∀ n ∈ ns, ∀ tasks built, Steps make keep (.visit n :: tasks) built
      ((postorder keep n).map (callOf make keep)) tasks (fold make keep n :: built))
    (tasks : List Task) (built : List β) :
    Steps make keep (ns.map .visit ++ tasks) built
      ((ns.flatMap (postorder keep)).map (callOf make keep)) tasks
      ((ns.map (fold make keep)).reverse ++ built) := by
  induction ns generalizing built with
  | nil => exact .refl
  | cons n ns ih =>
    rw [List.forall_mem_cons] at each
    have h := (each.1 (ns.map .visit ++ tasks) built).trans (ih each.2 (fold make keep n :: built))
    simpa using h

theorem steps_visit (n : Node) (tasks : List Task) (built : List β) :
    Steps make keep (.visit n :: tasks) built ((postorder keep n).map (callOf make keep)) tasks
      (fold make keep n :: built) := by
  induction n using Branching.induct generalizing tasks built with
  | node n ih =>
    have each : ∀ m ∈ n.children.filter keep, ∀ tasks built, Steps make keep (.visit m :: tasks)
        built ((postorder keep m).map (callOf make keep)) tasks (fold make keep m :: built) :=
      fun m hm => ih m (List.mem_filter.mp hm).1
    have below := steps_visits each (.finish n built.length :: tasks) built
    rw [fold_eq, postorder_eq, List.map_append]
    exact .visit (below.trans (.finish .refl))

/-- Everything that is reached is finished, and nothing twice. -/
theorem postorder_perm (n : Node) (above : List Node) (h : (n :: above).all keep) :
    (postorder keep n).Perm (((outlineUnder above n).filter (isReached keep)).map Prod.snd) := by
  induction n using Branching.induct generalizing above with
  | node n ih =>
    have kept : ∀ c ∈ n.children.filter keep, (postorder keep c).Perm
        (((outlineUnder (n :: above) c).filter (isReached keep)).map Prod.snd) :=
      fun c hc => ih c (List.mem_filter.mp hc).1 (n :: above) (all_cons_of_mem_filter h hc)
    rw [postorder_eq, filter_isReached_eq h, List.map_cons, List.map_flatMap]
    exact (List.perm_append_singleton n _).trans ((List.Perm.flatMap_left _ kept).cons n)

end Build

namespace Concrete

theorem ofNode_eq (text : Node → String) (n : Node) :
    ofNode text n =
      .node n.kind (text n) n.label.start n.label.stop (n.children.map (ofNode text)) := by
  have hfold : ofNode text = Build.fold (make text) fun _ => true := funext (ofNode_eq_fold text)
  rw [hfold, Build.fold_eq, List.filter_true, make]

theorem outline_ofNode (text : Node → String) (root : Node) :
    outline (ofNode text root) =
      (outline root).map (Prod.map (List.map (ofNode text)) (ofNode text)) :=
  outline_map (fun n => by rw [ofNode_eq]; rfl) root

end Concrete

namespace Build

/-- The machine builds what the recursion gives. Its run ends with this one result. In it `make` is called
once for each node that is reached through kept ones, children before their parent and in order. A
concrete tree has all nodes, each in its place. -/
theorem bottomUp_is_fold (make : Node → List β → β) (keep : Node → Bool) (root : Node)
    (text : Node → String) :
    (∀ n, fold make keep n = make n ((n.children.filter keep).map (fold make keep))) ∧
      (bottomUp make keep root = if keep root then some (fold make keep root) else none) ∧
      run make keep [.visit root] [] = [fold make keep root] ∧
      (∀ calls built, Steps make keep [.visit root] [] calls [] built ↔
        calls = (postorder keep root).map (callOf make keep) ∧ built = [fold make keep root]) ∧
      (keep root → (postorder keep root).Perm
        (((outline root).filter (isReached keep)).map Prod.snd)) ∧
      outline (Concrete.ofNode text root) =
        (outline root).map (Prod.map (List.map (Concrete.ofNode text)) (Concrete.ofNode text)) ∧
      ∀ n, Concrete.ofNode text n = .node n.kind (text n) n.label.start n.label.stop
        (n.children.map (Concrete.ofNode text)) := by
  have hsteps : Steps make keep [.visit root] [] _ [] _ := steps_visit root [] []
  refine ⟨fold_eq make keep, bottomUp_eq make keep root, ?_, ?_, ?_, Concrete.outline_ofNode text root,
    Concrete.ofNode_eq text⟩
  · rw [hsteps.run_eq, run]
  · intro calls built
    constructor
    · exact fun h => h.unique hsteps
    · rintro ⟨rfl, rfl⟩
      exact hsteps
  · intro hroot
    exact postorder_perm root [] (by rw [List.all_cons, hroot]; rfl)

end Build
end CodeIndex
