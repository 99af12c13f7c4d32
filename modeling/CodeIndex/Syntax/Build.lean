import CodeIndex.Syntax.Node

/-!
# CodeIndex.Syntax.Build

One result for each node that is kept, the results of the children before that of their parent. A
node that is not kept is left out together with everything below it.

* `run` works from an explicit stack of tasks beside a stack of results, so that the depth of a tree
  does not matter.
* `fold` is the same by recursion on the tree.
* `run_visit`: a visit leaves exactly the result of `fold` on the stack of results.
-/

namespace CodeIndex
namespace Build

variable {β : Type}

mutual

def fold (make : Node → List β → β) (keep : Node → Bool) : Node → β
  | .node l cs => make (.node l cs) (foldAll make keep cs)

def foldAll (make : Node → List β → β) (keep : Node → Bool) : List Node → List β
  | [] => []
  | c :: cs => if keep c then fold make keep c :: foldAll make keep cs else foldAll make keep cs

end

/-- `finish n mark`: the results above the lowest `mark` ones are those of the children of `n`. -/
inductive Task where
  | visit (n : Node)
  | finish (n : Node) (mark : Nat)

def Task.weight : Task → Nat
  | .visit n => 2 * n.size
  | .finish _ _ => 1

def weight : List Task → Nat
  | [] => 0
  | t :: tasks => t.weight + weight tasks

theorem weight_append (s t : List Task) : weight (s ++ t) = weight s + weight t := by
  induction s with
  | nil => simp [weight]
  | cons t s ih => simp [weight, ih, Nat.add_assoc]

theorem weight_visits (ns : List Node) : weight (ns.map .visit) = 2 * Node.sizeAll ns := by
  induction ns with
  | nil => rfl
  | cons n ns ih =>
    simp only [weight, List.map_cons, Task.weight, Node.sizeAll, ih]
    omega

/-- The last result comes first on the stack of results. -/
def run (make : Node → List β → β) (keep : Node → Bool) : List Task → List β → List β
  | [], built => built
  | .visit n :: tasks, built =>
    run make keep ((n.children.filter keep).map .visit ++ .finish n built.length :: tasks) built
  | .finish n mark :: tasks, built =>
    let count := built.length - mark
    run make keep tasks (make n (built.take count).reverse :: built.drop count)
termination_by tasks => weight tasks
decreasing_by
  · obtain ⟨l, cs⟩ := n
    have h := Node.sizeAll_filter_le keep cs
    rw [weight_append, weight_visits]
    simp [weight, Task.weight, Node.size] at h ⊢
    omega
  · simp [weight, Task.weight]

/-- `none` if the root is not kept. -/
def bottomUp (make : Node → List β → β) (keep : Node → Bool) (root : Node) : Option β :=
  if keep root then (run make keep [.visit root] []).head? else none

theorem foldAll_eq (make : Node → List β → β) (keep : Node → Bool) (ns : List Node) :
    foldAll make keep ns = (ns.filter keep).map (fold make keep) := by
  induction ns with
  | nil => simp [foldAll]
  | cons n ns ih => cases h : keep n <;> simp [foldAll, h, ih]

theorem run_visits (make : Node → List β → β) (keep : Node → Bool) (ns : List Node)
    (each : ∀ n ∈ ns, ∀ tasks built,
      run make keep (.visit n :: tasks) built = run make keep tasks (fold make keep n :: built))
    (tasks : List Task) (built : List β) :
    run make keep (ns.map .visit ++ tasks) built =
      run make keep tasks ((ns.map (fold make keep)).reverse ++ built) := by
  induction ns generalizing built with
  | nil => rfl
  | cons n ns ih =>
    rw [List.map_cons, List.cons_append, each n (by simp),
      ih fun m hm => each m (List.mem_cons_of_mem n hm)]
    simp

theorem run_visit (make : Node → List β → β) (keep : Node → Bool) (n : Node) (tasks : List Task)
    (built : List β) :
    run make keep (.visit n :: tasks) built = run make keep tasks (fold make keep n :: built) := by
  obtain ⟨l, cs⟩ := n
  have each : ∀ m ∈ cs.filter keep, ∀ tasks built,
      run make keep (.visit m :: tasks) built = run make keep tasks (fold make keep m :: built) :=
    fun m hm tasks built => run_visit make keep m tasks built
  rw [run, Node.children_node, run_visits make keep (cs.filter keep) each, run, fold, foldAll_eq]
  generalize (cs.filter keep).map (fold make keep) = results
  have h : (results.reverse ++ built).length - built.length = results.reverse.length := by simp
  rw [h, List.take_left, List.drop_left, List.reverse_reverse]
termination_by n.size
decreasing_by
  have := Node.size_le_sizeAll (List.mem_filter.1 hm).1
  simp only [Node.size]
  omega

theorem bottomUp_eq (make : Node → List β → β) (keep : Node → Bool) (root : Node) :
    bottomUp make keep root = if keep root then some (fold make keep root) else none := by
  rw [bottomUp, run_visit, run]
  rfl

end Build
end CodeIndex
