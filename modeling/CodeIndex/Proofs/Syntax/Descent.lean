import CodeIndex.Proofs.Syntax.Outline
import CodeIndex.Syntax.Traversal

/-!
# CodeIndex.Proofs.Syntax.Descent

The descent to a point goes through the nodes around the point, and through all of them.

* `Nested`: children lie in the span of their parent, one behind the other.
* `Clear`: no node is empty and stands at the point. A point would belong to such a node and to the one
  behind it.
* `pathBelow_cases`: the descent goes on in the only child around the point, or ends.
* `suffix_pathTo_of_mem`, `mem_of_pathTo_eq`: what is around the point is on the path, and what is on the
  path is around the point, but for the top of the tree.
-/

namespace CodeIndex

theorem Point.lt_iff (p q : Point) :
    p.lt q = true ↔ p.row < q.row ∨ (p.row = q.row ∧ p.column < q.column) := by
  simp [Point.lt]

theorem Point.le_iff (p q : Point) :
    p.le q = true ↔ p.row < q.row ∨ (p.row = q.row ∧ p.column ≤ q.column) := by
  rw [Point.le, Bool.not_eq_true', Bool.eq_false_iff, ne_eq, Point.lt_iff]
  omega

theorem Point.eq_of_le_of_not_lt {p q : Point} (hle : p.le q) (hlt : ¬ p.lt q) : p = q := by
  rw [Point.le_iff] at hle
  rw [Point.lt_iff] at hlt
  cases p
  cases q
  simp only [Point.mk.injEq] at hle hlt ⊢
  omega

namespace Node

/-- The point is not before the node and before its end. -/
def Spans (n : Node) (p : Point) : Prop := n.label.start.le p ∧ p.lt n.label.stop

structure Nested (root : Node) : Prop where
  inside : ∀ n ∈ root.preorder, ∀ c ∈ n.children,
    n.label.start.le c.label.start ∧ c.label.stop.le n.label.stop
  apart : ∀ n ∈ root.preorder, n.children.Pairwise fun a b => a.label.stop.le b.label.start

/-- No node below the root is empty and at the point. -/
def Clear (p : Point) (root : Node) : Prop :=
  ∀ n ∈ preorderAll root.children, ¬ (n.label.start = p ∧ n.label.stop = p)

variable {p : Point} {n c : Node}

theorem mem_preorder_of_mem_children (h : c ∈ n.children) {m : Node} (hm : m ∈ c.preorder) :
    m ∈ n.preorder := by
  cases n
  exact mem_preorder_of_child h hm

theorem Nested.child (h : Nested n) (hc : c ∈ n.children) : Nested c where
  inside := fun m hm => h.inside m (mem_preorder_of_mem_children hc hm)
  apart := fun m hm => h.apart m (mem_preorder_of_mem_children hc hm)

theorem Clear.child (h : Clear p n) (hc : c ∈ n.children) : Clear p c := by
  intro m hm
  refine h m (mem_preorderAll.mpr ⟨c, hc, ?_⟩)
  rw [preorder_eq]
  exact List.mem_cons_of_mem _ hm

theorem Clear.not_empty (h : Clear p n) (hc : c ∈ n.children) :
    ¬ (c.label.start = p ∧ c.label.stop = p) :=
  h c (mem_preorderAll.mpr ⟨c, hc, c.mem_preorder_self⟩)

theorem Nested.spans_of_child (h : Nested n) (hc : c ∈ n.children) (hp : c.Spans p) : n.Spans p := by
  obtain ⟨hstart, hstop⟩ := h.inside n n.mem_preorder_self c hc
  obtain ⟨hfrom, hto⟩ := hp
  rw [Point.le_iff] at hstart hstop hfrom
  rw [Point.lt_iff] at hto
  exact ⟨(Point.le_iff _ _).mpr (by omega), (Point.lt_iff _ _).mpr (by omega)⟩

/-- A node around the point has only nodes around the point above it. -/
theorem Nested.spans_of_mem (h : Nested n) {above : List Node} {e : List Node × Node}
    (he : e ∈ outlineUnder above n) (hp : e.2.Spans p) : n.Spans p := by
  induction n using Branching.induct generalizing above with
  | node n ih =>
    rcases mem_outlineUnder.mp he with rfl | ⟨c, hc, hec⟩
    · exact hp
    · exact h.spans_of_child hc (ih c hc (h.child hc) hec)

/-! ## The children around a point -/

/-- Children that end before the point or at it are passed over. -/
theorem isPassed_iff (h : ¬ (c.label.start = p ∧ c.label.stop = p)) :
    isPassed p c = true ↔ c.label.stop.le p = true := by
  have hne : c.label.start != c.label.stop ↔ c.label.start ≠ c.label.stop := bne_iff_ne
  rw [isPassed, Bool.or_eq_true, Bool.and_eq_true, hne]
  constructor
  · rintro (hlt | ⟨-, hle⟩)
    · rw [Point.lt_iff] at hlt
      exact (Point.le_iff _ _).mpr (by omega)
    · exact hle
  · intro hle
    by_cases hlt : c.label.stop.lt p
    · exact .inl hlt
    · -- a child that ends at the point and is empty would stand there
      have hstop := Point.eq_of_le_of_not_lt hle hlt
      exact .inr ⟨fun heq => h ⟨heq.trans hstop, hstop⟩, hle⟩

theorem not_spans_of_le (h : c.label.stop.le p) : ¬ c.Spans p := by
  rintro ⟨-, hlt⟩
  rw [Point.le_iff] at h
  rw [Point.lt_iff] at hlt
  omega

theorem not_spans_of_lt (h : p.lt c.label.start) : ¬ c.Spans p := by
  rintro ⟨hle, -⟩
  rw [Point.lt_iff] at h
  rw [Point.le_iff] at hle
  omega

/-- One child at most is around the point, and the descent goes on there. -/
theorem pathBelow_cases {cs : List Node}
    (apart : cs.Pairwise fun a b => a.label.stop.le b.label.start)
    (clear : ∀ c ∈ cs, ¬ (c.label.start = p ∧ c.label.stop = p)) :
    (pathBelow p cs = [] ∧ ∀ c ∈ cs, ¬ c.Spans p) ∨
      ∃ c ∈ cs, c.Spans p ∧ pathBelow p cs = c.pathTo p ∧ ∀ d ∈ cs, d.Spans p → d = c := by
  induction cs with
  | nil => exact .inl ⟨rfl, by simp⟩
  | cons c cs ih =>
    obtain ⟨behind, apart⟩ := List.pairwise_cons.mp apart
    obtain ⟨hclear, clear⟩ := List.forall_mem_cons.mp clear
    by_cases hpassed : isPassed p c
    · have hnot := not_spans_of_le ((isPassed_iff hclear).mp hpassed)
      rw [pathBelow, if_pos hpassed]
      rcases ih apart clear with ⟨hnil, hnone⟩ | ⟨d, hd, hspans, hpath, honly⟩
      · exact .inl ⟨hnil, List.forall_mem_cons.mpr ⟨hnot, hnone⟩⟩
      · refine .inr ⟨d, List.mem_cons_of_mem _ hd, hspans, hpath, ?_⟩
        exact List.forall_mem_cons.mpr ⟨fun hc => absurd hc hnot, honly⟩
    · -- the child ends behind the point, and so the others start behind it
      have hstop : ¬ c.label.stop.le p := fun h => hpassed ((isPassed_iff hclear).mpr h)
      have hnone : ∀ d ∈ cs, ¬ d.Spans p := by
        intro d hd
        have hle := behind d hd
        rw [Point.le_iff] at hle hstop
        exact not_spans_of_lt ((Point.lt_iff _ _).mpr (by omega))
      rw [pathBelow, if_neg hpassed]
      by_cases hstart : p.lt c.label.start
      · rw [if_pos hstart]
        exact .inl ⟨rfl, List.forall_mem_cons.mpr ⟨not_spans_of_lt hstart, hnone⟩⟩
      · rw [if_neg hstart]
        refine .inr ⟨c, List.mem_cons_self, ⟨?_, ?_⟩, rfl, ?_⟩
        · rw [Point.lt_iff] at hstart
          exact (Point.le_iff _ _).mpr (by omega)
        · rw [Point.le_iff] at hstop
          exact (Point.lt_iff _ _).mpr (by omega)
        · exact List.forall_mem_cons.mpr ⟨fun _ => rfl, fun d hd hp => absurd hp (hnone d hd)⟩

theorem Nested.pathBelow_cases (h : Nested n) (clear : Clear p n) :
    (pathBelow p n.children = [] ∧ ∀ c ∈ n.children, ¬ c.Spans p) ∨
      ∃ c ∈ n.children, c.Spans p ∧ pathBelow p n.children = c.pathTo p ∧
        ∀ d ∈ n.children, d.Spans p → d = c :=
  Node.pathBelow_cases (h.apart n n.mem_preorder_self) fun _ hc => clear.not_empty hc

/-! ## The path -/

theorem pathTo_eq (p : Point) (n : Node) : n.pathTo p = pathBelow p n.children ++ [n] := by
  cases n
  rfl

theorem suffix_pathTo_self (p : Point) (n : Node) (above : List Node) :
    n :: above <:+ n.pathTo p ++ above := by
  rw [pathTo_eq, List.append_assoc, List.singleton_append]
  exact List.suffix_append _ _

/-- Every node around the point is on the path, and behind it are the nodes above it. -/
theorem suffix_pathTo_of_mem (nested : Nested n) (clear : Clear p n) {above : List Node}
    {e : List Node × Node} (he : e ∈ outlineUnder above n) (hp : e.2.Spans p) :
    e.2 :: e.1 <:+ n.pathTo p ++ above := by
  induction n using Branching.induct generalizing above with
  | node n ih =>
    rcases mem_outlineUnder.mp he with rfl | ⟨c, hc, hec⟩
    · exact suffix_pathTo_self p n above
    · have hspans := (nested.child hc).spans_of_mem hec hp
      rcases nested.pathBelow_cases clear with ⟨-, hnone⟩ | ⟨d, -, -, hpath, honly⟩
      · exact absurd hspans (hnone c hc)
      · obtain rfl := honly c hc hspans
        rw [pathTo_eq, hpath, List.append_assoc, List.singleton_append]
        exact ih c hc (nested.child hc) (clear.child hc) hec

/-- Every node on the path is the top of the tree or a node around the point, and behind it are the nodes
above it. -/
theorem mem_of_pathTo_eq (nested : Nested n) (clear : Clear p n) {before behind : List Node}
    {m : Node} (h : n.pathTo p = before ++ m :: behind) (above : List Node) :
    (behind ++ above, m) ∈ outlineUnder above n ∧ ((m = n ∧ behind = []) ∨ m.Spans p) := by
  induction n using Branching.induct generalizing above behind with
  | node n ih =>
    rw [pathTo_eq] at h
    rcases List.eq_nil_or_concat behind with rfl | ⟨behind, b, rfl⟩
    · obtain ⟨-, hlast⟩ := List.append_inj' h rfl
      cases hlast
      exact ⟨mem_outlineUnder.mpr (.inl rfl), .inl ⟨rfl, rfl⟩⟩
    · rw [List.concat_eq_append, ← List.cons_append, ← List.append_assoc] at h
      obtain ⟨hbelow, hlast⟩ := List.append_inj' h rfl
      cases hlast
      rcases nested.pathBelow_cases clear with ⟨hnil, -⟩ | ⟨c, hc, hspans, hpath, -⟩
      · rw [hnil] at hbelow
        simp at hbelow
      · rw [hpath] at hbelow
        obtain ⟨hmem, hm⟩ := ih c hc (nested.child hc) (clear.child hc) hbelow (n :: above)
        refine ⟨mem_outlineUnder.mpr (.inr ⟨c, hc, by simpa using hmem⟩), .inr ?_⟩
        rcases hm with ⟨rfl, -⟩ | hm
        · exact hspans
        · exact hm

end Node
end CodeIndex
