import CodeIndex.Proofs.Action.Tokens
import CodeIndex.Proofs.Json.Size
import CodeIndex.Proofs.Syntax.Faithful
import CodeIndex.Proofs.Syntax.Outline
import CodeIndex.Proofs.Text.Utf8

/-!
# CodeIndex.Proofs.Lookup.Comparison

The thin tree has fewer tokens than the concrete tree.

* `NamesWithin`: the name of a node is a part of the text of the node.
* `size_thin_le`: a thin node is at least four characters shorter than the concrete one. A name is not
  longer than the text that it stands for, and a list of children that is left out has two brackets and
  a key; if it is not left out, some child of it is kept, and that is four characters shorter already.
* `Document.Spanned`: spans of nodes from one place between characters to another.
* `thin_lt_concrete`: the numbers of tokens that are compared.
-/

namespace CodeIndex

open Json

variable {text : Node → String} (m : Measure)

def NamesWithin (text : Node → String) (root : Node) : Prop :=
  ∀ n ∈ root.preorder, ∀ m ∈ n.nameNode?, (text m).toList <:+: (text n).toList

theorem NamesWithin.child {l : Label} {cs : List Node} (h : NamesWithin text (.node l cs)) {c : Node}
    (hc : c ∈ cs) : NamesWithin text c :=
  fun n hn => h n (Node.mem_preorder_of_child hc hn)

/-! ## The sizes of both trees -/

theorem two_le_sizeOfField (f : String × Value) : 2 ≤ sizeOfField m f := by
  unfold sizeOfField
  omega

theorem length_le_sizeOfFields (fields : List (String × Value)) :
    2 * fields.length ≤ sizeOfFields m fields := by
  induction fields with
  | nil => exact Nat.zero_le _
  | cons f fields ih =>
    have hf := two_le_sizeOfField m f
    rw [sizeOfFields_cons, List.length_cons]
    omega

/-- A concrete node is longer than null, by four at least. -/
theorem size_concrete_ge (c : Concrete) : 8 ≤ sizeOfValue m c.toValue := by
  obtain ⟨kind, text, start, stop, children⟩ := c
  have hfields := length_le_sizeOfFields m [("type", .str kind), ("text", .str text),
    ("start", start.toValue), ("end", stop.toValue), ("children", .arr (Concrete.toValues children))]
  simp only [List.length_cons, List.length_nil] at hfields
  rw [Concrete.toValue, size_obj]
  omega

/-- A name is not longer than the text that contains it, with its key. -/
theorem size_name_le {s t : String} (h : s.toList <:+: t.toList) :
    sizeOfField m ("name", .str s) ≤ sizeOfField m ("text", .str t) := by
  have hkey : m.size (Style.compact.string "name") = m.size (Style.compact.string "text") := by
    rw [m.size_ascii (by decide), m.size_ascii (by decide)]
    decide
  have hle := m.size_flatMap_le_of_infix h escape
  simp only [sizeOfField, sizeOfValue, Json.text, Style.scalar, size_string, hkey]
  omega

theorem size_field_name_le {n : Node} (h : NamesWithin text n) :
    sizeOfFields m (Thin.field "name" ((n.nameNode?.map text).map .str)) ≤
      sizeOfField m ("text", .str (text n)) := by
  cases hn : n.nameNode? with
  | none => exact Nat.zero_le _
  | some named =>
    have hle := size_name_le m (h n n.mem_preorder_self named hn)
    simpa [Thin.field, sizeOfFields] using hle

/-- The list of children of a thin node is shorter, or it is not there. -/
theorem size_field_children_le {ts : List Thin} {cs : List Concrete}
    (h : sizeOfItems m (Thin.toValues ts) + 4 * ts.length ≤ sizeOfItems m (Concrete.toValues cs)) :
    sizeOfFields m (Thin.field "children" (Thin.toValues? (if ts.isEmpty then none else some ts))) +
        4 ≤
      sizeOfField m ("children", .arr (Concrete.toValues cs)) := by
  cases ts with
  | nil =>
    simp only [List.isEmpty_nil, if_true, Thin.toValues?, Thin.field, sizeOfFields, sizeOfField,
      size_arr, List.map_nil, List.sum_nil]
    omega
  | cons t ts =>
    simp only [List.isEmpty_cons, Bool.false_eq_true, if_false, Thin.toValues?, Thin.field,
      sizeOfFields, sizeOfField, size_arr, List.map_cons, List.map_nil, List.sum_cons, List.sum_nil]
    rw [List.length_cons] at h
    have hpos : 1 ≤ sizeOfItems m (Thin.toValues (t :: ts)) := by
      rw [Thin.toValues, sizeOfItems_cons]
      omega
    omega

mutual

theorem size_thin_le (n : Node) (h : NamesWithin text n) :
    sizeOfValue m (Build.fold (Thin.make text) Thin.keeps n).toValue + 4 ≤
      sizeOfValue m (Build.fold (Concrete.make text) (fun _ => true) n).toValue := by
  obtain ⟨l, cs⟩ := n
  have hname := size_field_name_le m h
  have hchildren := size_field_children_le m (size_thins_le cs fun c hc => h.child hc)
  -- type, start and end are the same in both; the first field keeps the differences from being cut off
  have htype := two_le_sizeOfField m ("type", .str l.kind)
  simp only [Build.fold, Thin.make, Concrete.make, Thin.toValue, Concrete.toValue, size_obj,
    sizeOfFields_append, sizeOfFields_cons, sizeOfFields_nil, Node.kind, Node.label_node] at hname hchildren ⊢
  omega

theorem size_thins_le (ns : List Node) (h : ∀ n ∈ ns, NamesWithin text n) :
    sizeOfItems m (Thin.toValues (Build.foldAll (Thin.make text) Thin.keeps ns)) +
        4 * (Build.foldAll (Thin.make text) Thin.keeps ns).length ≤
      sizeOfItems m (Concrete.toValues (Build.foldAll (Concrete.make text) (fun _ => true) ns)) := by
  cases ns with
  | nil => simp [Build.foldAll, Thin.toValues, Concrete.toValues]
  | cons n ns =>
    rw [List.forall_mem_cons] at h
    have hn := size_thin_le n h.1
    have hns := size_thins_le ns h.2
    simp only [Build.foldAll, if_true, Concrete.toValues, sizeOfItems_cons]
    split
    · simp only [Thin.toValues, sizeOfItems_cons, List.length_cons]
      omega
    · omega

end

/-! ## Documents -/

/-- The span of a node begins and ends between characters of a text, and the span of its name lies in
it. -/
structure Spanned (content : List Char) (n : Node) : Prop where
  start : Utf8.Boundary content n.label.startByte
  stop : Utf8.Boundary content n.label.endByte
  name : ∀ m ∈ n.nameNode?,
    n.label.startByte ≤ m.label.startByte ∧ m.label.endByte ≤ n.label.endByte

/-- The source of a document is a text in UTF-8, and its tree lies over this text, unless its nodes
give no text at all. -/
structure Document.Over (d : Document) (content : List Char) : Prop where
  source : d.source = Utf8.encode content
  spanned : d.tree.hasText = false ∨ ∀ n ∈ d.tree.root.preorder, Spanned content n

theorem Document.Over.namesWithin {d : Document} {content : List Char} (h : d.Over content)
    {root : Node} (hroot : root ∈ d.tree.root.preorder) : NamesWithin d.textOf root := by
  intro n hn m hm
  have hn' := Node.mem_preorder_trans hn _ hroot
  have hchild := Node.nameNode?_mem hm
  obtain ⟨l, cs⟩ := n
  have hm' := Node.mem_preorder_trans
    (Node.mem_preorder_of_child hchild m.mem_preorder_self) _ hn'
  cases ht : d.tree.hasText with
  | false =>
    have hempty : ∀ n, d.textOf n = "" := fun n => by rw [Document.textOf, ht]; rfl
    rw [hempty, hempty]
  | true =>
    have hall := h.spanned.resolve_left (by rw [ht]; decide)
    have outer := hall _ hn'
    have inner := hall _ hm'
    have hspan := outer.name m hm
    have hpart := Utf8.infix_of_cut outer.start inner.start inner.stop outer.stop hspan.1 hspan.2
    have htext : ∀ n, (d.textOf n).toList =
        Utf8.decodeLossy (Utf8.cut (Utf8.encode content) n.label.startByte n.label.endByte) := by
      intro n
      rw [Document.textOf, ht, if_pos rfl, String.toList_ofList, Document.bytesOf, h.source, Utf8.cut]
    rw [htext, htext]
    exact hpart

theorem compactText_none : Thin.compactText none = "null" := Json.compact_eq .null

/-- The thin tree that starts at a node has fewer tokens than the concrete tree that starts there, under
every encoding with tokens of one size. A thin tree that is dropped is counted as null. -/
theorem thin_lt_concrete {d : Document} {content : List Char} (hd : d.Over content) {root : Node}
    (hroot : root ∈ d.tree.root.preorder) {setup : Setup} {e : Encoding}
    (he : setup.encoding? = some e) (uniform : e.Uniform) (source : String) (s : State) :
    ∃ c, (Comparison.ofNode d.textOf root source setup s).result = .ok c ∧
      c.thinTokens < c.concreteTokens ∧
      c.concrete = Concrete.ofNode d.textOf root ∧ c.thin = Thin.ofNode? d.textOf root ∧
      (c.thin = none → c.thinTokens = e.count "null") := by
  refine ⟨_, Action.comparison_of_some he _ _ _ _, ?_, rfl, rfl, ?_⟩
  · obtain ⟨m, tells⟩ := Encoding.exists_tells uniform
    have hsize := size_thin_le m root (hd.namesWithin hroot)
    dsimp only
    rw [Concrete.compactText_eq, Concrete.ofNode_eq_fold, Json.compact_eq, Thin.ofNode?,
      Build.bottomUp_eq]
    split
    · rw [Thin.compactText_some, Json.compact_eq]
      exact tells _ _ hsize
    · rw [Thin.compactText, Thin.valueOf, Json.compact_eq]
      have hnull : m.size (Json.text .compact .null) = 4 := m.size_ascii (by decide)
      have hconcrete := size_concrete_ge m (Build.fold (Concrete.make d.textOf) (fun _ => true) root)
      unfold sizeOfValue at hconcrete
      exact tells _ _ (by omega)
  · intro hnone
    dsimp only at hnone ⊢
    rw [hnone, compactText_none]

/-- `é=1`, an assignment with the name `é`, which is two bytes long. -/
def assignment : Document where
  serial := 0
  file := "/a.py"
  language := "python"
  grammar := ⟨"python"⟩
  source := Utf8.encode ['é', '=', '1']
  tree :=
    { root := .node ⟨0, "assignment", true, 0, 4, ⟨0, 0⟩, ⟨0, 4⟩, some 0⟩ [
        .node ⟨1, "identifier", true, 0, 2, ⟨0, 0⟩, ⟨0, 2⟩, none⟩ [],
        .node ⟨2, "=", false, 2, 3, ⟨0, 2⟩, ⟨0, 3⟩, none⟩ [],
        .node ⟨3, "integer", true, 3, 4, ⟨0, 3⟩, ⟨0, 4⟩, none⟩ []]
      hasText := true
      hasDescent := true
      found := [] }

theorem assignment_over : assignment.Over ['é', '=', '1'] where
  source := rfl
  spanned := by
    have b0 : Utf8.Boundary ['é', '=', '1'] 0 := ⟨[], by simp, rfl⟩
    have b2 : Utf8.Boundary ['é', '=', '1'] 2 := ⟨['é'], by simp, by decide⟩
    have b3 : Utf8.Boundary ['é', '=', '1'] 3 := ⟨['é', '='], by simp, by decide⟩
    have b4 : Utf8.Boundary ['é', '=', '1'] 4 := ⟨['é', '=', '1'], by simp, by decide⟩
    right
    simp only [assignment, Node.preorder, Node.preorderAll, List.cons_append, List.nil_append,
      List.forall_mem_cons, List.not_mem_nil, false_implies, implies_true, and_true]
    refine ⟨⟨b0, b4, ?_⟩, ⟨b0, b2, ?_⟩, ⟨b2, b3, ?_⟩, ⟨b3, b4, ?_⟩⟩ <;> simp [Node.nameNode?]

theorem thin_lt_concrete_assignment :
    let setup : Setup :=
      { engine := ⟨fun _ _ => .error ⟨""⟩, fun _ _ => none, fun _ _ => none⟩
        directory := "/", settings := ⟨"WARNING", "gpt2", false⟩, vocabulary? := fun _ => some .bytes
        encoding := none, blocks := [], sink := .log, room := 0, draw := .ok }
    ∃ c, (Comparison.ofNode assignment.textOf assignment.tree.root "é=1" setup {}).result = .ok c ∧
      c.thinTokens < c.concreteTokens := by
  intro setup
  have he : setup.encoding? = some .bytes := rfl
  obtain ⟨c, hc, hlt, -⟩ :=
    thin_lt_concrete assignment_over (Node.mem_preorder_self _) he .bytes "é=1" {}
  exact ⟨c, hc, hlt⟩

end CodeIndex
