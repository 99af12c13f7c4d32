import CodeIndex.Proofs.Cache.Stages
import CodeIndex.Proofs.Lookup.Comparison

/-!
# CodeIndex.Proofs.Cache.Verbatim

A document gives its text back as it was, as a whole and node by node.

* `parse_source`: the source of a document is the text that it was parsed from, in UTF-8.
* `Document.textOf_of_between`: a node that begins and ends between characters has the text that stands
  there.
* `texts_verbatim`: both, and how the texts of nodes that touch are put together.
-/

namespace CodeIndex

namespace Action

variable {setup : Setup} {s : State} {file : String} {language content : Option String}

theorem finish_content {name : String} {p : Prepared}
    (h : (finish file content name setup s).result = .ok p) :
    sourceOf s.world.disk file content = .ok p.content := by
  obtain ⟨g, -, h⟩ := of_bind_result_ok h
  obtain ⟨text, read, h⟩ := of_bind_result_ok h
  have kept : p.content = text := by
    rw [setup_bind_run] at h
    cases ht : setup.engine.parse g text with
    | none =>
      rw [ht] at h
      cases h
    | some tree =>
      rw [ht] at h
      cases h
      rfl
  rw [source_run, (apart_grammar name).disk] at read
  cases hs : sourceOf s.world.disk file content with
  | error fault =>
    rw [hs] at read
    cases read
  | ok source =>
    rw [hs] at read
    cases read
    rw [kept]

theorem prepare_content {p : Prepared} (h : (prepare file language content setup s).result = .ok p) :
    sourceOf s.world.disk file content = .ok p.content := by
  obtain ⟨name, -, h⟩ := of_bind_result_ok h
  obtain ⟨_, -, h⟩ := of_bind_result_ok h
  have read := finish_content h
  rwa [(apart_load name).disk, languageOf_run] at read

/-- Whether the text is given or read from the file, nothing is lost of it. -/
theorem parse_source {text : String} {d : Document}
    (source : sourceOf s.world.disk file content = .ok text)
    (made : (parse file language content setup s).result = .ok d) :
    d.source = Utf8.encode text.toList := by
  rw [(parse_run_map file language content setup s).1] at made
  obtain ⟨p, found, rfl⟩ := map_eq_ok_iff.mp made
  have read := prepare_content found
  rw [source] at read
  cases read
  rfl

end Action

namespace Document

variable {d : Document} {content : List Char}

theorem text_of_source (h : d.source = Utf8.encode content) : d.text = String.ofList content := by
  rw [text, h, Utf8.decodeLossy_encode]

theorem textOf_eq_cut (hasText : d.tree.hasText = true) (n : Node) :
    d.textOf n = String.ofList (Utf8.decodeLossy
      (Utf8.cut d.source n.label.startByte n.label.endByte)) := by
  rw [textOf, if_pos hasText]
  rfl

theorem textOf_of_between (hasText : d.tree.hasText = true) (h : d.source = Utf8.encode content)
    {n : Node} {part : List Char}
    (stands : Utf8.Between content n.label.startByte n.label.endByte part) :
    d.textOf n = String.ofList part := by
  rw [textOf_eq_cut hasText, h, stands.cut_eq, Utf8.decodeLossy_encode]

/-- The first node has to end between characters. The second one may end anywhere. -/
theorem textOf_append (hasText : d.tree.hasText = true) (h : d.source = Utf8.encode content)
    {whole left right : Node} (starts : whole.label.startByte = left.label.startByte)
    (touch : left.label.endByte = right.label.startByte)
    (ends : whole.label.endByte = right.label.endByte)
    (before : Utf8.Boundary content left.label.startByte)
    (between : Utf8.Boundary content left.label.endByte)
    (first : left.label.startByte ≤ left.label.endByte)
    (second : right.label.startByte ≤ right.label.endByte) :
    d.textOf whole = d.textOf left ++ d.textOf right := by
  obtain ⟨part, stands⟩ := before.between between first
  rw [← touch] at second
  rw [textOf_of_between hasText h stands, textOf_eq_cut hasText, textOf_eq_cut hasText, starts, ends,
    ← touch, Utf8.cut_append d.source first second, h, stands.cut_eq, Utf8.decodeLossy_encode_append,
    String.ofList_append]

end Document

/-- A document that is parsed from a text, be it given or read from the disk:

* it gives back this text;
* a node that begins and ends between characters has the part of the text that stands there;
* where two such nodes touch, the text of a node over both of them is their texts one after the other.

This is so because bytes that encode a text are decoded by themselves, whatever bytes follow. -/
theorem texts_verbatim {setup : Setup} {s : State} {file : String} {language content : Option String}
    {text : String} {d : Document} (source : Action.sourceOf s.world.disk file content = .ok text)
    (made : (Action.parse file language content setup s).result = .ok d) :
    d.text = text ∧
      (∀ n : Node, d.tree.hasText = true → Utf8.Boundary text.toList n.label.startByte →
        Utf8.Boundary text.toList n.label.endByte → n.label.startByte ≤ n.label.endByte →
        ∃ part, Utf8.Between text.toList n.label.startByte n.label.endByte part.toList ∧
          d.textOf n = part) ∧
      (∀ (whole left right : Node) (a b c : Nat), d.tree.hasText = true →
        (∀ k ∈ [a, b, c], Utf8.Boundary text.toList k) → a ≤ b → b ≤ c →
        (left.label.startByte = a ∧ left.label.endByte = b) →
        (right.label.startByte = b ∧ right.label.endByte = c) →
        (whole.label.startByte = a ∧ whole.label.endByte = c) →
        d.textOf whole = d.textOf left ++ d.textOf right) ∧
      ∀ u v : List UInt8, (∃ chars, u = Utf8.encode chars) →
        Utf8.decodeLossy (u ++ v) = Utf8.decodeLossy u ++ Utf8.decodeLossy v := by
  have encoded := Action.parse_source source made
  refine ⟨?_, ?_, ?_, ?_⟩
  · rw [Document.text_of_source encoded, String.ofList_toList]
  · intro n hasText starts ends le
    obtain ⟨part, stands⟩ := starts.between ends le
    refine ⟨String.ofList part, ?_, Document.textOf_of_between hasText encoded stands⟩
    rwa [String.toList_ofList]
  · rintro whole left right a b c hasText boundary hab hbc ⟨rfl, rfl⟩ ⟨touch, rfl⟩ ⟨starts, ends⟩
    rw [← touch] at hbc
    exact Document.textOf_append hasText encoded starts touch.symm ends (boundary _ (by simp))
      (boundary _ (by simp)) hab hbc
  · rintro _ v ⟨chars, rfl⟩
    rw [Utf8.decodeLossy_encode_append, Utf8.decodeLossy_encode]

/-- The assignment `é=1`, whose name is one character of two bytes. -/
theorem texts_verbatim_assignment :
    let engine : Engine := ⟨fun name _ => .ok ⟨name⟩, fun _ _ => some assignment.tree, fun _ _ => none⟩
    let setup := { plainSetup "gpt2" with engine := engine }
    let node (a b : Nat) : Node := .node ⟨0, "", true, a, b, ⟨0, 0⟩, ⟨0, 0⟩, none⟩ []
    (Action.sourceOf [] "/a.py" (some "é=1") = .ok "é=1" ∧
      (Action.parse "/a.py" none (some "é=1") setup {}).result = .ok assignment) ∧
      assignment.text = "é=1" ∧
      (∃ part, Utf8.Between ['é', '=', '1'] 0 2 part.toList ∧ assignment.textOf (node 0 2) = part) ∧
      assignment.textOf (node 0 3) = assignment.textOf (node 0 2) ++ assignment.textOf (node 2 3) := by
  intro engine setup node
  have source : Action.sourceOf [] "/a.py" (some "é=1") = .ok "é=1" := rfl
  have chars : "é=1".toList = ['é', '=', '1'] := by decide
  have chosen : Language.choose none "/a.py" = .ok "python" := by decide +kernel
  have idle : ({} : State).index.registry.Idle :=
    Registry.idle_of_pending Registry.coherent_empty fun _ => rfl
  have made : (Action.parse "/a.py" none (some "é=1") setup {}).result = .ok assignment := by
    let p : Prepared := ⟨"python", ⟨"python"⟩, assignment.tree, "é=1"⟩
    rw [Action.parse_of_stages idle (p := p) chosen rfl source rfl]
    change Except.ok { assignment with source := Utf8.encode "é=1".toList } = _
    rw [chars]
    rfl
  obtain ⟨whole, nodes, touching, -⟩ := texts_verbatim source made
  rw [chars] at nodes touching
  have zero : Utf8.Boundary ['é', '=', '1'] 0 := ⟨[], by simp, rfl⟩
  have two : Utf8.Boundary ['é', '=', '1'] 2 := ⟨['é'], by simp, by decide⟩
  have three : Utf8.Boundary ['é', '=', '1'] 3 := ⟨['é', '='], by simp, by decide⟩
  refine ⟨⟨source, made⟩, whole, nodes (node 0 2) rfl zero two (by decide), ?_⟩
  exact touching (node 0 3) (node 0 2) (node 2 3) 0 2 3 rfl (by simp [zero, two, three]) (by decide)
    (by decide) ⟨rfl, rfl⟩ ⟨rfl, rfl⟩ ⟨rfl, rfl⟩

end CodeIndex
