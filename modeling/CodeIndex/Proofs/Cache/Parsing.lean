import CodeIndex.Index.Cache
import CodeIndex.Proofs.Action.Loading

/-!
# CodeIndex.Proofs.Cache.Parsing

Parsing a file in two parts: everything up to the tree, and the new entry.

* `prepare`: what a parse does before it touches the cache. It neither sees nor changes the documents.
* `parse_run_ok`: a parse is `prepare`, and then the document that it has made becomes the entry.
* `document_run_hit`, `document_run_miss`, `reparse_run`: the lookup of a path and the parse in any
  case.
* `gainsOnly_prepare`: a parse registers at most the grammar of its language, if that one loads.
-/

namespace CodeIndex

/-- What a parse has found out before it makes a document. -/
structure Prepared where
  language : String
  grammar : Grammar
  tree : Tree
  content : String

def Prepared.document (p : Prepared) (serial : Nat) (file : String) : Document :=
  ⟨serial, file, p.language, p.grammar, p.tree, Utf8.encode p.content.toList⟩

@[simp] theorem Prepared.document_file (p : Prepared) (serial : Nat) (file : String) :
    (p.document serial file).file = file := rfl

namespace Action

variable {α β : Type}

/-- The grammar of a language that is registered, the source, and the tree. -/
def finish (file : String) (content : Option String) (language : String) : Action Prepared := do
  let grammar ← grammar language
  let content ← source file content
  match (← setup).engine.parse grammar content with
  | some tree => return ⟨language, grammar, tree, content⟩
  | none => fail (.error (.noTree file))

def prepare (file : String) (language content : Option String) : Action Prepared := do
  let language ← languageOf language file
  load language
  finish file content language

theorem parse_eq (file : String) (language content : Option String) :
    parse file language content =
      prepare file language content >>= fun p =>
        store file p.language p.grammar p.tree p.content := by
  unfold parse prepare finish
  simp only [bind_assoc]
  refine bind_congr fun language => bind_congr fun _ => bind_congr fun grammar =>
    bind_congr fun content => bind_congr fun setup => ?_
  cases setup.engine.parse grammar content <;> rfl

theorem still_source (file : String) (content : Option String) : Still (source file content) := by
  unfold source
  split
  · exact still_pure _
  · refine .bind (still_emit _) fun _ => .bind still_state fun s => ?_
    split
    · exact still_pure _
    · exact still_fail _

theorem apart_source (file : String) (content : Option String) : Apart (source file content) := by
  unfold source
  split
  · exact .pure _
  · refine .bind (.emit fun _ => ⟨⟨[], rfl⟩, rfl⟩) fun _ => .state (fun _ => rfl) fun s => ?_
    split
    · exact .pure _
    · exact .fail _

theorem still_finish (file : String) (content : Option String) (language : String) :
    Still (finish file content language) := by
  refine .bind (.bind still_state fun _ => still_ofExcept _) fun grammar =>
    .bind (still_source file content) fun text => .bind still_setup fun setup => ?_
  split
  · exact still_pure _
  · exact still_fail _

theorem apart_finish (file : String) (content : Option String) (language : String) :
    Apart (finish file content language) := by
  refine .bind (apart_grammar language) fun grammar => .bind (apart_source file content) fun text =>
    .bind .setup fun setup => ?_
  split
  · exact .pure _
  · exact .fail _

theorem apart_prepare (file : String) (language content : Option String) :
    Apart (prepare file language content) := by
  refine .bind ?_ fun language => .bind (apart_load language) fun _ => apart_finish file content language
  unfold languageOf
  split
  · exact .pure _
  · exact .fail _

/-! ## The new entry -/

theorem Apart.cache {x : Action α} (h : Apart x) (setup : Setup) (s : State) :
    (x setup s).state.index.cache = s.index.cache :=
  Within.outside h (fun s => s.index.cache) (fun _ _ => rfl) setup s

theorem Apart.made {x : Action α} (h : Apart x) (setup : Setup) (s : State) :
    (x setup s).state.index.made = s.index.made :=
  Within.outside h (fun s => s.index.made) (fun _ _ => rfl) setup s

theorem Apart.disk {x : Action α} (h : Apart x) (setup : Setup) (s : State) :
    (x setup s).state.world.disk = s.world.disk :=
  (h.may_run setup s).2

variable {file : String} {language content : Option String} {setup : Setup} {s : State}

/-- The state after a document has become the entry of its file. -/
def withEntry (s : State) (d : Document) : State :=
  { s with index := { s.index with made := d.serial + 1, cache := s.index.cache.insert d.file d } }

theorem get?_withEntry (s : State) (d : Document) (other : String) :
    (withEntry s d).index.cache.get? other =
      if d.file = other then some d else s.index.cache.get? other :=
  Table.get?_insert s.index.cache d.file other d

theorem parse_run_error {e : Failure} (h : (prepare file language content setup s).result = .error e) :
    parse file language content setup s =
      ⟨.error e, (prepare file language content setup s).state,
        (prepare file language content setup s).effects⟩ := by
  rw [parse_eq, bind_run_error h]

theorem parse_run_ok {p : Prepared} (h : (prepare file language content setup s).result = .ok p) :
    parse file language content setup s =
      ⟨.ok (p.document s.index.made file),
        withEntry (prepare file language content setup s).state (p.document s.index.made file),
        (prepare file language content setup s).effects ++ [.log (.parsed file p.language)]⟩ := by
  have hm := (apart_prepare file language content).made setup s
  rw [parse_eq, bind_run_ok h]
  unfold Prepared.document withEntry
  rw [← hm]
  rfl

/-- A parse that succeeds makes a new document the entry of its file. -/
theorem parse_ok {d : Document} (h : (parse file language content setup s).result = .ok d) :
    d.file = file ∧ d.serial = s.index.made ∧
      (parse file language content setup s).state.index.made = s.index.made + 1 ∧
      (parse file language content setup s).state.index.cache = s.index.cache.insert file d := by
  have hc := (apart_prepare file language content).cache setup s
  cases hp : (prepare file language content setup s).result with
  | error e =>
    rw [parse_run_error hp] at h
    cases h
  | ok p =>
    rw [parse_run_ok hp] at h ⊢
    cases h
    exact ⟨rfl, rfl, rfl, congrArg (fun cache => Table.insert cache file _) hc⟩

/-- A parse that fails leaves the documents as they were. -/
theorem parse_error {e : Failure} (h : (parse file language content setup s).result = .error e) :
    (parse file language content setup s).state.index.made = s.index.made ∧
      (parse file language content setup s).state.index.cache = s.index.cache := by
  cases hp : (prepare file language content setup s).result with
  | error e' =>
    rw [parse_run_error hp]
    exact ⟨(apart_prepare file language content).made setup s,
      (apart_prepare file language content).cache setup s⟩
  | ok p =>
    rw [parse_run_ok hp] at h
    cases h

/-! ## Paths -/

theorem still_canonical (path : String) : Still (canonical path) := by
  unfold canonical
  split
  · exact still_fail _
  · exact .bind still_setup fun _ => still_pure _

theorem still_cached? (file : String) : Still (cached? file) :=
  .bind still_state fun _ => still_pure _

theorem still_entry (path : String) : Still <| entry? path :=
  .bind (still_canonical path) still_cached?

theorem still_isCached (path : String) : Still (isCached path) :=
  .bind (still_entry path) fun _ => still_pure _

/-- The id of the file that a path stands for, if it stands for one. -/
def fileOf? (setup : Setup) (path : String) : Option String :=
  if Path.hasNul path then none else some (Path.canonical setup.directory path)

variable {path : String}

theorem canonical_run (h : fileOf? setup path = some file) :
    canonical path setup s = ⟨.ok file, s, []⟩ := by
  unfold fileOf? at h
  split at h
  · cases h
  · rename_i hn
    cases h
    simp [canonical, hn, bind_run, Action.setup]

theorem canonical_run_none (h : fileOf? setup path = none) :
    canonical path setup s = ⟨.error (.fault .nullByte), s, []⟩ := by
  unfold fileOf? at h
  split at h
  · rename_i hn
    simp [canonical, hn, fail]
  · cases h

theorem entry_run (h : fileOf? setup path = some file) :
    entry? path setup s = ⟨.ok (s.index.cache.get? file), s, []⟩ := by
  unfold entry?
  rw [bind_run, canonical_run h]
  rfl

theorem entry_run_none (h : fileOf? setup path = none) :
    entry? path setup s = ⟨.error (.fault .nullByte), s, []⟩ := by
  unfold entry?
  rw [bind_run, canonical_run_none h]

theorem document_run_hit {d : Document} (h : fileOf? setup path = some file)
    (hd : s.index.cache.get? file = some d) :
    document path language content setup s = ⟨.ok d, s, [.log (.cacheHit file)]⟩ := by
  have hc : cached? file setup s = ⟨.ok (some d), s, []⟩ := by rw [← hd]; rfl
  unfold document
  rw [bind_run, canonical_run h]
  dsimp only
  rw [bind_run, hc]
  rfl

theorem document_run_miss (h : fileOf? setup path = some file)
    (hd : s.index.cache.get? file = none) :
    document path language content setup s = parse file language content setup s := by
  have hc : cached? file setup s = ⟨.ok none, s, []⟩ := by rw [← hd]; rfl
  unfold document
  rw [bind_run, canonical_run h]
  dsimp only
  rw [bind_run, hc]
  rfl

theorem document_run_none (h : fileOf? setup path = none) :
    document path language content setup s = ⟨.error (.fault .nullByte), s, []⟩ := by
  unfold document
  rw [bind_run, canonical_run_none h]

theorem reparse_run (h : fileOf? setup path = some file) :
    reparse path language content setup s = parse file language content setup s := by
  unfold reparse
  rw [bind_run, canonical_run h]
  rfl

theorem reparse_run_none (h : fileOf? setup path = none) :
    reparse path language content setup s = ⟨.error (.fault .nullByte), s, []⟩ := by
  unfold reparse
  rw [bind_run, canonical_run_none h]

/-- The state without the entry of a file. -/
def withoutEntry (s : State) (file : String) : State :=
  { s with index := { s.index with cache := s.index.cache.erase file } }

theorem get?_withoutEntry (s : State) (file other : String) :
    (withoutEntry s file).index.cache.get? other =
      if file = other then none else s.index.cache.get? other :=
  Table.get?_erase s.index.cache file other

theorem forget_run (h : fileOf? setup path = some file) :
    forget path setup s = ⟨.ok (s.index.cache.get? file).isSome, withoutEntry s file, []⟩ := by
  unfold forget
  rw [bind_run, canonical_run h]
  rfl

theorem forget_run_none (h : fileOf? setup path = none) :
    forget path setup s = ⟨.error (.fault .nullByte), s, []⟩ := by
  unfold forget
  rw [bind_run, canonical_run_none h]

/-! ## Grammars -/

/-- From `s` to `s'` the grammars stay, or the one of a language is added to them: it was not there,
and the loader has answered it. -/
def GainsOnly (setup : Setup) (s s' : State) (language : String) : Prop :=
  s'.index.registry.grammars = s.index.registry.grammars ∨
    ∃ g, s.index.registry.grammars.get? (Language.normalize language) = none ∧
      answerOf setup s (Language.normalize language) = .ok g ∧
      s'.index.registry.grammars =
        s.index.registry.grammars.insert (Language.normalize language) g

theorem gainsOnly_load (coherent : s.index.registry.Coherent) (settled : s.index.registry.Settled)
    (setup : Setup) (language : String) :
    GainsOnly setup s (load language setup s).state language := by
  unfold GainsOnly
  obtain ⟨name, named⟩ : ∃ name, Language.normalize language = name := ⟨_, rfl⟩
  rw [named]
  obtain ⟨status, hl, -⟩ := load_loads named coherent settled setup
  generalize (load language setup s).effects = effects at hl
  generalize (load language setup s).state.index.registry.grammars = grammars at hl ⊢
  cases hl with
  | present | leftover => exact .inl rfl
  | loaded unregistered =>
    cases ho : answerOf setup s name with
    | ok g => exact .inr ⟨g, unregistered, rfl, rfl⟩
    | error fault => exact .inl rfl

/-- A parse registers at most the grammar of its language. -/
theorem gainsOnly_prepare (coherent : s.index.registry.Coherent)
    (settled : s.index.registry.Settled) (setup : Setup) (file : String)
    (language content : Option String) :
    (prepare file language content setup s).state.index.registry.grammars =
        s.index.registry.grammars ∨
      ∃ name, Language.choose language file = .ok name ∧
        GainsOnly setup s (prepare file language content setup s).state name := by
  unfold prepare
  cases hc : Language.choose language file with
  | error suffix =>
    have hl : languageOf language file setup s = ⟨.error (.error (.unknownSuffix suffix)), s, []⟩ := by
      simp [languageOf, hc, fail]
    rw [bind_run, hl]
    exact .inl rfl
  | ok name =>
    have hl : languageOf language file setup s = ⟨.ok name, s, []⟩ := by simp [languageOf, hc]
    refine .inr ⟨name, rfl, ?_⟩
    have hg := gainsOnly_load coherent settled setup name
    rw [bind_run, hl]
    dsimp only
    unfold GainsOnly at hg ⊢
    rwa [index_bind fun _ => still_finish file content name]

end Action
end CodeIndex
