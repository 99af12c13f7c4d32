import CodeIndex.Proofs.Session.Steady
import CodeIndex.Proofs.Action.Unloaded

/-!
# CodeIndex.Proofs.Action.Local

Operations that concern one file at most.

* `Local`: such an operation leaves other entries and the disk alone, and in two steady states with the
  same disk and the same entry of the file it does the same, but for the serial of a document that it
  makes.
* `local_parse`: a parse is local. What it finds out depends on the disk and on the answers of the loader,
  whatever the registry has gained before.
* `local_step`: so are all operations on a path.
-/

namespace CodeIndex

/-- The same document with another serial. -/
def Document.renumber (σ : Nat → Nat) (d : Document) : Document := { d with serial := σ d.serial }

theorem Document.renumber_involutive {σ : Nat → Nat} (h : σ.Involutive) :
    (Document.renumber σ).Involutive := by
  intro d
  simp only [Document.renumber, h d.serial]

theorem Document.map_renumber {σ : Nat → Nat} {entry : Option Document}
    (h : ∀ d, entry = some d → σ d.serial = d.serial) : entry.map (Document.renumber σ) = entry := by
  cases entry with
  | none => rfl
  | some d => rw [Option.map_some, Document.renumber, h d rfl]

def Reply.renumber (σ : Nat → Nat) : Reply → Reply
  | .document d => .document (d.renumber σ)
  | reply => reply

theorem Reply.renumber_involutive {σ : Nat → Nat} (h : σ.Involutive) :
    (Reply.renumber σ).Involutive := by
  intro reply
  cases reply with
  | document d => exact congrArg Reply.document (Document.renumber_involutive h d)
  | _ => rfl

/-- The path that an operation on one file is about. -/
def Step.path? : Step → Option String
  | .document path _ _ | .reparse path _ _ | .captures path _ | .elements path _ | .enclosing path _
  | .comparison path _ _ | .forget path | .entry path | .isCached path => some path
  | .request _ _ _ | .forgetAll | .load _ | .loadEach _ | .loadCancelled _ | .isLoaded _ | .grammar _
  | .write _ _ | .delete _ | .function _ _ | .describe _ | .commandLine _ => none

namespace State

variable {answer : String → Except LoadFault Grammar} {file? : Option String} {σ : Nat → Nat}
  {s s' t : State}

/-- The same disk, and the same entry of the file. -/
structure Twins (file? : Option String) (s t : State) : Prop where
  disk : t.world.disk = s.world.disk
  entry : ∀ file, file? = some file → t.index.cache.get? file = s.index.cache.get? file

/-- What an operation that concerns one file keeps. It makes one document at most. -/
structure Frame (answer : String → Except LoadFault Grammar) (file? : Option String) (s s' : State) :
    Prop where
  steady : s'.Steady answer
  disk : s'.world.disk = s.world.disk
  others : ∀ other, file? ≠ some other → s'.index.cache.get? other = s.index.cache.get? other
  made : s'.index.made = s.index.made ∨ s'.index.made = s.index.made + 1

/-- The entry of the file keeps its serial, and a document that is made from `s` to `s'` gets the one that
it would have after `t`. -/
structure Renumbers (file? : Option String) (σ : Nat → Nat) (s s' t : State) : Prop where
  entry : ∀ file d, file? = some file → s.index.cache.get? file = some d → σ d.serial = d.serial
  fresh : s'.index.made ≠ s.index.made → σ s.index.made = t.index.made

theorem Twins.get? (h : Twins file? s t) (hσ : Renumbers file? σ s s' t) {file : String}
    (hf : file? = some file) :
    t.index.cache.get? file = (s.index.cache.get? file).map (Document.renumber σ) := by
  rw [h.entry file hf, Document.map_renumber fun d hd => hσ.entry file d hf hd]

theorem Frame.refl (steady : s.Steady answer) : Frame answer file? s s :=
  ⟨steady, rfl, fun _ _ => rfl, .inl rfl⟩

end State

namespace Action

variable {α β : Type} {setup : Setup} {answer : String → Except LoadFault Grammar}
  {file? : Option String} {σ : Nat → Nat} {s t : State}

/-- Runs from `s` and `t` that do the same, but for the serials. -/
structure Matches (answer : String → Except LoadFault Grammar) (file? : Option String) (σ : Nat → Nat)
    (renumber : (Nat → Nat) → α → α) (s : State) (x : Run α) (t : State) (y : Run α) : Prop where
  result : y.result = x.result.map (renumber σ)
  entry : ∀ file, file? = some file →
    y.state.index.cache.get? file = (x.state.index.cache.get? file).map (Document.renumber σ)
  made : y.state.index.made + s.index.made = x.state.index.made + t.index.made
  gains : ∃ wanted, s.index.registry.Gains answer wanted x.state.index.registry ∧
    t.index.registry.Gains answer wanted y.state.index.registry

/-- Runs that leave their states alone. -/
theorem Matches.of_still {renumber : (Nat → Nat) → α → α} {x y : Run α} (hx : x.state = s)
    (hy : y.state = t) (twins : s.Twins file? t) (hσ : s.Renumbers file? σ s t)
    (result : y.result = x.result.map (renumber σ)) : Matches answer file? σ renumber s x t y := by
  subst hx hy
  exact ⟨result, fun file hf => twins.get? hσ hf, Nat.add_comm _ _, none,
    .refl answer _, .refl answer _⟩

/-- An operation that concerns one file at most. -/
structure Local (setup : Setup) (answer : String → Except LoadFault Grammar) (file? : Option String)
    (renumber : (Nat → Nat) → α → α) (x : Action α) : Prop where
  frame : ∀ s : State, s.Steady answer → s.Frame answer file? (x setup s).state
  agree : ∀ (s t : State) (σ : Nat → Nat), s.Steady answer → t.Steady answer → s.Twins file? t →
    s.Renumbers file? σ (x setup s).state t →
      Matches answer file? σ renumber s (x setup s) t (x setup t)

namespace Local

variable {renumber : (Nat → Nat) → α → α} {renumber' : (Nat → Nat) → β → β}

/-- An operation that only looks at the entry of the file. -/
theorem of_still {x : Action α} (idle : ∀ s, (x setup s).state = s)
    (result : ∀ (s t : State) (σ : Nat → Nat), s.Twins file? t → s.Renumbers file? σ s t →
      (x setup t).result = (x setup s).result.map (renumber σ)) :
    Local setup answer file? renumber x where
  frame s steady := by
    rw [idle]
    exact .refl steady
  agree s t σ _ _ twins hσ := by
    rw [idle] at hσ
    exact .of_still (idle s) (idle t) twins hσ (result s t σ twins hσ)

/-- An operation that refuses a path without a file. -/
theorem of_path {path : String} {x : Action α}
    (refused : fileOf? setup path = none → ∀ s, x setup s = ⟨.error (.fault .nullByte), s, []⟩)
    (found : ∀ file, fileOf? setup path = some file → Local setup answer (some file) renumber x) :
    Local setup answer (fileOf? setup path) renumber x := by
  cases hf : fileOf? setup path with
  | none =>
    have run := refused hf
    refine .of_still (fun s => by rw [run]) fun s t σ _ _ => ?_
    rw [run, run]
    rfl
  | some file => exact found file hf

/-- What is worked out from the value of a local operation, without the index and whatever the serial. -/
protected theorem bind {x : Action α} {f : α → Action β} (h : Local setup answer file? renumber x)
    (aside : ∀ a, Aside (f a))
    (same : ∀ σ a s t, (f (renumber σ a) setup t).result = (f a setup s).result.map (renumber' σ)) :
    Local setup answer file? renumber' (x >>= f) := by
  have index : ∀ s, ((x >>= f) setup s).state.index = (x setup s).state.index :=
    index_bind (fun a => (aside a).still) setup
  have disk : ∀ s, ((x >>= f) setup s).state.world.disk = (x setup s).state.world.disk := by
    intro s
    rw [bind_run]
    split
    · exact Within.outside (aside _) (fun s => s.world.disk) (fun _ _ => rfl) setup _
    · rfl
  constructor
  · intro s steady
    obtain ⟨⟨registry, serial⟩, hdisk, others, made⟩ := h.frame s steady
    rw [← index] at registry serial others made
    exact ⟨⟨registry, serial⟩, (disk s).trans hdisk, others, made⟩
  · intro s t σ hs ht twins hσ
    have hσ' : s.Renumbers file? σ (x setup s).state t := by
      refine ⟨hσ.entry, ?_⟩
      rw [← index]
      exact hσ.fresh
    obtain ⟨result, entry, made, gains⟩ := h.agree s t σ hs ht twins hσ'
    rw [← index s, ← index t] at entry made gains
    refine ⟨?_, entry, made, gains⟩
    cases hx : (x setup s).result with
    | error e =>
      rw [hx] at result
      rw [bind_result_error hx, bind_result_error result]
      rfl
    | ok a =>
      rw [hx] at result
      rw [bind_result_ok hx, bind_result_ok result]
      exact same σ a _ _

end Local

/-! ## Parses -/

/-- The name that a parse asks the loader for. -/
def wanted? (file : String) (named : Option String) : Option String :=
  (Language.choose named file).toOption.map Language.normalize

theorem load_steady (constant : setup.LoadsAs answer) (steady : s.Steady answer) (language : String) :
    let name := Language.normalize language
    let run := load language setup s
    run.result = loadResult name (Registry.statusOf (answer name)) ∧
      run.state.index.registry.Steady answer ∧
      s.index.registry.Gains answer (some name) run.state.index.registry := by
  intro name run
  obtain ⟨after, gains, k, hc⟩ := steady.registry.load (rfl : Language.normalize language = name)
  rw [← answerOf_eq constant s] at hc
  obtain ⟨hresult, hregistry, -⟩ := load_run hc
  rw [answerOf_eq constant] at hresult hregistry
  refine ⟨hresult, ?_, ?_⟩
  · rw [hregistry]
    exact after
  · rw [hregistry]
    exact gains

theorem languageOf_run (named : Option String) (file : String) (s : State) :
    languageOf named file setup s =
      ⟨(Language.choose named file).mapError fun suffix => .error (.unknownSuffix suffix), s, []⟩ := by
  unfold languageOf
  cases Language.choose named file <;> rfl

theorem prepare_steady (constant : setup.LoadsAs answer) (steady : s.Steady answer) (file : String)
    (named content : Option String) :
    let run := prepare file named content setup s
    run.state.index.registry.Steady answer ∧
      s.index.registry.Gains answer (wanted? file named) run.state.index.registry := by
  intro run
  have chosen : languageOf named file setup s = _ := languageOf_run named file s
  rw [wanted?]
  cases hc : Language.choose named file with
  | error suffix =>
    rw [hc] at chosen
    have hrun : run = _ := bind_run_error (congrArg Run.result chosen) _
    rw [hrun, chosen]
    exact ⟨steady.registry, .refl answer _⟩
  | ok language =>
    rw [hc] at chosen
    obtain ⟨-, after, gains⟩ := load_steady constant steady language
    have hindex : run.state.index = (load language setup s).state.index := by
      have hrun : run = _ := bind_run_ok (congrArg Run.result chosen) _
      rw [hrun, chosen]
      dsimp only
      exact index_bind (fun _ => still_finish file content language) setup s
    rw [hindex]
    exact ⟨after, gains⟩

theorem source_result {file : String} {content : Option String}
    (disk : t.world.disk = s.world.disk) :
    (source file content setup t).result = (source file content setup s).result := by
  cases content with
  | some text => rfl
  | none =>
    simp only [source, bind_run, emit, state, disk]
    cases s.world.disk.text file <;> rfl

theorem finish_result {file language : String} {content : Option String}
    (get : t.index.registry.get language = s.index.registry.get language)
    (disk : t.world.disk = s.world.disk) :
    (finish file content language setup t).result =
      (finish file content language setup s).result := by
  have asked := apart_grammar language
  refine bind_result_congr ?_ fun g => bind_result_congr (source_result ?_) fun text => ?_
  · rw [grammar_run, grammar_run, get]
    cases s.index.registry.get language <;> rfl
  · rw [asked.disk, asked.disk, disk]
  · rw [setup_bind_run, setup_bind_run]
    cases setup.engine.parse g text <;> rfl

/-- What a parse finds out depends on the disk and the loader. -/
theorem prepare_result (constant : setup.LoadsAs answer) (hs : s.Steady answer) (ht : t.Steady answer)
    (disk : t.world.disk = s.world.disk) (file : String) (named content : Option String) :
    (prepare file named content setup t).result = (prepare file named content setup s).result := by
  refine bind_result_congr ?_ fun language => ?_
  · rw [languageOf_run, languageOf_run]
  · rw [languageOf_run, languageOf_run]
    obtain ⟨hrs, -, gs⟩ := load_steady constant hs language
    obtain ⟨hrt, -, gt⟩ := load_steady constant ht language
    refine bind_result_congr (hrt.trans hrs.symm) fun _ => finish_result ?_ ?_
    · rw [Registry.get, Registry.get, gs.grammar, gt.grammar, if_pos rfl, if_pos rfl]
    · rw [(apart_load language).disk, (apart_load language).disk, disk]

/-- A parse is local to its file. -/
theorem local_parse (constant : setup.LoadsAs answer) (file : String) (named content : Option String) :
    Local setup answer (some file) Document.renumber (parse file named content) where
  frame s steady := by
    have apart := apart_prepare file named content
    obtain ⟨registry, -⟩ := prepare_steady constant steady file named content
    cases hp : (prepare file named content setup s).result with
    | error e =>
      rw [parse_run_error hp]
      refine ⟨⟨registry, ?_⟩, apart.disk setup s, fun other _ => ?_, .inl (apart.made setup s)⟩
      · rw [apart.cache, apart.made]
        exact steady.serial
      · rw [apart.cache]
    | ok p =>
      rw [parse_run_ok hp]
      refine ⟨⟨registry, fun other d hd => ?_⟩, apart.disk setup s, fun other hne => ?_, .inr rfl⟩
      · rw [get?_withEntry, Prepared.document_file, apart.cache] at hd
        split at hd
        · cases hd
          exact Nat.lt_succ_self _
        · exact Nat.lt_succ_of_lt (steady.serial other d hd)
      · rw [get?_withEntry, Prepared.document_file, apart.cache, if_neg fun he => hne (congrArg some he)]
  agree s t σ hs ht twins hσ := by
    have apart := apart_prepare file named content
    have result := prepare_result constant hs ht twins.disk file named content
    have gains := And.intro (prepare_steady constant hs file named content).2
      (prepare_steady constant ht file named content).2
    cases hp : (prepare file named content setup s).result with
    | error e =>
      rw [parse_run_error hp, parse_run_error (result.trans hp)]
      refine ⟨rfl, fun other ho => ?_, ?_, _, gains⟩
      · rw [apart.cache, apart.cache]
        exact twins.get? hσ ho
      · rw [apart.made, apart.made, Nat.add_comm]
    | ok p =>
      rw [parse_run_ok hp] at hσ ⊢
      rw [parse_run_ok (result.trans hp)]
      have fresh : σ s.index.made = t.index.made := hσ.fresh (Nat.succ_ne_self _)
      have same : p.document t.index.made file = (p.document s.index.made file).renumber σ := by
        rw [← fresh]
        rfl
      refine ⟨congrArg Except.ok same, fun other ho => ?_, ?_, _, gains⟩
      · cases ho
        rw [get?_withEntry, get?_withEntry, Prepared.document_file, if_pos rfl,
          Prepared.document_file, if_pos rfl, same]
        rfl
      · change t.index.made + 1 + s.index.made = s.index.made + 1 + t.index.made
        omega

/-! ## Operations on a path -/

theorem local_document (constant : setup.LoadsAs answer) (path : String)
    (named content : Option String) :
    Local setup answer (fileOf? setup path) Document.renumber (document path named content) := by
  refine .of_path (fun hf _ => document_run_none hf) fun file hf => ?_
  have parses := local_parse constant file named content
  constructor
  · intro s steady
    cases hd : s.index.cache.get? file with
    | some d =>
      rw [document_run_hit hf hd]
      exact .refl steady
    | none =>
      rw [document_run_miss hf hd]
      exact parses.frame s steady
  · intro s t σ hs ht twins hσ
    have entry := twins.entry file rfl
    cases hd : s.index.cache.get? file with
    | some d =>
      rw [document_run_hit hf hd] at hσ ⊢
      rw [document_run_hit hf (entry.trans hd)]
      refine .of_still rfl rfl twins hσ ?_
      rw [Except.map, Document.renumber, hσ.entry file d rfl hd]
    | none =>
      rw [document_run_miss hf hd] at hσ ⊢
      rw [document_run_miss hf (entry.trans hd)]
      exact parses.agree s t σ hs ht twins hσ

theorem local_reparse (constant : setup.LoadsAs answer) (path : String)
    (named content : Option String) :
    Local setup answer (fileOf? setup path) Document.renumber (reparse path named content) := by
  refine .of_path (fun hf _ => reparse_run_none hf) fun file hf => ?_
  have parses := local_parse constant file named content
  constructor
  · intro s steady
    rw [reparse_run hf]
    exact parses.frame s steady
  · intro s t σ hs ht twins hσ
    rw [reparse_run hf] at hσ ⊢
    rw [reparse_run hf]
    exact parses.agree s t σ hs ht twins hσ

/-- What is looked up in the document of a path. -/
theorem local_lookup (constant : setup.LoadsAs answer) (path : String) (named content : Option String)
    {f : Document → Action β} (aside : ∀ d, Aside (f d))
    (same : ∀ σ d s t, (f (Document.renumber σ d) setup t).result = (f d setup s).result) :
    Local setup answer (fileOf? setup path) (fun _ b => b) (document path named content >>= f) := by
  refine (local_document constant path named content).bind aside fun σ d s t => ?_
  rw [same σ d s t]
  exact (congrFun Except.map_id _).symm

theorem local_captures (constant : setup.LoadsAs answer) (path query : String) :
    Local setup answer (fileOf? setup path) (fun _ b => b) (captures path query) := by
  refine local_lookup constant path none none (fun d => .bind .setup fun _ => .ofExcept _) ?_
  intro σ d s t
  rw [setup_bind_run, setup_bind_run]
  have same : Capture.list setup.engine.queryFault? (d.renumber σ) query =
      Capture.list setup.engine.queryFault? d query := rfl
  rw [same]
  cases Capture.list setup.engine.queryFault? d query <;> rfl

theorem local_elements (constant : setup.LoadsAs answer) (path kind : String) :
    Local setup answer (fileOf? setup path) (fun _ b => b) (elements path kind) :=
  local_lookup constant path none none (fun _ => .pure _) fun _ _ _ _ => rfl

theorem local_enclosing (constant : setup.LoadsAs answer) (path : String) (p : Point) :
    Local setup answer (fileOf? setup path) (fun _ b => b) (enclosing path p) :=
  local_lookup constant path none none (fun _ => .bind .setup fun _ => .pure _) fun _ _ _ _ => rfl

theorem local_comparison (constant : setup.LoadsAs answer) (path : String)
    (named content : Option String) :
    Local setup answer (fileOf? setup path) (fun _ b => b) (comparison path named content) :=
  local_lookup constant path named content (fun d => aside_comparison d.textOf d.tree.root d.text)
    fun _ d s t => comparison_result d.textOf d.tree.root d.text s t

theorem local_entry (path : String) :
    Local setup answer (fileOf? setup path) (fun σ => Option.map (Document.renumber σ)) <|
      entry? path := by
  refine .of_path (fun hf _ => entry_run_none hf) fun file hf => ?_
  refine .of_still (fun s => by rw [entry_run hf]) fun s t σ twins hσ => ?_
  rw [entry_run hf, entry_run hf, twins.get? hσ rfl]
  rfl

theorem local_isCached (path : String) :
    Local setup answer (fileOf? setup path) (fun _ b => b) (isCached path) :=
  (local_entry path).bind (fun _ => .pure _) fun _ d _ _ => by cases d <;> rfl

theorem local_forget (path : String) :
    Local setup answer (fileOf? setup path) (fun _ b => b) (forget path) := by
  refine .of_path (fun hf _ => forget_run_none hf) fun file hf => ?_
  constructor
  · intro s steady
    rw [forget_run hf]
    refine ⟨⟨steady.registry, fun other d hd => ?_⟩, rfl, fun other hne => ?_, .inl rfl⟩
    · rw [get?_withoutEntry] at hd
      split at hd
      · cases hd
      · exact steady.serial other d hd
    · rw [get?_withoutEntry, if_neg fun he => hne (congrArg some he)]
  · intro s t σ hs ht twins hσ
    rw [forget_run hf, forget_run hf]
    refine ⟨?_, fun other ho => ?_, Nat.add_comm _ _, none, .refl answer _, .refl answer _⟩
    · rw [twins.entry file rfl]
      rfl
    · cases ho
      rw [get?_withoutEntry, get?_withoutEntry, if_pos rfl, if_pos rfl]
      rfl

/-- Every operation on a path is local to its file. -/
theorem local_step (constant : setup.LoadsAs answer) {step : Step} {path : String}
    (h : step.path? = some path) :
    Local setup answer (fileOf? setup path) Reply.renumber step.run := by
  cases step with
  | document path named content =>
    cases h
    exact (local_document constant path named content).bind (fun _ => .pure _) fun _ _ _ _ => rfl
  | reparse path named content =>
    cases h
    exact (local_reparse constant path named content).bind (fun _ => .pure _) fun _ _ _ _ => rfl
  | captures path query =>
    cases h
    exact (local_captures constant path query).bind (fun _ => .pure _) fun _ _ _ _ => rfl
  | elements path kind =>
    cases h
    exact (local_elements constant path kind).bind (fun _ => .pure _) fun _ _ _ _ => rfl
  | enclosing path p =>
    cases h
    exact (local_enclosing constant path p).bind (fun _ => .pure _) fun _ _ _ _ => rfl
  | comparison path named content =>
    cases h
    exact (local_comparison constant path named content).bind (fun _ => .pure _) fun _ _ _ _ => rfl
  | forget path =>
    cases h
    exact (local_forget path).bind (fun _ => .pure _) fun _ _ _ _ => rfl
  | entry path =>
    cases h
    refine (local_entry path).bind (fun d => ?_) fun σ d s t => ?_
    · cases d <;> exact .pure _
    · cases d <;> rfl
  | isCached path =>
    cases h
    exact (local_isCached path).bind (fun _ => .pure _) fun _ _ _ _ => rfl
  | request | forgetAll | load | loadEach | loadCancelled | isLoaded | grammar | write | delete
  | function | describe | commandLine => cases h

end Action
end CodeIndex
