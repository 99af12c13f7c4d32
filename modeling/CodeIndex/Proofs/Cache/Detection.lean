import CodeIndex.Proofs.Cache.Inline
import CodeIndex.Proofs.Language.Detection
import CodeIndex.Proofs.Session.Soundness

/-!
# CodeIndex.Proofs.Cache.Detection

The grammar that a file is parsed with, by the last component of its path.

* `parse_loaded`: a document has the language that is chosen for its file, and the grammar that is registered
  for this language.
* `grammar_of_name`: which part of a path decides, and which spellings do not.
-/

namespace CodeIndex

namespace Action

variable {setup : Setup} {s : State} {file other : String} {language content content' : Option String}
  {d d' : Document}

theorem prepare_registry {name : String} (chosen : Language.choose language file = .ok name)
    (content : Option String) :
    (prepare file language content setup s).state.index.registry =
      (load name setup s).state.index.registry := by
  rw [prepare_chosen chosen, index_bind fun _ => still_finish file content name]

theorem parse_loaded (made : (parse file language content setup s).result = .ok d) :
    Loaded setup s file language d.language d.grammar := by
  rw [parse_result] at made
  obtain ⟨p, found, rfl⟩ := map_eq_ok_iff.mp made
  have finds := prepare_ok found
  rw [prepare_chosen finds.chosen] at found
  obtain ⟨_, loaded, -⟩ := of_bind_result_ok found
  have registered := finds.grammar
  rw [prepare_registry finds.chosen] at registered
  exact ⟨finds.chosen, loaded, registered⟩

/-- Where one language is chosen for two files, they are parsed with one grammar. -/
theorem parse_grammar_eq
    (same : ∀ name, Language.choose language file = .ok name ↔ Language.choose language other = .ok name)
    (made : (parse file language content setup s).result = .ok d)
    (made' : (parse other language content' setup s).result = .ok d') :
    d.language = d'.language ∧ d.grammar = d'.grammar := by
  have first := parse_loaded made
  have second := parse_loaded made'
  have languages : d.language = d'.language := by
    have chosen := (same _).mp first.chosen
    rw [second.chosen] at chosen
    exact (Except.ok.inj chosen).symm
  refine ⟨languages, ?_⟩
  have registered := first.registered
  rw [languages, second.registered] at registered
  exact (Option.some.inj registered).symm

theorem eq_canonical_of_fileOf? {path : String} (h : fileOf? setup path = some file) :
    file = Path.canonical setup.directory path := by
  unfold fileOf? at h
  split at h
  · cases h
  · exact (Option.some.inj h).symm

theorem parse_of_reparse {path : String} (made : (reparse path language content setup s).result = .ok d) :
    (parse (Path.canonical setup.directory path) language content setup s).result = .ok d := by
  cases hf : fileOf? setup path with
  | none =>
    rw [reparse_run_none hf] at made
    cases made
  | some file =>
    rw [reparse_run hf] at made
    rwa [← eq_canonical_of_fileOf? hf]

end Action

/-- The language of a file:

* it is found by the last component of the path, from its last dot on and in lower case, where this dot is
  neither the first character nor the last one;
* otherwise, or where no language is known for this, it is not found, and the failure tells what has been
  looked up;
* for a path that ends with a name, this is so for the id of the file just as for the path;
* other spellings of the path, and others of its letters, have the same language, and a document that is
  parsed by the one has the language and the grammar of a document that is parsed by the other. -/
theorem grammar_of_name (setup : Setup) :
    (∀ path language, Language.detect path = .ok language ↔
      ∃ suffix, Path.HasSuffix path suffix ∧
        Language.suffixes.get? (String.ofList (lower suffix)) = some language) ∧
      (∀ path extension, Language.detect path = .error extension ↔
        (∃ suffix, Path.HasSuffix path suffix ∧ extension = String.ofList (lower suffix) ∧
          Language.suffixes.get? extension = none) ∨
        (∀ suffix, ¬Path.HasSuffix path suffix) ∧ extension = "") ∧
      (∀ path file, Action.fileOf? setup path = some file → Path.Named path →
        Language.detect file = Language.detect path) ∧
      ∀ p q, Path.Named p → Path.Named q →
        (Path.SameFile setup.directory p q → Language.detect p = Language.detect q) ∧
        (Path.SameFile setup.directory p q ∨ caseless p.toList = caseless q.toList →
          (∀ name, Language.detect p = .ok name ↔ Language.detect q = .ok name) ∧
          ∀ (s : State) (language content content' : Option String) (d d' : Document),
            (Action.reparse p language content setup s).result = .ok d →
            (Action.reparse q language content' setup s).result = .ok d' →
            Language.choose language p = .ok d.language ∧ d.language = d'.language ∧
              d.grammar = d'.grammar) := by
  refine ⟨fun _ _ => Language.detect_eq_ok_iff_hasSuffix, fun _ _ => Language.detect_eq_error_iff_hasSuffix,
    ?_, ?_⟩
  · intro path file hf named
    rw [Action.eq_canonical_of_fileOf? hf, Language.detect_canonical named]
  · intro p q hp hq
    have spelled : Path.SameFile setup.directory p q → Language.detect p = Language.detect q := by
      intro same
      rw [← Language.detect_canonical hp setup.directory, Path.canonical_eq_iff.mpr same,
        Language.detect_canonical hq setup.directory]
    refine ⟨spelled, fun h => ?_⟩
    have detected : ∀ name, Language.detect p = .ok name ↔ Language.detect q = .ok name := by
      intro name
      rcases h with same | letters
      · rw [spelled same]
      · exact Language.detect_caseless letters
    refine ⟨detected, fun s language content content' d d' made made' => ?_⟩
    have first := Action.parse_of_reparse made
    have second := Action.parse_of_reparse made'
    have chosen := (Action.parse_loaded first).chosen
    rw [Language.choose_canonical hp] at chosen
    refine ⟨chosen, Action.parse_grammar_eq (fun name => ?_) first second⟩
    rw [Language.choose_canonical hp, Language.choose_canonical hq]
    exact Language.choose_iff_of_detect language (detected name)

/-- Capital letters, a directory that is left again, and a dot at the end. -/
theorem grammar_of_name_capitals :
    let engine : Engine := ⟨fun name _ => .ok ⟨name⟩, fun _ _ => some default, fun _ _ => none⟩
    let setup := { plainSetup "gpt2" with engine := engine, directory := "/w" }
    let p := "a/../.App.PY//."
    let q := "a/../.app.py//."
    (Path.Named p ∧ Path.Named q ∧ Action.fileOf? setup p = some "/w/.App.PY" ∧
      caseless p.toList = caseless q.toList) ∧
      Path.HasSuffix p ['.', 'P', 'Y'] ∧ Language.detect "/w/.App.PY" = Language.detect p ∧
      ∃ d d', (Action.reparse p none (some "") setup {}).result = .ok d ∧
        (Action.reparse q none (some "") setup {}).result = .ok d' ∧
        Language.choose none p = .ok d.language ∧ d.language = d'.language ∧ d.grammar = d'.grammar := by
  intro engine setup p q
  have hp : Path.Named p := ⟨".App.PY".toList, Path.names_iff.mpr (by decide), by decide⟩
  have hq : Path.Named q := ⟨".app.py".toList, Path.names_iff.mpr (by decide), by decide⟩
  have hf : Action.fileOf? setup p = some "/w/.App.PY" := by decide
  have letters : caseless p.toList = caseless q.toList := by decide +kernel
  have idle : ({} : State).index.registry.Idle :=
    Registry.idle_of_pending Registry.coherent_empty fun _ => rfl
  have made : ∀ path file, Action.fileOf? setup path = some file →
      Language.choose none file = .ok "python" →
      ∃ d, (Action.reparse path none (some "") setup {}).result = .ok d := by
    intro path file hf chosen
    let found : Prepared := ⟨"python", ⟨"python"⟩, default, ""⟩
    refine ⟨found.document 0 file, ?_⟩
    rw [Action.reparse_run hf]
    exact Action.parse_of_stages idle chosen rfl rfl rfl
  obtain ⟨d, first⟩ := made p "/w/.App.PY" hf (by decide +kernel)
  obtain ⟨d', second⟩ := made q "/w/.app.py" (by decide) (by decide +kernel)
  obtain ⟨found, -, canonical, spellings⟩ := grammar_of_name setup
  obtain ⟨suffix, has, -⟩ := (found p "python").mp (by decide +kernel)
  have hsuffix : suffix = ['.', 'P', 'Y'] := (Path.hasSuffix_iff.mp has).2.symm.trans (by decide)
  exact ⟨⟨hp, hq, hf, letters⟩, hsuffix ▸ has, canonical p _ hf hp, d, d', first, second,
    ((spellings p q hp hq).2 (.inr letters)).2 {} none _ _ d d' first second⟩

end CodeIndex
