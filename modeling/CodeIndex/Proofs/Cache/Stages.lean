import CodeIndex.Proofs.Action.Local
import CodeIndex.Proofs.Disk
import CodeIndex.Proofs.Language.Choice
import CodeIndex.Proofs.Registry.Idle

/-!
# CodeIndex.Proofs.Cache.Stages

The stages of a parse: its language, the grammar, the source and the tree. Each of them can fail, and then
the later ones do nothing.

* `load_supplied`, `load_refused`, `finish_run`: each stage from the state in which it starts.
* `ParseEnds`, `prepare_ends`: the ways in which a parse ends, with the names that the loader is asked for and
  the files that are read.
* `Stages`, `document_stages`: when the lookup of a file without an entry ends in which way.
-/

namespace CodeIndex

/-- The file that is read. -/
def Effect.read? : Effect → Option String
  | .read file => some file
  | _ => none

namespace Action

def readsOf (effects : List Effect) : List String := effects.filterMap Effect.read?

theorem readsOf_append (a b : List Effect) : readsOf (a ++ b) = readsOf a ++ readsOf b :=
  List.filterMap_append ..

variable {setup : Setup} {s : State} {file : String} {language content : Option String}

/-! ## The grammar -/

section Load

variable {name : String}

/-- The grammar that is registered for a name, or what the loader answers. -/
def supply (setup : Setup) (s : State) (name : String) : Except LoadFault Grammar :=
  match s.index.registry.grammars.get? name with
  | some g => .ok g
  | none => answerOf setup s name

/-- The names that the loader is asked for. -/
def asked (s : State) (name : String) : List String :=
  match s.index.registry.grammars.get? name with
  | some _ => []
  | none => [name]

theorem supply_eq_ok_iff {g : Grammar} :
    supply setup s name = .ok g ↔
      s.index.registry.grammars.get? name = some g ∨
        s.index.registry.grammars.get? name = none ∧ answerOf setup s name = .ok g := by
  unfold supply
  cases s.index.registry.grammars.get? name <;> simp

theorem supply_eq_error_iff {fault : LoadFault} :
    supply setup s name = .error fault ↔
      s.index.registry.grammars.get? name = none ∧ answerOf setup s name = .error fault := by
  unfold supply
  cases s.index.registry.grammars.get? name <;> simp

theorem mem_asked {other : String} :
    other ∈ asked s name ↔ other = name ∧ s.index.registry.grammars.get? name = none := by
  unfold asked
  cases s.index.registry.grammars.get? name <;> simp

theorem length_asked_le (s : State) (name : String) : (asked s name).length ≤ 1 := by
  unfold asked
  split <;> simp

variable (idle : s.index.registry.Idle) (normal : Language.normalize name = name)

include idle normal

theorem load_asks :
    Registry.loadsOf (load name setup s).effects = asked s name ∧
      readsOf (load name setup s).effects = [] := by
  obtain ⟨status, served, -⟩ := load_serves normal idle.ended (fun _ => idle.pending name) setup
  cases hg : s.index.registry.grammars.get? name with
  | some g =>
    rw [(served.of_registered hg).2.2, asked, hg]
    exact ⟨rfl, rfl⟩
  | none =>
    rw [(served.of_unregistered hg).2.2, asked, hg]
    exact ⟨rfl, rfl⟩

/-- A load returns with the grammar that its name has. -/
theorem load_supplied {g : Grammar} (supplied : supply setup s name = .ok g) :
    (load name setup s).result = .ok () ∧
      (load name setup s).state.index.registry.grammars.get? name = some g := by
  obtain ⟨status, served, hresult⟩ :=
    load_serves normal idle.ended (fun _ => idle.pending name) setup
  rcases supply_eq_ok_iff.mp supplied with registered | ⟨unregistered, answered⟩
  · obtain ⟨rfl, hgrammars, -⟩ := served.of_registered registered
    exact ⟨hresult, by rw [hgrammars, registered]⟩
  · obtain ⟨hstatus, hgrammars, -⟩ := served.of_unregistered unregistered
    rw [hresult, hstatus, hgrammars, answered]
    exact ⟨rfl, by rw [Registry.grammarsAfter, Table.get?_insert, if_pos rfl]⟩

theorem load_refused {fault : LoadFault} (refused : supply setup s name = .error fault) :
    (load name setup s).result = .error (.error (.noGrammar name fault)) := by
  obtain ⟨unregistered, answered⟩ := supply_eq_error_iff.mp refused
  obtain ⟨status, served, hresult⟩ :=
    load_serves normal idle.ended (fun _ => idle.pending name) setup
  rw [hresult, (served.of_unregistered unregistered).1, answered]
  rfl

end Load

/-! ## The source and the tree -/

/-- A content that is given, or the text of the file. -/
def sourceOf (disk : Disk) (file : String) (content : Option String) : Except ReadFault String :=
  match content with
  | some text => .ok text
  | none => disk.text file

/-- The files that are read. -/
def consulted (file : String) (content : Option String) : List String :=
  match content with
  | some _ => []
  | none => [file]

theorem sourceOf_eq_error_iff {disk : Disk} {fault : ReadFault} :
    sourceOf disk file content = .error fault ↔ content = none ∧ disk.text file = .error fault := by
  cases content <;> simp [sourceOf]

theorem sourceOf_eq_ok_iff {disk : Disk} {text : String} :
    sourceOf disk file content = .ok text ↔
      content = some text ∨ content = none ∧ disk.text file = .ok text := by
  cases content <;> simp [sourceOf]

theorem mem_consulted {other : String} : other ∈ consulted file content ↔ other = file ∧ content = none := by
  cases content <;> simp [consulted]

theorem source_run (file : String) (content : Option String) (setup : Setup) (s : State) :
    source file content setup s =
      ⟨(sourceOf s.world.disk file content).mapError fun fault => .error (.unreadable file fault), s,
        (consulted file content).map .read⟩ := by
  cases content with
  | some text => rfl
  | none =>
    simp only [source, bind_run, emit, state, sourceOf]
    cases s.world.disk.text file <;> rfl

/-- What a parse finds out from a grammar and a source. -/
def found (setup : Setup) (file name : String) (g : Grammar) :
    Except ReadFault String → Except Failure Prepared
  | .ok text =>
    match setup.engine.parse g text with
    | some tree => .ok ⟨name, g, tree, text⟩
    | none => .error (.error (.noTree file))
  | .error fault => .error (.error (.unreadable file fault))

theorem finish_run {name : String} {g : Grammar} (normal : Language.normalize name = name)
    (registered : s.index.registry.grammars.get? name = some g) :
    finish file content name setup s =
      ⟨found setup file name g (sourceOf s.world.disk file content), s,
        (consulted file content).map .read⟩ := by
  rw [← normal] at registered
  unfold finish
  rw [bind_run, grammar_run_ok registered]
  dsimp only
  rw [bind_run, source_run]
  cases sourceOf s.world.disk file content with
  | error fault => rfl
  | ok text =>
    dsimp only [Except.mapError, found]
    rw [setup_bind_run]
    cases setup.engine.parse g text <;> simp [fail]

/-! ## The whole parse -/

/-- The ways in which a parse ends, with the names that the loader is asked for and the files that are
read. A stage is only reached when the ones before it have succeeded. -/
inductive ParseEnds (setup : Setup) (s : State) (file : String) (language content : Option String) :
    Except Failure Prepared → List String → List String → Prop where
  | unknownSuffix {suffix : String} (unchosen : Language.choose language file = .error suffix) :
      ParseEnds setup s file language content (.error (.error (.unknownSuffix suffix))) [] []
  | noGrammar {name : String} {fault : LoadFault} (chosen : Language.choose language file = .ok name)
      (refused : supply setup s name = .error fault) :
      ParseEnds setup s file language content (.error (.error (.noGrammar name fault))) (asked s name) []
  | unreadable {name : String} {g : Grammar} {fault : ReadFault}
      (chosen : Language.choose language file = .ok name) (supplied : supply setup s name = .ok g)
      (unread : sourceOf s.world.disk file content = .error fault) :
      ParseEnds setup s file language content (.error (.error (.unreadable file fault))) (asked s name)
        (consulted file content)
  | noTree {name : String} {g : Grammar} {text : String}
      (chosen : Language.choose language file = .ok name) (supplied : supply setup s name = .ok g)
      (read : sourceOf s.world.disk file content = .ok text)
      (unparsed : setup.engine.parse g text = none) :
      ParseEnds setup s file language content (.error (.error (.noTree file))) (asked s name)
        (consulted file content)
  | ok {p : Prepared} (chosen : Language.choose language file = .ok p.language)
      (supplied : supply setup s p.language = .ok p.grammar)
      (read : sourceOf s.world.disk file content = .ok p.content)
      (parsed : setup.engine.parse p.grammar p.content = some p.tree) :
      ParseEnds setup s file language content (.ok p) (asked s p.language) (consulted file content)

theorem prepare_unchosen {suffix : String} (h : Language.choose language file = .error suffix) :
    prepare file language content setup s =
      ⟨.error (.error (.unknownSuffix suffix)), s, []⟩ := by
  unfold prepare
  rw [bind_run, languageOf_run, h]
  rfl

theorem prepare_chosen {name : String} (h : Language.choose language file = .ok name) :
    prepare file language content setup s =
      (load name >>= fun _ => finish file content name) setup s := by
  have named : languageOf language file setup s = ⟨.ok name, s, []⟩ := by
    rw [languageOf_run, h]
    rfl
  unfold prepare
  rw [bind_run, named]
  dsimp only
  rw [List.nil_append]

/-- A parse whose grammar has been loaded goes on in the state after the load. -/
theorem prepare_loaded {name : String} {g : Grammar} (chosen : Language.choose language file = .ok name)
    (loaded : (load name setup s).result = .ok ())
    (registered : (load name setup s).state.index.registry.grammars.get? name = some g) :
    prepare file language content setup s =
      ⟨found setup file name g (sourceOf s.world.disk file content), (load name setup s).state,
        (load name setup s).effects ++ (consulted file content).map .read⟩ := by
  rw [prepare_chosen chosen, bind_run_ok loaded,
    finish_run (Language.choose_normal chosen) registered, (apart_load name).disk]

theorem loadsOf_reads (files : List String) : Registry.loadsOf (files.map .read) = [] := by
  simp [Registry.loadsOf, Effect.load?]

theorem readsOf_reads (files : List String) : readsOf (files.map .read) = files := by
  simp [readsOf, Function.comp_def, Effect.read?]

theorem prepare_ends (idle : s.index.registry.Idle) (file : String) (language content : Option String) :
    let run := prepare file language content setup s
    ParseEnds setup s file language content run.result (Registry.loadsOf run.effects)
      (readsOf run.effects) := by
  dsimp only
  cases hc : Language.choose language file with
  | error suffix =>
    rw [prepare_unchosen hc]
    exact .unknownSuffix hc
  | ok name =>
    have normal := Language.choose_normal hc
    obtain ⟨loads, reads⟩ : _ ∧ readsOf (load name setup s).effects = [] := load_asks idle normal
    cases hg : supply setup s name with
    | error fault =>
      rw [prepare_chosen hc, bind_run_error (load_refused idle normal hg), loads, reads]
      exact .noGrammar hc hg
    | ok g =>
      obtain ⟨loaded, registered⟩ := load_supplied idle normal hg
      rw [prepare_loaded hc loaded registered]
      dsimp only
      rw [Registry.loadsOf_append, readsOf_append, loads, reads, loadsOf_reads, readsOf_reads,
        List.append_nil, List.nil_append]
      cases ht : sourceOf s.world.disk file content with
      | error fault => exact .unreadable hc hg ht
      | ok text =>
        rw [found]
        cases hp : setup.engine.parse g text with
        | none => exact .noTree hc hg ht hp
        | some tree => exact .ok (p := ⟨name, g, tree, text⟩) hc hg ht hp

namespace ParseEnds

variable {result other : Except Failure Prepared} {loads reads loads' reads' : List String}

/-- How a parse ends is settled by its stages. -/
theorem unique (h : ParseEnds setup s file language content result loads reads)
    (h' : ParseEnds setup s file language content other loads' reads') :
    result = other ∧ loads = loads' ∧ reads = reads' := by
  cases h with
  | unknownSuffix unchosen => cases h' <;> simp_all
  | noGrammar chosen refused => cases h' <;> simp_all
  | unreadable chosen supplied unread => cases h' <;> simp_all
  | noTree chosen supplied read unparsed => cases h' <;> simp_all
  | @ok p chosen supplied read parsed =>
    cases h' with
    | @ok p' => cases p; cases p'; simp_all
    | _ => simp_all

variable (h : ParseEnds setup s file language content result loads reads)

include h

theorem unknownSuffix_iff {suffix : String} :
    result = .error (.error (.unknownSuffix suffix)) ↔
      Language.choose language file = .error suffix := by
  constructor
  · rintro rfl
    cases h with
    | unknownSuffix unchosen => exact unchosen
  · intro unchosen
    exact (h.unique (.unknownSuffix unchosen)).1

theorem noGrammar_iff {name : String} {fault : LoadFault} :
    result = .error (.error (.noGrammar name fault)) ↔
      Language.choose language file = .ok name ∧ supply setup s name = .error fault := by
  constructor
  · rintro rfl
    cases h with
    | noGrammar chosen refused => exact ⟨chosen, refused⟩
  · rintro ⟨chosen, refused⟩
    exact (h.unique (.noGrammar chosen refused)).1

theorem unreadable_iff {path : String} {fault : ReadFault} :
    result = .error (.error (.unreadable path fault)) ↔
      path = file ∧ (∃ name g, Language.choose language file = .ok name ∧ supply setup s name = .ok g) ∧
        sourceOf s.world.disk file content = .error fault := by
  constructor
  · rintro rfl
    cases h with
    | unreadable chosen supplied unread => exact ⟨rfl, ⟨_, _, chosen, supplied⟩, unread⟩
  · rintro ⟨rfl, ⟨name, g, chosen, supplied⟩, unread⟩
    exact (h.unique (.unreadable chosen supplied unread)).1

theorem noTree_iff {path : String} :
    result = .error (.error (.noTree path)) ↔
      path = file ∧ ∃ name g text, (Language.choose language file = .ok name ∧
        supply setup s name = .ok g) ∧ sourceOf s.world.disk file content = .ok text ∧
        setup.engine.parse g text = none := by
  constructor
  · rintro rfl
    cases h with
    | noTree chosen supplied read unparsed =>
      exact ⟨rfl, _, _, _, ⟨chosen, supplied⟩, read, unparsed⟩
  · rintro ⟨rfl, name, g, text, ⟨chosen, supplied⟩, read, unparsed⟩
    exact (h.unique (.noTree chosen supplied read unparsed)).1

theorem ok_iff {p : Prepared} :
    result = .ok p ↔
      (Language.choose language file = .ok p.language ∧ supply setup s p.language = .ok p.grammar) ∧
        sourceOf s.world.disk file content = .ok p.content ∧
        setup.engine.parse p.grammar p.content = some p.tree := by
  constructor
  · rintro rfl
    cases h with
    | ok chosen supplied read parsed => exact ⟨⟨chosen, supplied⟩, read, parsed⟩
  · rintro ⟨⟨chosen, supplied⟩, read, parsed⟩
    exact (h.unique (.ok chosen supplied read parsed)).1

/-- There is no other failure. -/
theorem failure {e : Failure} (he : result = .error e) :
    (∃ suffix, e = .error (.unknownSuffix suffix)) ∨ (∃ name fault, e = .error (.noGrammar name fault)) ∨
      (∃ fault, e = .error (.unreadable file fault)) ∨ e = .error (.noTree file) := by
  subst he
  cases h with
  | unknownSuffix => exact .inl ⟨_, rfl⟩
  | noGrammar => exact .inr (.inl ⟨_, _, rfl⟩)
  | unreadable => exact .inr (.inr (.inl ⟨_, rfl⟩))
  | noTree => exact .inr (.inr (.inr rfl))

theorem loads_le : loads.length ≤ 1 := by
  cases h with
  | unknownSuffix => exact Nat.zero_le 1
  | noGrammar | unreadable | noTree | ok => exact length_asked_le s _

/-- The loader is asked for the language of the parse, unless that is registered. -/
theorem mem_loads {name : String} :
    name ∈ loads ↔ Language.choose language file = .ok name ∧
      s.index.registry.grammars.get? name = none := by
  cases h with
  | unknownSuffix unchosen => simp [unchosen]
  | noGrammar chosen | unreadable chosen | noTree chosen | ok chosen =>
    rw [mem_asked, chosen]
    constructor
    · rintro ⟨rfl, unregistered⟩
      exact ⟨rfl, unregistered⟩
    · rintro ⟨⟨⟩, unregistered⟩
      exact ⟨rfl, unregistered⟩

theorem reads_le : reads.length ≤ 1 := by
  cases h with
  | unknownSuffix | noGrammar => exact Nat.zero_le 1
  | unreadable | noTree | ok =>
    unfold consulted
    split <;> simp

/-- The file is read when its grammar is there, unless a content is given. -/
theorem mem_reads {path : String} :
    path ∈ reads ↔ path = file ∧ content = none ∧
      ∃ name g, Language.choose language file = .ok name ∧ supply setup s name = .ok g := by
  cases h with
  | unknownSuffix unchosen => simp [unchosen]
  | noGrammar chosen refused => simp [chosen, refused]
  | unreadable chosen supplied | noTree chosen supplied | ok chosen supplied =>
    rw [mem_consulted, chosen]
    simp [supplied]

end ParseEnds

/-! ## Lookups -/

/-- The grammar of the language that is chosen for a file: it is registered, or else the loader answers
it. -/
structure Supplied (setup : Setup) (s : State) (file : String) (language : Option String)
    (name : String) (g : Grammar) : Prop where
  chosen : Language.Chosen language file name
  available : s.index.registry.grammars.get? name = some g ∨
    s.index.registry.grammars.get? name = none ∧ answerOf setup s name = .ok g

/-- The source of a file: the content that is given, an empty one too, or else the text that is stored. -/
def IsSource (disk : Disk) (file : String) (content : Option String) (text : String) : Prop :=
  content = some text ∨
    content = none ∧ ∃ chars, disk.bytes file = .ok (Utf8.encode chars) ∧
      Newline.Translates chars text.toList

/-- Why no text is read from a file. -/
def IsUnreadable (disk : Disk) (file : String) (fault : ReadFault) : Prop :=
  disk.bytes file = .error fault ∨
    fault = .notUtf8 ∧ ∃ bytes, disk.bytes file = .ok bytes ∧ ∀ chars, bytes ≠ Utf8.encode chars

theorem supplied_iff {name : String} {g : Grammar} :
    Supplied setup s file language name g ↔
      Language.choose language file = .ok name ∧ supply setup s name = .ok g := by
  rw [Language.choose_eq_ok_iff, supply_eq_ok_iff]
  exact ⟨fun h => ⟨h.chosen, h.available⟩, fun h => ⟨h.1, h.2⟩⟩

theorem isSource_iff {disk : Disk} {text : String} :
    IsSource disk file content text ↔ sourceOf disk file content = .ok text := by
  rw [sourceOf_eq_ok_iff, Disk.text_eq_ok_iff, IsSource]

theorem isUnreadable_iff {disk : Disk} {fault : ReadFault} :
    content = none ∧ IsUnreadable disk file fault ↔ sourceOf disk file content = .error fault := by
  rw [sourceOf_eq_error_iff, Disk.text_eq_error_iff, IsUnreadable]

/-- How a parse of a file ends, stage by stage, with the loader calls and the reads on the way. -/
structure Stages (setup : Setup) (s : State) (file : String) (language content : Option String)
    (run : Run Document) : Prop where
  unknownSuffix : ∀ suffix, run.result = .error (.error (.unknownSuffix suffix)) ↔
    Language.Unnamed language ∧ suffix = Language.suffixOf file ∧
      Language.suffixes.get? (Language.suffixOf file) = none
  /-- Without a language nothing is asked for. -/
  quiet : ∀ suffix, run.result = .error (.error (.unknownSuffix suffix)) →
    Registry.loadsOf run.effects = [] ∧ readsOf run.effects = []
  noGrammar : ∀ name fault, run.result = .error (.error (.noGrammar name fault)) ↔
    Language.Chosen language file name ∧ s.index.registry.grammars.get? name = none ∧
      answerOf setup s name = .error fault
  /-- Without a grammar nothing is read. -/
  unread : ∀ name fault, run.result = .error (.error (.noGrammar name fault)) →
    readsOf run.effects = []
  unreadable : ∀ path fault, run.result = .error (.error (.unreadable path fault)) ↔
    path = file ∧ (∃ name g, Supplied setup s file language name g) ∧ content = none ∧
      IsUnreadable s.world.disk file fault
  noTree : ∀ path, run.result = .error (.error (.noTree path)) ↔
    path = file ∧ ∃ name g text, Supplied setup s file language name g ∧
      IsSource s.world.disk file content text ∧ setup.engine.parse g text = none
  ok : ∀ d, run.result = .ok d ↔
    ∃ name g text tree, Supplied setup s file language name g ∧
      IsSource s.world.disk file content text ∧ setup.engine.parse g text = some tree ∧
      d = ⟨s.index.made, file, name, g, tree, Utf8.encode text.toList⟩
  failure : ∀ e, run.result = .error e →
    (∃ suffix, e = .error (.unknownSuffix suffix)) ∨ (∃ name fault, e = .error (.noGrammar name fault)) ∨
      (∃ fault, e = .error (.unreadable file fault)) ∨ e = .error (.noTree file)
  loads_le : (Registry.loadsOf run.effects).length ≤ 1
  mem_loads : ∀ name, name ∈ Registry.loadsOf run.effects ↔
    Language.Chosen language file name ∧ s.index.registry.grammars.get? name = none
  reads_le : (readsOf run.effects).length ≤ 1
  mem_reads : ∀ path, path ∈ readsOf run.effects ↔
    path = file ∧ content = none ∧ ∃ name g, Supplied setup s file language name g

theorem map_eq_error_iff {ε α β : Type} {x : Except ε α} {f : α → β} {e : ε} :
    x.map f = .error e ↔ x = .error e := by
  cases x <;> simp [Except.map]

theorem map_eq_ok_iff {ε α β : Type} {x : Except ε α} {f : α → β} {b : β} :
    x.map f = .ok b ↔ ∃ a, x = .ok a ∧ f a = b := by
  cases x <;> simp [Except.map]

/-- A document is made of what the parse has found out. -/
theorem stages_of_ends {run : Run Document} {result : Except Failure Prepared}
    (h : ParseEnds setup s file language content result (Registry.loadsOf run.effects)
      (readsOf run.effects))
    (made : run.result = result.map fun p => p.document s.index.made file) :
    Stages setup s file language content run where
  unknownSuffix suffix := by
    rw [made, map_eq_error_iff, h.unknownSuffix_iff, Language.choose_eq_error_iff]
  quiet suffix hr := by
    rw [made, map_eq_error_iff, h.unknownSuffix_iff] at hr
    exact (h.unique (.unknownSuffix hr)).2
  noGrammar name fault := by
    rw [made, map_eq_error_iff, h.noGrammar_iff, Language.choose_eq_ok_iff, supply_eq_error_iff]
  unread name fault hr := by
    rw [made, map_eq_error_iff, h.noGrammar_iff] at hr
    exact (h.unique (.noGrammar hr.1 hr.2)).2.2
  unreadable path fault := by
    rw [made, map_eq_error_iff, h.unreadable_iff, isUnreadable_iff]
    simp only [supplied_iff]
  noTree path := by
    rw [made, map_eq_error_iff, h.noTree_iff]
    simp only [supplied_iff, isSource_iff]
  ok d := by
    rw [made, map_eq_ok_iff]
    simp only [supplied_iff, isSource_iff, h.ok_iff]
    constructor
    · rintro ⟨p, ⟨supplied, read, parsed⟩, rfl⟩
      exact ⟨p.language, p.grammar, p.content, p.tree, supplied, read, parsed, rfl⟩
    · rintro ⟨name, g, text, tree, supplied, read, parsed, rfl⟩
      exact ⟨⟨name, g, tree, text⟩, ⟨supplied, read, parsed⟩, rfl⟩
  failure e hr := by
    rw [made, map_eq_error_iff] at hr
    exact h.failure hr
  loads_le := h.loads_le
  mem_loads name := by rw [h.mem_loads, Language.choose_eq_ok_iff]
  reads_le := h.reads_le
  mem_reads path := by
    rw [h.mem_reads]
    simp only [supplied_iff]

theorem parse_run_map (file : String) (language content : Option String) (setup : Setup) (s : State) :
    let first := prepare file language content setup s
    let run := parse file language content setup s
    run.result = first.result.map (fun p => p.document s.index.made file) ∧
      Registry.loadsOf run.effects = Registry.loadsOf first.effects ∧
      readsOf run.effects = readsOf first.effects := by
  intro first run
  cases hp : first.result with
  | error e =>
    have hrun : run = _ := parse_run_error hp
    rw [hrun]
    exact ⟨rfl, rfl, rfl⟩
  | ok p =>
    have hrun : run = _ := parse_run_ok hp
    rw [hrun, Registry.loadsOf_append, readsOf_append]
    exact ⟨rfl, List.append_nil _, List.append_nil _⟩

/-- A parse has success when each of its stages has. -/
theorem parse_of_stages (idle : s.index.registry.Idle) {file : String} {language content : Option String}
    {p : Prepared} (chosen : Language.choose language file = .ok p.language)
    (supplied : supply setup s p.language = .ok p.grammar)
    (read : sourceOf s.world.disk file content = .ok p.content)
    (parsed : setup.engine.parse p.grammar p.content = some p.tree) :
    (parse file language content setup s).result = .ok (p.document s.index.made file) := by
  have ends := (prepare_ends idle file language content).unique (.ok chosen supplied read parsed)
  rw [(parse_run_map file language content setup s).1, ends.1]
  rfl

/-- A lookup of a file without an entry, in any state in which no load is pending. -/
theorem document_stages {path : String} (nulFree : Path.hasNul path = false)
    (idle : s.index.registry.Idle)
    (uncached : s.index.cache.get? (Path.canonical setup.directory path) = none)
    (language content : Option String) :
    Stages setup s (Path.canonical setup.directory path) language content
      (document path language content setup s) := by
  have hf : fileOf? setup path = some (Path.canonical setup.directory path) := by
    rw [fileOf?, nulFree]
    rfl
  rw [document_run_miss hf uncached]
  generalize Path.canonical setup.directory path = file
  obtain ⟨result, loads, reads⟩ := parse_run_map file language content setup s
  refine stages_of_ends ?_ result
  rw [loads, reads]
  exact prepare_ends idle file language content

/-- A file whose bytes encode no text: its grammar is loaded, and then it is read in vain. -/
theorem document_stages_not_utf8 :
    let setup := plainSetup "gpt2"
    let s : State := { world := { disk := [("/a.py", .file [0xFF])] } }
    let file := Path.canonical setup.directory "a.py"
    let run := document "a.py" none none setup s
    (Path.hasNul "a.py" = false ∧ s.index.registry.Idle ∧ s.index.cache.get? file = none) ∧
      Stages setup s file none none run ∧
      run.result = .error (.error (.unreadable file .notUtf8)) ∧
      "python" ∈ Registry.loadsOf run.effects ∧ file ∈ readsOf run.effects := by
  intro setup s file run
  have nulFree : Path.hasNul "a.py" = false := by decide
  have idle : s.index.registry.Idle :=
    Registry.idle_of_pending Registry.coherent_empty fun _ => rfl
  have stages : Stages setup s file none none run := document_stages nulFree idle rfl none none
  have supplied : Supplied setup s file none "python" ⟨"python"⟩ :=
    ⟨.suffix (.inl rfl) (by decide +kernel), .inr ⟨rfl, rfl⟩⟩
  have stored : s.world.disk.bytes file = .ok [0xFF] := by decide +kernel
  have notUtf8 : ∀ chars, [0xFF] ≠ Utf8.encode chars := by
    apply Utf8.decode?_eq_none_iff.mp
    simp [Utf8.decode?, Utf8.pieces, Utf8.piece, Utf8.lead?]
  refine ⟨⟨nulFree, idle, rfl⟩, stages, ?_, ?_, ?_⟩
  · exact (stages.unreadable file .notUtf8).mpr
      ⟨rfl, ⟨_, _, supplied⟩, rfl, .inr ⟨rfl, _, stored, notUtf8⟩⟩
  · exact (stages.mem_loads "python").mpr ⟨supplied.chosen, rfl⟩
  · exact (stages.mem_reads file).mpr ⟨rfl, rfl, _, _, supplied⟩

end Action
end CodeIndex
