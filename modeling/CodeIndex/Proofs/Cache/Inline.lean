import CodeIndex.Proofs.Cache.Stages

/-!
# CodeIndex.Proofs.Cache.Inline

A parse of what is stored on the disk against a parse of a content that is given.

* `parse_result`, `parse_entry`, `parse_congr`: a parse depends on what it has found out.
* `Loaded`: the grammar of a file can be loaded. Then `Loaded.prepare_run` says what a parse finds out.
* `disk_agrees_inline`: bytes that encode a text are parsed like this text with its line ends normalized,
  and so are the bytes that encode the normalized text. Other bytes are not parsed.
-/

namespace CodeIndex
namespace Action

variable {setup : Setup} {s t : State} {file : String} {language content content' : Option String}

/-! ## Parses -/

theorem parse_result (file : String) (language content : Option String) (setup : Setup) (s : State) :
    (parse file language content setup s).result =
      (prepare file language content setup s).result.map fun p =>
        p.document s.index.made file :=
  (parse_run_map file language content setup s).1

theorem parse_entry (file : String) (language content : Option String) (setup : Setup) (s : State) :
    (parse file language content setup s).state.index.cache.get? file =
      match (prepare file language content setup s).result with
      | .ok p => some (p.document s.index.made file)
      | .error _ => s.index.cache.get? file := by
  cases hp : (prepare file language content setup s).result with
  | ok p => rw [parse_run_ok hp, get?_withEntry, Prepared.document_file, if_pos rfl]
  | error e => rw [parse_run_error hp, (apart_prepare file language content).cache]

/-- The registry after a parse is the one after its first part. -/
theorem parse_registry (file : String) (language content : Option String) (setup : Setup) (s : State) :
    (parse file language content setup s).state.index.registry =
      (prepare file language content setup s).state.index.registry := by
  cases hp : (prepare file language content setup s).result with
  | ok p => rw [parse_run_ok hp]; rfl
  | error e => rw [parse_run_error hp]

theorem parse_disk (file : String) (language content : Option String) (setup : Setup) (s : State) :
    (parse file language content setup s).state.world.disk = s.world.disk := by
  have apart := (apart_prepare file language content).disk setup s
  cases hp : (prepare file language content setup s).result with
  | ok p => rw [parse_run_ok hp]; exact apart
  | error e => rw [parse_run_error hp]; exact apart

/-- Parses that find out the same, and in the same state, end in the same way. -/
theorem parse_congr
    (result : (prepare file language content setup s).result =
      (prepare file language content' setup s).result)
    (state : (prepare file language content setup s).state =
      (prepare file language content' setup s).state) :
    (parse file language content setup s).result = (parse file language content' setup s).result ∧
      (parse file language content setup s).state = (parse file language content' setup s).state := by
  cases hp : (prepare file language content' setup s).result with
  | ok p =>
    rw [parse_run_ok hp, parse_run_ok (result.trans hp), state]
    exact ⟨rfl, rfl⟩
  | error e =>
    rw [parse_run_error hp, parse_run_error (result.trans hp), state]
    exact ⟨rfl, rfl⟩

/-! ## Where the grammar can be loaded -/

/-- A name is chosen for a file, and a load of this name leaves it registered. -/
structure Loaded (setup : Setup) (s : State) (file : String) (language : Option String) (name : String)
    (g : Grammar) : Prop where
  chosen : Language.choose language file = .ok name
  loaded : (load name setup s).result = .ok ()
  registered : (load name setup s).state.index.registry.grammars.get? name = some g

theorem load_registry (language : String) (setup : Setup) (s : State) :
    (load language setup s).state.index.registry =
      ((s.index.registry.call language).1.settle (answerOf setup s)).1 := by
  unfold load
  rw [bind_run, startLoad_run]
  dsimp only
  rw [index_bind fun _ => still_endLoad _]
  rfl

theorem settled_load (coherent : s.index.registry.Coherent) (language : String) (setup : Setup) :
    (load language setup s).state.index.registry.Settled := by
  have called : (s.index.registry.call language).1.Coherent := coherent.step (.call language)
  rw [load_registry]
  exact (called.settled_settle (answerOf setup s)).2

theorem exists_loaded {name : String} (coherent : s.index.registry.Coherent)
    (chosen : Language.Chosen language file name) (loads : (load name setup s).result = .ok ()) :
    ∃ g, Loaded setup s file language name g := by
  have chosen := Language.choose_eq_ok_iff.mpr chosen
  rcases load_registers setup coherent name with ⟨-, g, registered⟩ | ⟨fault, failed⟩
  · rw [Language.choose_normal chosen] at registered
    exact ⟨g, chosen, loads, registered⟩
  · rw [loads] at failed
    cases failed

namespace Loaded

variable {name : String} {g : Grammar} (h : Loaded setup s file language name g)

include h

theorem prepare_run (content : Option String) :
    prepare file language content setup s =
      ⟨found setup file name g (sourceOf s.world.disk file content), (load name setup s).state,
        (load name setup s).effects ++ (consulted file content).map .read⟩ :=
  prepare_loaded h.chosen h.loaded h.registered

/-- A file that cannot be read is not parsed. -/
theorem parse_unread {fault : ReadFault} (unread : s.world.disk.text file = .error fault) :
    (parse file language none setup s).result = .error (.error (.unreadable file fault)) ∧
      (parse file language none setup s).state.index.cache = s.index.cache := by
  have found : (prepare file language none setup s).result =
      .error (.error (.unreadable file fault)) := by
    rw [h.prepare_run, sourceOf, unread]
    rfl
  rw [parse_run_error found]
  exact ⟨rfl, (apart_prepare file language none).cache setup s⟩

/-- A file is parsed like its text. -/
theorem parse_text {text : String} (read : s.world.disk.text file = .ok text) :
    (parse file language none setup s).result = (parse file language (some text) setup s).result ∧
      (parse file language none setup s).state = (parse file language (some text) setup s).state := by
  have source : sourceOf s.world.disk file none = sourceOf s.world.disk file (some text) := read
  apply parse_congr
  · rw [h.prepare_run, h.prepare_run, source]
  · rw [h.prepare_run, h.prepare_run]

/-- Once the grammar has been loaded, a parse of a file with the same text finds out the same. -/
theorem prepare_again (coherent : s.index.registry.Coherent)
    (registry : t.index.registry = (load name setup s).state.index.registry) {text : String}
    (read : t.world.disk.text file = .ok text) :
    (prepare file language none setup t).result =
      (prepare file language (some text) setup s).result := by
  have settled := settled_load coherent name setup
  rw [← registry] at settled
  have registered := h.registered
  rw [← registry] at registered
  obtain ⟨loaded, grammars⟩ :=
    load_registered (Language.choose_normal h.chosen) settled.attempt registered setup
  rw [← grammars] at registered
  have again : Loaded setup t file language name g := ⟨h.chosen, loaded, registered⟩
  have source : sourceOf t.world.disk file none = sourceOf s.world.disk file (some text) := read
  rw [again.prepare_run, h.prepare_run, source]

/-- So it makes the same document and the same entry, but for the serial. -/
theorem parse_again (coherent : s.index.registry.Coherent) (uncached : s.index.cache.get? file = none)
    {text : String} (registry : t.index.registry = (load name setup s).state.index.registry)
    (entry : t.index.cache.get? file =
      (parse file language (some text) setup s).state.index.cache.get? file)
    (read : t.world.disk.text file = .ok text) :
    let first := parse file language (some text) setup s
    let again := parse file language none setup t
    let renumber := Document.renumber fun _ => t.index.made
    again.result = first.result.map renumber ∧
      again.state.index.cache.get? file = (first.state.index.cache.get? file).map renumber := by
  intro first again renumber
  have found := h.prepare_again coherent registry read
  rw [parse_result, parse_entry, entry, found, parse_result, parse_entry]
  cases (prepare file language (some text) setup s).result with
  | ok p => exact ⟨rfl, rfl⟩
  | error e => exact ⟨rfl, by rw [uncached]; rfl⟩

end Loaded

theorem write_state (path : String) (entry : Disk.Entry) (setup : Setup) (s : State) :
    ((Step.write path entry).run setup s).state =
      { s with world := { s.world with
          disk := s.world.disk.write (Path.canonical setup.directory path) entry } } := rfl

/-- The bytes of a file without an entry, whose grammar can be loaded. If they encode no text, a parse from
the disk fails and makes no entry. Otherwise let `T` be the text that they encode with its line ends
normalized: a parse from the disk and a parse of `T` have the same result and lead to the same state, so that
all later answers agree. Normalizing `T` changes nothing, and when the file is overwritten with `T` and parsed
once more, the document is the same but for its serial. -/
theorem disk_agrees_inline {setup : Setup} {s : State} {path name : String} {language : Option String}
    {bytes : List UInt8} (nulFree : Path.hasNul path = false)
    (coherent : s.index.registry.Coherent)
    (uncached : s.index.cache.get? (Path.canonical setup.directory path) = none)
    (chosen : Language.Chosen language (Path.canonical setup.directory path) name)
    (loads : (load name setup s).result = .ok ())
    (stored : s.world.disk.bytes (Path.canonical setup.directory path) = .ok bytes) :
    let file := Path.canonical setup.directory path
    let fromDisk := document path language none setup s
    ((∀ chars, bytes ≠ Utf8.encode chars) →
      fromDisk.result = .error (.error (.unreadable file .notUtf8)) ∧
        fromDisk.state.index.cache = s.index.cache) ∧
    ∀ chars, bytes = Utf8.encode chars → ∃ T : String,
      Newline.Translates chars T.toList ∧
      (let inline := document path language (some T) setup s
      fromDisk.result = inline.result ∧ fromDisk.state = inline.state ∧
      '\r' ∉ T.toList ∧ (∀ text, Newline.Translates T.toList text ↔ text = T.toList) ∧
      let written := ((Step.write path (.file (Utf8.encode T.toList))).run setup fromDisk.state).state
      let again := reparse path language none setup written
      let renumber := Document.renumber fun _ => written.index.made
      again.result = inline.result.map renumber ∧
        again.state.index.cache.get? file = (inline.state.index.cache.get? file).map renumber) := by
  intro file fromDisk
  obtain ⟨g, loaded⟩ := exists_loaded coherent chosen loads
  have hf : fileOf? setup path = some file := by
    rw [fileOf?, nulFree]
    rfl
  have parses : ∀ content, document path language content setup s =
      parse file language content setup s := fun content => document_run_miss hf uncached
  have hfromDisk : fromDisk = _ := parses none
  have text : s.world.disk.text file = Disk.decode bytes := Disk.text_of_bytes stored
  refine ⟨fun notUtf8 => ?_, fun chars encoded => ?_⟩
  · rw [Disk.decode_eq_error_iff.mpr ⟨rfl, notUtf8⟩] at text
    rw [hfromDisk]
    exact loaded.parse_unread text
  obtain ⟨T, translates⟩ : ∃ T : String, Newline.Translates chars T.toList :=
    ⟨String.ofList (Newline.normalize chars), by
      rw [String.toList_ofList]
      exact Newline.translates_normalize chars⟩
  rw [Disk.decode_eq_ok_iff.mpr ⟨chars, encoded, translates⟩] at text
  have noReturn := translates.not_mem
  obtain ⟨sameResult, sameState⟩ := loaded.parse_text text
  refine ⟨T, translates, ?_⟩
  intro inline
  have hinline : inline = _ := parses (some T)
  refine ⟨by rw [hfromDisk, hinline, sameResult], by rw [hfromDisk, hinline, sameState], noReturn, ?_, ?_⟩
  · intro text
    rw [Newline.translates_iff, Newline.normalize_of_not_mem noReturn]
  intro written again renumber
  have hwritten : written = _ := write_state path _ setup fromDisk.state
  have registry : written.index.registry = (load name setup s).state.index.registry := by
    rw [hwritten, hfromDisk, parse_registry, loaded.prepare_run]
  have read : written.world.disk.text file = .ok T := by
    rw [hwritten, hfromDisk, parse_disk, Disk.text_of_bytes (Disk.bytes_write stored _),
      Disk.decode_encode noReturn]
  have entry : written.index.cache.get? file = inline.state.index.cache.get? file := by
    rw [hwritten, hfromDisk, hinline, ← sameState]
  have hagain : again = _ := reparse_run hf
  rw [hagain, hinline]
  rw [hinline] at entry
  exact loaded.parse_again coherent uncached registry entry read

/-- A file with a carriage return before a line feed, and one alone. -/
theorem disk_agrees_inline_returns :
    let engine : Engine := ⟨fun name _ => .ok ⟨name⟩, fun _ _ => some default, fun _ _ => none⟩
    let setup := { plainSetup "gpt2" with engine := engine }
    let chars := ['a', '\r', '\n', 'é', '\r']
    let bytes := Utf8.encode chars
    let s : State := { world := { disk := [("/a.py", .file bytes)] } }
    let file := Path.canonical setup.directory "a.py"
    (Path.hasNul "a.py" = false ∧ s.index.registry.Coherent ∧ s.index.cache.get? file = none ∧
      Language.Chosen none file "python" ∧ (load "python" setup s).result = .ok () ∧
      s.world.disk.bytes file = .ok bytes) ∧
      let fromDisk := document "a.py" none none setup s
      let inline := document "a.py" none (some "a\né\n") setup s
      fromDisk.result = inline.result ∧ fromDisk.state = inline.state := by
  intro engine setup chars bytes s file
  have nulFree : Path.hasNul "a.py" = false := by decide
  have uncached : s.index.cache.get? file = none := rfl
  have chosen : Language.Chosen none file "python" :=
    .suffix (.inl rfl) (by decide +kernel)
  have normal : Language.normalize "python" = "python" := Language.choose_normal
    (Language.choose_eq_ok_iff.mpr chosen)
  have idle : s.index.registry.Idle :=
    Registry.idle_of_pending Registry.coherent_empty fun _ => rfl
  have loads : (load "python" setup s).result = .ok () :=
    (load_supplied idle normal (g := ⟨"python"⟩) rfl).1
  have stored : s.world.disk.bytes file = .ok bytes := by decide +kernel
  obtain ⟨T, translates, result, state, -⟩ :=
    (disk_agrees_inline nulFree Registry.coherent_empty uncached chosen loads stored).2 chars rfl
  obtain rfl : T = "a\né\n" := String.toList_inj.mp (translates.eq_normalize.trans (by decide))
  exact ⟨⟨nulFree, Registry.coherent_empty, uncached, chosen, loads, stored⟩, result, state⟩

end Action
end CodeIndex
