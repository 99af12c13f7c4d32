import CodeIndex.Proofs.Action.Unloaded
import CodeIndex.Proofs.Language.Name
import CodeIndex.Proofs.Path.Canonical
import Mathlib.Logic.Relation

/-!
# CodeIndex.Proofs.Session.Soundness

What is so of an index in every state that it reaches, with parses and loads under way.

* `Live` and `Live.Moves`: an index in use, and what may happen to it. Whole steps are done, load calls
  start, end, or are cancelled at any time, and parses go on in parts: each waits for its load call first
  and then for its source, and it may be dropped at both places.
* `Index.Sound`: the registry is coherent and has normal names only, and each entry fits its key, the
  registry and the parser.
* `Live.Sound.moves`: each move keeps this, so that it holds of all states that are reached.
* `index_sound`: with it no lookup, parse or tool ever misses a language.
-/

namespace CodeIndex

/-- A parse that has started and has not ended. -/
inductive Flight where
  /-- Waits for its load call. -/
  | loading (file language : String) (content : Option String) (call : Nat)
  /-- Has its grammar, and waits for its source. -/
  | reading (file language : String) (content : Option String) (grammar : Grammar)

/-- An index in use, with the parses under way. What a lookup or a tool does besides its parse leaves the
index as it is. -/
structure Live where
  state : State := {}
  flights : List Flight := []

namespace Live

def start (disk : Disk) : Live := { state := { world := { disk := disk } } }

inductive Moves (setup : Setup) : Live → Live → Prop where
  /-- A whole step at once. -/
  | step (s : State) (flights : List Flight) (step : Step) :
    Moves setup ⟨s, flights⟩ ⟨(step.run setup s).state, flights⟩
  /-- Load calls and attempts go on, with any outcomes. -/
  | events (s : State) (flights : List Flight) (events : List Event) :
    Moves setup ⟨s, flights⟩ ⟨(Action.transition (fun r => r.run events) setup s).state, flights⟩
  /-- A parse of a file starts with its load call. -/
  | begin (s : State) (flights : List Flight) {file language : String} (path : String)
    (named content : Option String)
    (found : Action.fileOf? setup path = some file)
    (chosen : Language.choose named file = .ok language) :
    Moves setup ⟨s, flights⟩ ⟨(Action.startLoad language setup s).state,
      .loading file language content s.index.registry.calls.length :: flights⟩
  /-- The load call of a parse has returned, so that it asks for the grammar. -/
  | loaded {s : State} (before after : List Flight) {file language : String}
    {content : Option String} {call : Nat} {grammar : Grammar}
    (returned : s.index.registry.status? call = some .returned)
    (got : (Action.grammar language setup s).result = .ok grammar) :
    Moves setup ⟨s, before ++ .loading file language content call :: after⟩
      ⟨s, before ++ .reading file language content grammar :: after⟩
  /-- The source of a parse has been read, and has a tree. -/
  | stored {s : State} (before after : List Flight) {file language : String}
    {content : Option String} {grammar : Grammar} {text : String} {tree : Tree}
    (read : (Action.source file content setup s).result = .ok text)
    (parsed : setup.engine.parse grammar text = some tree) :
    Moves setup ⟨s, before ++ .reading file language content grammar :: after⟩
      ⟨(Action.store file language grammar tree text setup s).state, before ++ after⟩
  /-- A parse fails or is cancelled. -/
  | dropped (s : State) (before after : List Flight) (flight : Flight) :
    Moves setup ⟨s, before ++ flight :: after⟩ ⟨s, before ++ after⟩

abbrev Reaches (setup : Setup) : Live → Live → Prop := Relation.ReflTransGen (Moves setup)

/-- The states of a session are reached. -/
theorem reaches_run (setup : Setup) (session : Session) (steps : List Step) :
    Reaches setup ⟨session.state, []⟩ ⟨(Session.run setup session steps).state, []⟩ := by
  induction steps generalizing session with
  | nil => exact .refl
  | cons step steps ih =>
    have first : Reaches setup ⟨session.state, []⟩ ⟨(session.step setup step).2.1.state, []⟩ := by
      rw [Session.state_step]
      exact .tail (.single (.step session.state [] step)) (.events _ [] _)
    exact first.trans (ih _)

end Live

/-! ## What is so of the parts -/

/-- The id of a file. It is its own id, where the working directory is a path at all. -/
structure IsFileId (setup : Setup) (file : String) : Prop where
  canonical : Path.canonical setup.directory file = file
  found : Path.hasNul setup.directory = false → Action.fileOf? setup file = some file

structure Document.Sound (setup : Setup) (r : Registry) (d : Document) : Prop where
  file : IsFileId setup d.file
  language : Language.normalize d.language = d.language
  grammar : r.grammars.get? d.language = some d.grammar
  parsed : ∃ text : String, d.source = Utf8.encode text.toList ∧
    setup.engine.parse d.grammar text = some d.tree

structure Index.Sound (setup : Setup) (i : Index) : Prop where
  coherent : i.registry.Coherent
  names : ∀ c ∈ i.registry.calls, Language.normalize c.name = c.name
  entry : ∀ file d, i.cache.get? file = some d → d.file = file ∧ d.Sound setup i.registry

def Flight.Sound (setup : Setup) (r : Registry) : Flight → Prop
  | .loading file language _ call => IsFileId setup file ∧ Language.normalize language = language ∧
    ∃ c, r.calls[call]? = some c ∧ c.name = language
  | .reading file language _ grammar => IsFileId setup file ∧
    Language.normalize language = language ∧ r.grammars.get? language = some grammar

structure Live.Sound (setup : Setup) (live : Live) : Prop where
  index : live.state.index.Sound setup
  flight : ∀ f ∈ live.flights, f.Sound setup live.state.index.registry

variable {setup : Setup} {s : State} {r : Registry} {file language : String}

theorem isFileId_of_fileOf? {path : String} (h : Action.fileOf? setup path = some file) :
    IsFileId setup file := by
  unfold Action.fileOf? at h
  split at h
  · cases h
  · rename_i hn
    cases h
    have hcanonical := Path.canonical_canonical setup.directory setup.directory path
    refine ⟨hcanonical, fun hd => ?_⟩
    have hnul := Path.hasNul_canonical hd (Bool.eq_false_iff.mpr hn)
    rw [Action.fileOf?, hcanonical, hnul, if_neg Bool.false_ne_true]

theorem Document.Sound.grows {r' : Registry} {d : Document} (h : d.Sound setup r)
    (grows : r.Grows r') : d.Sound setup r' :=
  ⟨h.file, h.language, grows.grammar h.grammar, h.parsed⟩

theorem Flight.Sound.run {f : Flight} (h : f.Sound setup r) (coherent : r.Coherent)
    (events : List Event) : f.Sound setup (r.run events).1 := by
  cases f with
  | loading file language content call =>
    obtain ⟨hfile, hlanguage, c, hc, hname⟩ := h
    obtain ⟨status, hs, -⟩ := Registry.call_run hc events
    exact ⟨hfile, hlanguage, _, hs, hname⟩
  | reading file language content grammar =>
    obtain ⟨hfile, hlanguage, hg⟩ := h
    exact ⟨hfile, hlanguage, (coherent.grows_run events).grammar hg⟩

namespace Index.Sound

variable {i i' : Index}

/-- Every registered name is the name of a call. -/
theorem normal (h : i.Sound setup) {name : String} {g : Grammar}
    (hg : i.registry.grammars.get? name = some g) : Language.normalize name = name := by
  obtain ⟨k, hk⟩ := h.coherent.registered.mp hg
  obtain ⟨c, hc, hname⟩ := List.mem_map.mp (h.coherent.name_mem hk)
  have hn := h.names c hc
  rwa [hname] at hn

/-- Events keep the soundness of an index whose documents stay. -/
theorem run (h : i.Sound setup) {events : List Event} (hr : i'.registry = (i.registry.run events).1)
    (hc : i'.cache = i.cache) : i'.Sound setup where
  coherent := by
    rw [hr]
    exact h.coherent.run events
  names := by
    rw [hr]
    intro c hm
    have hname : c.name ∈ (i.registry.run events).1.calls.map LoadCall.name := List.mem_map_of_mem hm
    rw [Registry.names_run, List.mem_append] at hname
    rcases hname with hname | hname
    · obtain ⟨c', hc', he⟩ := List.mem_map.mp hname
      rw [← he]
      exact h.names c' hc'
    · obtain ⟨language, -, he⟩ := List.mem_map.mp hname
      rw [← he]
      exact Language.normalize_normalize language
  entry := by
    rw [hr, hc]
    intro file d hd
    obtain ⟨hfile, hsound⟩ := h.entry file d hd
    exact ⟨hfile, hsound.grows (h.coherent.grows_run events)⟩

theorem insert (h : i.Sound setup) {d : Document} (hd : d.Sound setup i.registry)
    (hr : i'.registry = i.registry) (hc : i'.cache = i.cache.insert d.file d) : i'.Sound setup where
  coherent := by
    rw [hr]
    exact h.coherent
  names := by
    rw [hr]
    exact h.names
  entry := by
    rw [hr, hc]
    intro file d' hd'
    rw [Table.get?_insert] at hd'
    split at hd'
    · rename_i hfile
      cases hd'
      exact ⟨hfile, hd⟩
    · exact h.entry file d' hd'

/-- Entries may go. -/
theorem sublist (h : i.Sound setup) (hr : i'.registry = i.registry)
    (hc : ∀ file d, i'.cache.get? file = some d → i.cache.get? file = some d) : i'.Sound setup where
  coherent := by
    rw [hr]
    exact h.coherent
  names := by
    rw [hr]
    exact h.names
  entry := by
    rw [hr]
    exact fun file d hd => h.entry file d (hc file d hd)

end Index.Sound

/-! ## Parses -/

namespace Action

variable {named content : Option String}

/-- What a parse has found out: the chosen language, its grammar, and the tree of its source. -/
structure Finds (setup : Setup) (r : Registry) (file : String) (named : Option String)
    (p : Prepared) : Prop where
  chosen : Language.choose named file = .ok p.language
  grammar : r.grammars.get? p.language = some p.grammar
  tree : setup.engine.parse p.grammar p.content = some p.tree

theorem registered_of_grammar {g : Grammar} (h : (grammar language setup s).result = .ok g)
    (normal : Language.normalize language = language) :
    s.index.registry.grammars.get? language = some g := by
  cases hg : s.index.registry.grammars.get? language with
  | none =>
    rw [grammar_run_none (by rw [normal]; exact hg)] at h
    cases h
  | some g' =>
    rw [grammar_run_ok (by rw [normal]; exact hg)] at h
    cases h
    rfl

theorem finish_ok {p : Prepared} (h : (finish file content language setup s).result = .ok p)
    (normal : Language.normalize language = language) :
    p.language = language ∧ s.index.registry.grammars.get? language = some p.grammar ∧
      setup.engine.parse p.grammar p.content = some p.tree := by
  unfold finish at h
  cases hg : s.index.registry.grammars.get? language with
  | none =>
    rw [bind_run, grammar_run_none (by rw [normal]; exact hg)] at h
    cases h
  | some g =>
    rw [bind_run, grammar_run_ok (by rw [normal]; exact hg)] at h
    dsimp only at h
    cases hs : (source file content setup s).result with
    | error e =>
      rw [bind_run_error hs] at h
      cases h
    | ok text =>
      rw [bind_run_ok hs] at h
      dsimp only at h
      rw [setup_bind_run] at h
      cases ht : setup.engine.parse g text with
      | none =>
        rw [ht] at h
        cases h
      | some tree =>
        rw [ht] at h
        cases h
        exact ⟨rfl, rfl, ht⟩

theorem prepare_ok {p : Prepared} (h : (prepare file named content setup s).result = .ok p) :
    Finds setup (prepare file named content setup s).state.index.registry file named p := by
  unfold prepare at h ⊢
  cases hc : Language.choose named file with
  | error suffix =>
    have hl : languageOf named file setup s = ⟨.error (.error (.unknownSuffix suffix)), s, []⟩ := by
      simp [languageOf, hc, fail]
    rw [bind_run, hl] at h
    cases h
  | ok language =>
    have hl : languageOf named file setup s = ⟨.ok language, s, []⟩ := by simp [languageOf, hc]
    rw [bind_run, hl] at h ⊢
    dsimp only at h ⊢
    cases hload : (load language setup s).result with
    | error e =>
      rw [bind_run_error hload] at h
      cases h
    | ok _ =>
      rw [bind_run_ok hload] at h ⊢
      dsimp only at h ⊢
      obtain ⟨hname, hg, ht⟩ := finish_ok h (Language.choose_normal hc)
      rw [still_finish]
      exact ⟨by rw [hname]; exact hc, by rw [hname]; exact hg, ht⟩

end Action

open CodeIndex.Action

theorem Index.Sound.parse {named content : Option String} (h : s.index.Sound setup)
    (hf : IsFileId setup file) :
    (Action.parse file named content setup s).state.index.Sound setup := by
  have hprepare : (prepare file named content setup s).state.index.Sound setup := by
    obtain ⟨events, he⟩ := (apart_prepare file named content).driven setup s
    exact h.run he ((apart_prepare file named content).cache setup s)
  cases hp : (prepare file named content setup s).result with
  | error e =>
    rw [parse_run_error hp]
    exact hprepare
  | ok p =>
    rw [parse_run_ok hp]
    have hfinds := prepare_ok hp
    have hd : (p.document s.index.made file).Sound setup
        (prepare file named content setup s).state.index.registry :=
      ⟨hf, Language.choose_normal hfinds.chosen, hfinds.grammar, p.content, rfl, hfinds.tree⟩
    exact hprepare.insert hd rfl rfl

theorem Index.Sound.leads {i : Index} {use : Use} (h : s.index.Sound setup)
    (hl : Leads setup s i use) : i.Sound setup := by
  cases use with
  | lookup path language content =>
    rw [show i = _ from hl]
    cases hf : fileOf? setup path with
    | none =>
      rw [document_run_none hf]
      exact h
    | some file =>
      cases hd : s.index.cache.get? file with
      | some d =>
        rw [document_run_hit hf hd]
        exact h
      | none =>
        rw [document_run_miss hf hd]
        exact h.parse (isFileId_of_fileOf? hf)
  | parse path language content =>
    rw [show i = _ from hl]
    cases hf : fileOf? setup path with
    | none =>
      rw [reparse_run_none hf]
      exact h
    | some file =>
      rw [reparse_run hf]
      exact h.parse (isFileId_of_fileOf? hf)
  | forget path =>
    rw [show i = _ from hl]
    cases hf : fileOf? setup path with
    | none =>
      rw [forget_run_none hf]
      exact h
    | some file =>
      rw [forget_run hf]
      refine h.sublist rfl fun other d hd => ?_
      rw [withoutEntry, Table.get?_erase] at hd
      split at hd
      · cases hd
      · exact hd
  | forgetAll =>
    rw [show i = _ from hl]
    exact h.sublist rfl fun other d hd => by cases hd
  | other =>
    obtain ⟨hcache, -, events, he⟩ := hl
    exact h.run he hcache

/-! ## Moves -/

namespace Live

variable {live live' : Live}

theorem sound_start (setup : Setup) (disk : Disk) : (start disk).Sound setup where
  index := ⟨Registry.coherent_empty, fun c hc => (by cases hc), fun file d hd => by cases hd⟩
  flight f hf := by cases hf

/-- Every move moves the registry by events. -/
theorem Moves.driven (h : Moves setup live live') :
    ∃ events, live'.state.index.registry = (live.state.index.registry.run events).1 := by
  cases h with
  | step s flights step => exact driven_step step setup s
  | events s flights events => exact ⟨events, rfl⟩
  | begin s flights path named content found chosen => exact (apart_startLoad _).driven setup s
  | loaded before after returned got => exact ⟨[], rfl⟩
  | stored before after read parsed => exact driven_store _ _ _ _ _ setup _
  | dropped s before after flight => exact ⟨[], rfl⟩

theorem Sound.moves (h : live.Sound setup) (hm : Moves setup live live') : live'.Sound setup := by
  have flight : ∀ f ∈ live.flights, f.Sound setup live'.state.index.registry := by
    obtain ⟨events, he⟩ := hm.driven
    intro f hf
    rw [he]
    exact (h.flight f hf).run h.index.coherent events
  cases hm with
  | step s flights step => exact ⟨h.index.leads (leads_step step), flight⟩
  | events s flights events => exact ⟨h.index.run rfl rfl, flight⟩
  | @begin s flights file language path named content found chosen =>
    have hindex : (startLoad language setup s).state.index.Sound setup :=
      h.index.leads (apart_startLoad language).leads
    refine ⟨hindex, fun f hf => ?_⟩
    rcases List.mem_cons.mp hf with rfl | hf
    · obtain ⟨c, hcalls, hname, -⟩ := Registry.call_added s.index.registry language
      have hnormal := Language.choose_normal chosen
      refine ⟨isFileId_of_fileOf? found, hnormal, c, ?_, hname.trans hnormal⟩
      rw [startLoad_run]
      dsimp only
      rw [hcalls, List.getElem?_concat_length]
    · exact flight f hf
  | @loaded s before after file language content call grammar returned got =>
    refine ⟨h.index, fun f hf => ?_⟩
    rcases List.mem_append.mp hf with hf | hf
    · exact flight f (List.mem_append_left _ hf)
    rcases List.mem_cons.mp hf with rfl | hf
    · obtain ⟨hfile, hnormal, -⟩ := flight (.loading file language content call) (by simp)
      exact ⟨hfile, hnormal, registered_of_grammar got hnormal⟩
    · exact flight f (List.mem_append_right _ (List.mem_cons_of_mem _ hf))
  | @stored s before after file language content grammar text tree read parsed =>
    obtain ⟨hfile, hnormal, hg⟩ := flight (.reading file language content grammar) (by simp)
    refine ⟨?_, fun f hf => flight f ?_⟩
    · have hd : Document.Sound setup s.index.registry
          ⟨s.index.made, file, language, grammar, tree, Utf8.encode text.toList⟩ :=
        ⟨hfile, hnormal, hg, text, rfl, parsed⟩
      exact h.index.insert hd rfl rfl
    · rcases List.mem_append.mp hf with hf | hf
      · exact List.mem_append_left _ hf
      · exact List.mem_append_right _ (List.mem_cons_of_mem _ hf)
  | dropped s before after flight' =>
    refine ⟨h.index, fun f hf => flight f ?_⟩
    rcases List.mem_append.mp hf with hf | hf
    · exact List.mem_append_left _ hf
    · exact List.mem_append_right _ (List.mem_cons_of_mem _ hf)

theorem Sound.reaches (h : live.Sound setup) (reached : Reaches setup live live') :
    live'.Sound setup := by
  induction reached with
  | refl => exact h
  | tail _ hm ih => exact ih.moves hm

/-- What is registered stays so. -/
theorem Sound.grows (h : live.Sound setup) (reached : Reaches setup live live') :
    live.state.index.registry.Grows live'.state.index.registry := by
  induction reached with
  | refl => exact .refl _
  | @tail middle last first hm ih =>
    obtain ⟨events, he⟩ := hm.driven
    have coherent := (h.reaches first).index.coherent
    rw [he]
    exact ih.trans (coherent.grows_run events)

/-- A parse whose load call has returned finds its grammar. -/
theorem Sound.loading (h : live.Sound setup) {content : Option String} {call : Nat}
    (hf : .loading file language content call ∈ live.flights)
    (returned : live.state.index.registry.status? call = some .returned) :
    ∃ g, grammar language setup live.state = ⟨.ok g, live.state, []⟩ := by
  obtain ⟨-, hnormal, c, hc, hname⟩ := h.flight _ hf
  have hs : c.status = .returned := by
    rw [Registry.status?, hc] at returned
    exact Option.some.inj returned
  obtain ⟨g, hg⟩ := h.index.coherent.registered_of_returned (List.mem_of_getElem? hc) hs
  rw [hname] at hg
  exact ⟨g, grammar_run_ok (by rw [hnormal]; exact hg)⟩

end Live

/-! ## Steps -/

/-- Lookups, parses and tools. -/
def Step.serves : Step → Bool
  | .document _ _ _ | .reparse _ _ _ | .captures _ _ | .elements _ _ | .enclosing _ _
  | .comparison _ _ _ | .request _ _ _ | .function _ _ => true
  | .entry _ | .isCached _ | .forget _ | .forgetAll | .load _ | .loadEach _ | .loadCancelled _
  | .isLoaded _ | .grammar _ | .write _ _ | .delete _ | .describe _ | .commandLine _ => false

/-- The error that a reply tells of. -/
def Reply.errorText? : Reply → Option String
  | .answer a => a.errorText?
  | .payload (.error raised) => some raised.message
  | _ => none

theorem secure_step {step : Step} (h : step.serves = true) :
    Secure (fun reply => ∀ text, reply.errorText? = some text → ¬IsUnloadedText text) step.run := by
  have silent : ∀ reply : Reply, reply.errorText? = none →
      ∀ text, reply.errorText? = some text → ¬IsUnloadedText text := by
    intro reply hn text ht
    rw [hn] at ht
    cases ht
  cases step with
  | document path language content =>
    exact .bind (secure_document path language content) fun _ _ => .pure (silent _ rfl)
  | reparse path language content =>
    exact .bind (secure_reparse path language content) fun _ _ => .pure (silent _ rfl)
  | captures path query =>
    exact .bind (secure_captures path query) fun _ _ => .pure (silent _ rfl)
  | elements path kind =>
    exact .bind (secure_elements path kind) fun _ _ => .pure (silent _ rfl)
  | enclosing path point =>
    exact .bind (secure_enclosing path point) fun _ _ => .pure (silent _ rfl)
  | comparison path language content =>
    exact .bind (secure_comparison path language content) fun _ _ => .pure (silent _ rfl)
  | request tool arguments seconds =>
    exact .bind (secure_request tool arguments seconds) fun a ha => .pure fun _ ht => ha.errorText ht
  | function tool given =>
    refine .bind (.bind (secure_request _ _ _) fun a ha => .pure (a := Function.unwrap a)
      (P := fun p => ∀ m, p = .error ⟨m⟩ → ¬IsUnloadedText m) fun m hm => ha.unwrap hm) fun p hp => ?_
    refine .pure fun text ht => ?_
    cases p with
    | ok payload => cases ht
    | error raised =>
      cases ht
      exact hp raised.message rfl
  | _ => cases h

/-- In every state that an index reaches, with whatever is under way in it, has failed, or was cancelled:

* an entry is that of its key, and the key is the id of a file. The language of the entry is a normal name,
  the grammar is the one registered for it, and the tree is the one that the parser gives for this grammar
  and a text with the source as its UTF-8 form;
* registered names are normal, and they stay registered with their grammars;
* no lookup, parse or tool fails since a language is not loaded, or says so in a notice, an event or its
  reply;
* nor does a parse that goes on after its load call has returned. -/
theorem index_sound {setup : Setup} {disk : Disk} {live : Live}
    (reached : Live.Reaches setup (.start disk) live) :
    let s := live.state
    let r := s.index.registry
    (∀ file d, s.index.cache.get? file = some d → d.file = file ∧ d.Sound setup r) ∧
    (∀ name g, r.grammars.get? name = some g → Language.normalize name = name ∧
      ∀ later, Live.Reaches setup live later →
        later.state.index.registry.grammars.get? name = some g) ∧
    (∀ step : Step, step.serves = true → (step.run setup s).Secure fun reply =>
      ∀ text, reply.errorText? = some text → ¬IsUnloadedText text) ∧
    (∀ file language content call, .loading file language content call ∈ live.flights →
      r.status? call = some .returned →
        ∃ g, Action.grammar language setup s = ⟨.ok g, s, []⟩) := by
  intro s r
  have sound : live.Sound setup := (Live.sound_start setup disk).reaches reached
  refine ⟨sound.index.entry, ?_, ?_, ?_⟩
  · intro name g hg
    exact ⟨sound.index.normal hg, fun later hl => (sound.grows hl).grammar hg⟩
  · intro step hs
    exact secure_step hs setup s sound.index.coherent
  · intro file language content call hf returned
    exact sound.loading hf returned

/-- A parse that is cancelled while its grammar loads, then the document of another file, and then a
parse that waits. -/
theorem index_sound_after_cancel :
    let engine : Engine := ⟨fun name _ => .ok ⟨name⟩, fun _ _ => some default, fun _ _ => none⟩
    let setup := { plainSetup "cl100k_base" with engine := engine }
    ∃ live d, Live.Reaches setup (.start []) live ∧ live.flights.length = 1 ∧
      live.state.index.cache.get? "/a.py" = some d ∧ d.Sound setup live.state.index.registry := by
  intro engine setup
  have hfile : Action.fileOf? setup "b.go" = some "/b.go" := by decide +kernel
  have hgo : Language.choose none "/b.go" = .ok "go" := rfl
  have begun : Live.Reaches setup (.start []) _ := .single (.begin _ _ "b.go" none none hfile hgo)
  have cancelled := (begun.tail (.events _ _ [.cancel 0, .wake 0])).tail (.dropped _ [] [] _)
  have parsed := cancelled.trans
    (Live.reaches_run setup ⟨_, []⟩ [.document "a.py" none (some "x = 1")])
  have reached := parsed.tail (.begin _ _ "b.go" none none hfile hgo)
  have cached : ∀ live, Live.Reaches setup (.start []) live → live.flights.length = 1 →
      (live.state.index.cache.get? "/a.py").isSome = true →
      ∃ live d, Live.Reaches setup (.start []) live ∧ live.flights.length = 1 ∧
        live.state.index.cache.get? "/a.py" = some d ∧
        d.Sound setup live.state.index.registry := by
    intro live reached hone hsome
    obtain ⟨d, hd⟩ := Option.isSome_iff_exists.mp hsome
    exact ⟨live, d, reached, hone, hd, ((index_sound reached).1 "/a.py" d hd).2⟩
  exact cached _ reached rfl (by decide +kernel)

end CodeIndex
