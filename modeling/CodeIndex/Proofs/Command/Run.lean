import CodeIndex.Proofs.Session.Indifference
import CodeIndex.Proofs.Session.Soundness

/-!
# CodeIndex.Proofs.Command.Run

A command, and the operation of the index that it stands for.

* `Command.Operation`: the operation, which is run on an index that is empty and made without options.
* `Shown`: what is handed to the terminal after the operation, and the exit status.
* `Drawn`: what is seen of it. `drawAll_run`: outputs are drawn one after the other, and the first that the
  terminal refuses ends the command.
* `Console.Renders`: the console after an operation: its error in one line, or its value. A snippet that
  is found has left a file in the cache, and the language of this file was chosen by its suffix.
* `command_shows`: every command hands what its operation gives to the terminal, and leaves the present index
  alone. `error_line_unseen`: what the terminal takes for markup in an error line.
-/

namespace CodeIndex

/-- The setup of an index that is made without options. -/
def Setup.plain (setup : Setup) : Setup := { setup with encoding := none, blocks := [] }

namespace Command

/-- A command line asks for a command. -/
def Asked (arguments : List String) (command : Command) : Prop :=
  ∃ name rest, select arguments = .ok (name, rest) ∧ name.command rest = .ok command

/-- The file that a command is about. The server is about none. -/
def path? : Command → Option String
  | .search path _ | .elements path _ | .snippet path _ _ | .analyze path _ _ => some path
  | .serve _ _ _ => none

inductive Operation : Command → {α : Type} → Action α → Prop where
  | search (path query : String) : Operation (.search path query) (Action.captures path query)
  | elements (path kind : String) : Operation (.elements path kind) (Action.elements path kind)
  | snippet (path : String) (row column : Int) :
    Operation (.snippet path row column) (Action.enclosing path ⟨row, column⟩)
  | analyze (path : String) (language : Option String) (showThin : Bool) :
    Operation (.analyze path language showThin) (Action.comparison path language none)

end Command

/-- A place in a file, as a table shows it. -/
def rowColumn (p : Point) : String := toString p.row ++ ":" ++ toString p.column

def countTable (c : Comparison) : List Output :=
  [.table ["representation", "tokens"] [["original", toString c.sourceTokens],
    ["cst", toString c.concreteTokens], ["thin ast", toString c.thinTokens]], .line "(3 rows)"]

/-- Outputs, what is seen of them when they are drawn in turn, and the fault of the first that is refused. -/
inductive Drawn (draw : Output → Except Fault Output) :
    List Output → List Output → Option Fault → Prop where
  | all : Drawn draw [] [] none
  | refused {output : Output} {outputs : List Output} {f : Fault} :
    draw output = .error f → Drawn draw (output :: outputs) [] (some f)
  | seen {output image : Output} {outputs images : List Output} {refusal : Option Fault} :
    draw output = .ok image → Drawn draw outputs images refusal →
    Drawn draw (output :: outputs) (image :: images) refusal

/-- The console after the run of an operation. A snippet is shown in the language of the cached file,
which is never the one for plain text. -/
inductive Shown (directory : String) : Command → {α : Type} → Run α → Console → Prop where
  | failed {command : Command} {α : Type} {run : Run α} {e : Error} :
    run.result = .error (.error e) →
    Shown directory command run ⟨1, [.line ("[red]Error:[/red] " ++ e.message)], []⟩
  | captures {path query : String} {run : Run (List Capture)} {captures : List Capture} :
    run.result = .ok captures →
    Shown directory (.search path query) run
      ⟨0, [.table ["capture", "text", "start", "end"]
          (captures.map fun c => [c.name, c.text, rowColumn c.start, rowColumn c.stop]),
        .line ("(" ++ toString captures.length ++ " rows)")], []⟩
  | elements {path kind : String} {run : Run (List Element)} {elements : List Element} :
    run.result = .ok elements →
    Shown directory (.elements path kind) run
      ⟨0, [.table ["name", "type", "start", "end"]
          (elements.map fun e => [e.name, e.kind, rowColumn e.start, rowColumn e.stop]),
        .line ("(" ++ toString elements.length ++ " rows)")], []⟩
  | nothing {path : String} {row column : Int} {run : Run (Option String)} :
    run.result = .ok none →
    Shown directory (.snippet path row column) run
      ⟨1, [.line "[yellow]Could not find a contextual snippet for the given position.[/yellow]"], []⟩
  | snippet {path text : String} {row column : Int} {run : Run (Option String)} {d : Document} :
    run.result = .ok (some text) →
    run.state.index.cache.get? (Path.canonical directory path) = some d → d.language ≠ "text" →
    Shown directory (.snippet path row column) run ⟨0, [.code text d.language], []⟩
  | comparison {path : String} {language : Option String} {showThin : Bool} {run : Run Comparison}
    {c : Comparison} :
    run.result = .ok c → (showThin = true → c.thin = none) →
    Shown directory (.analyze path language showThin) run ⟨0, countTable c, []⟩
  | thin {path : String} {language : Option String} {run : Run Comparison} {c : Comparison} {t : Thin} :
    run.result = .ok c → c.thin = some t →
    Shown directory (.analyze path language true) run
      ⟨0, countTable c ++ [.json (Thin.compactText (some t))], []⟩

/-- The same disk, loader calls and plain effects. -/
structure Run.SameTraces {α β : Type} (x : Run α) (y : Run β) : Prop where
  disk : x.state.world.disk = y.state.world.disk
  loads : x.state.world.loads = y.state.world.loads
  effects : x.effects.filter Effect.isPlain = y.effects.filter Effect.isPlain

/-- An error in one line, or what is printed for the value. -/
inductive Console.Renders {α : Type} (f : α → Console) : Except Failure α → Console → Prop where
  | failed (e : Error) : Renders f (.error (.error e)) (.ofError e)
  | value (a : α) : Renders f (.ok a) (f a)

/-- What is printed for a snippet of a file in a language. -/
def Console.ofSnippet (language : String) : Option String → Console
  | none => .nothingEnclosing
  | some text => .ofText text language

namespace Action

variable {α : Type} {setup : Setup} {s : State} {e : Encoding}

/-! ## The error line -/

theorem Calm.no_fault {x : Action α} (h : Calm x) (he : setup.encoding? = some e) (s : State)
    (f : Fault) : (x setup s).result ≠ .error (.fault f) := by
  intro hf
  obtain ⟨hnone, -⟩ := (h setup s).fault f hf
  rw [he] at hnone
  cases hnone

/-- What is run with an error line runs like an operation followed by what is printed. -/
theorem orErrorLine_renders {x : Action α} {f : α → Console} {y : Action Console}
    (h : y setup s = (x >>= fun a => Pure.pure (f a)) setup s)
    (calm : ∀ fault, (x setup s).result ≠ .error (.fault fault)) :
    ∃ console, orErrorLine y setup s = ⟨.ok console, (x setup s).state, (x setup s).effects⟩ ∧
      Console.Renders f (x setup s).result console := by
  have attempted : attempt y setup s = attempt (x >>= fun a => Pure.pure (f a)) setup s := by
    simp only [attempt, h]
  rw [orErrorLine, bind_congr_run attempted, bind_run]
  simp only [attempt]
  rcases hx : (x setup s).result with (e | fault) | a
  · rw [bind_run_error hx]
    exact ⟨.ofError e, by simp, .failed e⟩
  · exact absurd hx (calm fault)
  · rw [bind_run_ok hx]
    exact ⟨f a, by simp, .value a⟩

/-! ## Snippets -/

theorem language_ne_text {file language : String} (h : Language.choose none file = .ok language) :
    language ≠ "text" := by
  have all : ∀ p ∈ Language.suffixes, p.2 ≠ "text" := by decide
  rw [show Language.choose none file = Language.detect file from rfl, Language.detect] at h
  split at h
  · rename_i found hf
    cases h
    exact all _ (Table.mem_of_get? hf)
  · cases h

variable {path file : String} (hf : fileOf? setup path = some file) (hs : s.index.cache = [])

include hf hs

/-- A file that is parsed into an empty index is its entry then, in the language of its suffix. -/
theorem document_fresh {d : Document} (h : (document path none none setup s).result = .ok d) :
    (document path none none setup s).state.index.cache.get? file = some d ∧ d.language ≠ "text" := by
  rw [document_run_miss hf (by rw [hs]; rfl)] at h ⊢
  obtain ⟨-, -, -, hc⟩ := parse_ok h
  refine ⟨by rw [hc, Table.get?_insert, if_pos rfl], ?_⟩
  cases hp : (prepare file none none setup s).result with
  | error e =>
    rw [parse_run_error hp] at h
    cases h
  | ok p =>
    rw [parse_run_ok hp] at h
    cases h
    have chosen := (prepare_ok hp).chosen
    exact language_ne_text chosen

/-- Where a snippet is looked for, its file is in the cache. -/
theorem enclosing_fresh {p : Point} {text : Option String}
    (h : (enclosing path p setup s).result = .ok text) :
    ∃ d, (enclosing path p setup s).state.index.cache.get? file = some d ∧ d.language ≠ "text" := by
  obtain ⟨d, hd, -⟩ := of_bind_result_ok h
  have hindex : (enclosing path p setup s).state.index =
      (document path none none setup s).state.index := leads_enclosing path p
  rw [hindex]
  exact ⟨d, document_fresh hf hs hd⟩

omit hs in
theorem enclosingConsole_run {p : Point} {text : String} {d : Document}
    (h : (enclosing path p setup s).result = .ok (some text))
    (hd : (enclosing path p setup s).state.index.cache.get? file = some d) :
    enclosingConsole path p setup s = ⟨.ok (.ofText text d.language),
      (enclosing path p setup s).state, (enclosing path p setup s).effects⟩ := by
  rw [enclosingConsole, bind_run_ok h]
  dsimp only
  rw [bind_run, entry_run hf, hd]
  simp

/-- With the language of the entry, a snippet is printed like the value of any other operation. -/
theorem enclosingConsole_eq (p : Point) :
    ∃ language, enclosingConsole path p setup s =
        (enclosing path p >>= fun text => Pure.pure (Console.ofSnippet language text)) setup s ∧
      ∀ text, (enclosing path p setup s).result = .ok (some text) →
        ∃ d, (enclosing path p setup s).state.index.cache.get? file = some d ∧
          d.language = language ∧ d.language ≠ "text" := by
  rcases hx : (enclosing path p setup s).result with e | _ | text
  · exact ⟨"", by rw [enclosingConsole, bind_run_error hx, bind_run_error hx], nofun⟩
  · exact ⟨"", by rw [enclosingConsole, bind_run_ok hx, bind_run_ok hx]; rfl, nofun⟩
  · obtain ⟨d, hd, hne⟩ := enclosing_fresh hf hs hx
    refine ⟨d.language, ?_, fun _ _ => ⟨d, hd, rfl, hne⟩⟩
    rw [enclosingConsole_run hf hx hd, bind_run_ok hx]
    simp [Console.ofSnippet]

end Action

/-! ## Commands -/

theorem Console.ofCaptures_eq (cs : List Capture) :
    Console.ofCaptures cs = ⟨0, [.table ["capture", "text", "start", "end"]
        (cs.map fun c => [c.name, c.text, rowColumn c.start, rowColumn c.stop]),
      .line ("(" ++ toString cs.length ++ " rows)")], []⟩ := by
  rw [ofCaptures, table, List.length_map]
  rfl

theorem Console.ofElements_eq (es : List Element) :
    Console.ofElements es = ⟨0, [.table ["name", "type", "start", "end"]
        (es.map fun e => [e.name, e.kind, rowColumn e.start, rowColumn e.stop]),
      .line ("(" ++ toString es.length ++ " rows)")], []⟩ := by
  rw [ofElements, table, List.length_map]
  rfl

theorem Console.ofComparison_eq (showThin : Bool) (c : Comparison) :
    Console.ofComparison showThin c = ⟨0, countTable c ++ thinPart showThin c.thin, []⟩ := by
  have rows : "(" ++ toString 3 ++ " rows)" = "(3 rows)" := by decide
  simp only [ofComparison, table, countTable, List.length_cons, List.length_nil, rows]

section
variable {directory path : String} {console : Console}

theorem shown_search {query : String} {run : Run (List Capture)}
    (h : Console.Renders Console.ofCaptures run.result console) :
    Shown directory (.search path query) run console := by
  generalize hr : run.result = r at h
  cases h with
  | failed e => exact .failed hr
  | value cs =>
    rw [Console.ofCaptures_eq]
    exact .captures hr

theorem shown_elements {kind : String} {run : Run (List Element)}
    (h : Console.Renders Console.ofElements run.result console) :
    Shown directory (.elements path kind) run console := by
  generalize hr : run.result = r at h
  cases h with
  | failed e => exact .failed hr
  | value es =>
    rw [Console.ofElements_eq]
    exact .elements hr

theorem shown_analyze {language : Option String} {showThin : Bool} {run : Run Comparison}
    (h : Console.Renders (Console.ofComparison showThin) run.result console) :
    Shown directory (.analyze path language showThin) run console := by
  generalize hr : run.result = r at h
  cases h with
  | failed e => exact .failed hr
  | value c =>
    rw [Console.ofComparison_eq]
    cases showThin with
    | false =>
      rw [Console.thinPart, List.append_nil]
      · exact .comparison hr nofun
      · exact nofun
    | true =>
      cases ht : c.thin with
      | none => exact .comparison hr fun _ => ht
      | some t => exact .thin hr ht

end

namespace Action

variable {setup : Setup} {s : State} {e : Encoding} {path : String}

/-- Each command on an empty index, which is made without options. -/
theorem runCommand_shown (available : setup.vocabulary? setup.settings.encoding = some e)
    (noNul : Path.hasNul path = false) {command : Command} (about : command.path? = some path)
    (hs : s.index = {}) :
    ∃ (α : Type) (x : Action α) (console : Console), command.Operation x ∧
      (runCommand command setup.plain s).result = .ok console ∧
      Shown setup.directory command (x setup.plain s) console ∧
      (runCommand command setup.plain s).SameTraces (x setup.plain s) := by
  have he : setup.plain.encoding? = some e := available
  have hf : fileOf? setup.plain path = some (Path.canonical setup.directory path) := by
    rw [fileOf?, noNul]
    rfl
  cases command with
  | serve transport host port => cases about
  | search path query =>
    cases about
    obtain ⟨console, hrun, renders⟩ := orErrorLine_renders (s := s) (x := captures path query)
      (f := .ofCaptures) rfl ((calm_captures noNul query).no_fault he s)
    refine ⟨_, _, console, .search path query, ?_⟩
    rw [runCommand, hrun]
    exact ⟨rfl, shown_search renders, rfl, rfl, rfl⟩
  | elements path kind =>
    cases about
    obtain ⟨console, hrun, renders⟩ := orErrorLine_renders (s := s) (x := elements path kind)
      (f := .ofElements) rfl ((calm_elements noNul kind).no_fault he s)
    refine ⟨_, _, console, .elements path kind, ?_⟩
    rw [runCommand, hrun]
    exact ⟨rfl, shown_elements renders, rfl, rfl, rfl⟩
  | snippet path row column =>
    cases about
    obtain ⟨language, same, hentry⟩ := enclosingConsole_eq hf (by rw [hs]) ⟨row, column⟩
    obtain ⟨console, hrun, renders⟩ := orErrorLine_renders same
      ((calm_enclosing noNul ⟨row, column⟩).no_fault he s)
    refine ⟨_, _, console, .snippet path row column, ?_⟩
    rw [runCommand, hrun]
    refine ⟨rfl, ?_, rfl, rfl, rfl⟩
    generalize hr : (enclosing path ⟨row, column⟩ setup.plain s).result = r at renders hentry
    cases renders with
    | failed e => exact .failed hr
    | value text =>
      cases text with
      | none => exact .nothing hr
      | some text =>
        obtain ⟨d, hd, rfl, hne⟩ := hentry text rfl
        exact .snippet hr hd hne
  | analyze path language showThin =>
    cases about
    have counting : Counting setup.plain environmentEncoding := counting_environmentEncoding available
    obtain ⟨-, state, vocabularies⟩ := counting s
    have hresult : (environmentEncoding setup.plain s).result = .ok e := by
      rw [environmentEncoding_result]
      simp [Setup.plain, available]
    -- the encoding that is taken first is the one that the operation would take
    have agree : Setup.Agrees { setup.plain with encoding := some e } setup.plain :=
      ⟨rfl, rfl, rfl, ⟨e, rfl⟩, ⟨e, he⟩⟩
    have alike := blind_comparison agree rfl he path language none _ _ state.symm
    have calm (fault : Fault) : (comparison path language none { setup.plain with encoding := some e }
        (environmentEncoding setup.plain s).state).result ≠ .error (.fault fault) :=
      (calm_comparison noNul language none).no_fault rfl _ fault
    obtain ⟨console, hrun, renders⟩ := orErrorLine_renders (f := .ofComparison showThin) rfl calm
    refine ⟨_, _, console, .analyze path language showThin, ?_⟩
    rw [runCommand, bind_run_ok hresult]
    simp only [under]
    rw [hrun]
    refine ⟨rfl, shown_analyze ?_, alike.state.disk, alike.state.loads, ?_⟩
    · rwa [← alike.result.eq]
    · rw [List.filter_append, Effects.filter_isPlain_eq_nil vocabularies, List.nil_append,
        alike.effects.plain]

theorem drawAll_run (outputs : List Output) (setup : Setup) (s : State) :
    ∃ images refusal, Drawn setup.draw outputs images refusal ∧
      drawAll outputs setup s =
        ⟨match refusal with
          | none => .ok ()
          | some f => .error (.fault f), s, images.map .shown⟩ := by
  induction outputs with
  | nil => exact ⟨[], none, .all, rfl⟩
  | cons output outputs ih =>
    rw [drawAll, setup_bind_run]
    cases hd : setup.draw output with
    | error f => exact ⟨[], some f, .refused hd, rfl⟩
    | ok image =>
      obtain ⟨images, refusal, drawn, hrun⟩ := ih
      refine ⟨image :: images, refusal, .seen hd drawn, ?_⟩
      have shown : emit (.shown image) setup s = ⟨.ok (), s, [.shown image]⟩ := rfl
      dsimp only
      rw [bind_run, shown]
      dsimp only
      rw [hrun]
      rfl

/-- A command line that asks for a command carries it out, and draws what it prints. -/
theorem commandLine_run {arguments : List String} {command : Command} {console : Console}
    (asked : Command.Asked arguments command)
    (level : Settings.levels.contains setup.settings.logLevel = true)
    (done : (runCommand command setup.plain { s with index := {} }).result = .ok console) :
    let run := runCommand command setup.plain { s with index := {} }
    ∃ images refusal, Drawn setup.draw console.printed images refusal ∧
      commandLine arguments setup s =
        ⟨match refusal with
          | none => .ok console
          | some f => .error (.fault f),
          { run.state with index := s.index }, run.effects ++ images.map .shown⟩ := by
  intro run
  obtain ⟨name, rest, hselect, hcommand⟩ := asked
  have checked : checkLevel setup s = ⟨.ok (), s, []⟩ := by
    rw [checkLevel, setup_bind_run, if_pos level]
    rfl
  have fresh : onFreshIndex (under (fun setup => setup.plain) (runCommand command)) setup s =
      ⟨.ok console, { run.state with index := s.index }, run.effects⟩ := by
    rw [← done]
    rfl
  obtain ⟨images, refusal, drawn, hdraw⟩ :=
    drawAll_run console.printed setup { run.state with index := s.index }
  refine ⟨images, refusal, drawn, ?_⟩
  have hrun : commandLine arguments setup s =
      (onFreshIndex (under (fun setup => setup.plain) (runCommand command)) >>= fun console =>
        drawAll console.printed >>= fun _ => Pure.pure console) setup s := by
    rw [commandLine, hselect]
    dsimp only
    rw [bind_run, checked, hcommand]
    rfl
  rw [hrun, bind_run, fresh]
  dsimp only
  rw [bind_pure_run, hdraw]
  cases refusal <;> rfl

end Action

/-- In any state, for all arguments that ask for one of the commands on a file, with an encoding that the
environment names, a level that the log has, and a path without U+0000: the command behaves as its
operation on an empty index that is made without options.

* An error of the operation is handed to the terminal in one line, with exit status 1. Otherwise its value is:
  with exit status 1 if there is no snippet, and 0 in all other cases.
* The outputs are drawn in their order. The command ends with its exit status if the terminal draws them all,
  and otherwise in the fault of the first that it refuses. What is seen is what the terminal makes of them.
* Disk, loader calls, file reads and log lines are those of the operation.
* The present index is left as it was. -/
theorem command_shows {setup : Setup} {arguments : List String} {command : Command} {path : String}
    {e : Encoding} (asked : Command.Asked arguments command) (about : command.path? = some path)
    (noNul : Path.hasNul path = false)
    (available : setup.vocabulary? setup.settings.encoding = some e)
    (level : Settings.levels.contains setup.settings.logLevel = true) (s : State) :
    ∃ (α : Type) (x : Action α) (console : Console) (images : List Output) (refusal : Option Fault),
      command.Operation x ∧
      let run := Action.commandLine arguments setup s
      let alone := x setup.plain { s with index := {} }
      Shown setup.directory command alone console ∧
      Drawn setup.draw console.printed images refusal ∧
      (run.result = match refusal with
        | none => .ok console
        | some f => .error (.fault f)) ∧
      run.SameTraces { alone with effects := alone.effects ++ images.map .shown } ∧
      run.state.index = s.index := by
  obtain ⟨α, x, console, operation, hresult, shown, traces⟩ :=
    Action.runCommand_shown available noNul about (s := { s with index := {} }) rfl
  obtain ⟨images, refusal, drawn, hrun⟩ := Action.commandLine_run asked level hresult
  refine ⟨α, x, console, images, refusal, operation, shown, drawn, ?_⟩
  rw [hrun]
  refine ⟨rfl, ⟨traces.disk, traces.loads, ?_⟩, rfl⟩
  dsimp only
  rw [List.filter_append, List.filter_append, traces.effects]

/-- A terminal that shows everything as it is. -/
theorem Drawn.faithful {outputs images : List Output} {refusal : Option Fault}
    (h : Drawn .ok outputs images refusal) : images = outputs ∧ refusal = none := by
  induction h with
  | all => exact ⟨rfl, rfl⟩
  | refused hd => cases hd
  | seen hd _ ih =>
    cases hd
    exact ⟨by rw [ih.1], ih.2⟩

/-- The only character of a file is its snippet, in the language of the suffix. -/
theorem command_shows_snippet :
    let root : Node := .node ⟨0, "module", true, 0, 1, ⟨0, 0⟩, ⟨0, 1⟩, none⟩ []
    let engine : Engine := ⟨fun name _ => .ok ⟨name⟩, fun _ _ => some ⟨root, true, true, []⟩,
      fun _ _ => none⟩
    let setup := { plainSetup "gpt2" with engine := engine }
    let s : State := { world := { disk := [("/a.py", .file [120])] } }
    let run := Action.commandLine ["snippet", "a.py", "0", "0"] setup s
    run.result = .ok ⟨0, [.code "x" "python"], []⟩ ∧ run.state.index = s.index := by
  intro root engine setup s run
  have asked : Command.Asked ["snippet", "a.py", "0", "0"] (.snippet "a.py" 0 0) :=
    ⟨.snippet, ["a.py", "0", "0"], by decide +kernel, by decide +kernel⟩
  have available : setup.vocabulary? setup.settings.encoding = some .bytes := rfl
  obtain ⟨α, x, console, images, refusal, operation, shown, drawn, hresult, -, hindex⟩ :=
    command_shows asked rfl (by decide) available (by decide) s
  refine ⟨?_, hindex⟩
  obtain ⟨-, rfl⟩ := Drawn.faithful drawn
  rw [hresult]
  cases operation
  have htext : (Action.enclosing "a.py" ⟨0, 0⟩ setup.plain { s with index := {} }).result.toOption =
      some (some "x") := by decide +kernel
  have hlanguage : ((Action.enclosing "a.py" ⟨0, 0⟩ setup.plain
      { s with index := {} }).state.index.cache.get? "/a.py").map Document.language =
        some "python" := by decide +kernel
  cases shown with
  | failed hr =>
    rw [hr] at htext
    cases htext
  | nothing hr =>
    rw [hr] at htext
    cases htext
  | snippet hr hd _ =>
    rw [hr] at htext
    have hfile : Path.canonical setup.directory "a.py" = "/a.py" := by decide
    rw [hfile] at hd
    rw [hd] at hlanguage
    cases htext
    rw [Option.some.inj hlanguage]

/-- Reads simple markup: a tag in brackets is not seen, and a closing tag must have an open one of its name.
`tag?` is what has been read of a tag, last character first. -/
def markup (opened : List (List Char)) (position : Nat) :
    (tag? : Option (List Char)) → List Char → Except Fault (List Char)
  | _, [] => .ok []
  | none, c :: cs =>
    if c = '[' then markup opened (position + 1) (some []) cs
    else (markup opened (position + 1) none cs).map (c :: ·)
  | some tag, c :: cs =>
    if c = ']' then
      match tag.reverse with
      | '/' :: name =>
        if opened.contains name then markup (opened.erase name) (position + 1) none cs
        else .error (.badMarkup ("closing tag '[/" ++ String.ofList name ++ "]' at position " ++
          toString (position - tag.length - 1) ++ " doesn't match any open tag"))
      | name => markup (name :: opened) (position + 1) none cs
    else markup opened (position + 1) (some (c :: tag)) cs

/-- A terminal that reads the markup in lines, and shows all else as it is. -/
def drawMarkup : Output → Except Fault Output
  | .line text => (markup [] 0 none text.toList).map fun seen => .line (String.ofList seen)
  | output => .ok output

/-- What an effect lets be seen. -/
def Effect.image? : Effect → Option Output
  | .shown image => some image
  | .read _ | .load _ | .vocabulary _ | .log _ | .event _ => none

/-- The message of an error is read as markup with the rest of its line. A path with a word in brackets is seen
without it, and one with a closing tag lets the command end in a fault. -/
theorem error_line_unseen :
    let setup := { plainSetup "gpt2" with draw := drawMarkup }
    let command := fun path => Action.commandLine ["search", path, "(identifier) @x"] setup {}
    let alone := fun path => (Action.captures path "(identifier) @x" setup.plain {}).result
    let message := fun path : String => "File not found at path: " ++ path ++
      ". Please ensure you are using an absolute path to the file."
    (∃ e, alone "/virtual/[id].js" = .error (.error e) ∧ e.message = message "/virtual/[id].js") ∧
      (command "/virtual/[id].js").effects.filterMap Effect.image? =
        [.line ("Error: " ++ message "/virtual/.js")] ∧
      (∃ e, alone "/virtual/[/b].js" = .error (.error e) ∧ e.message = message "/virtual/[/b].js") ∧
      (command "/virtual/[/b].js").result = .error (.fault
        (.badMarkup "closing tag '[/b]' at position 51 doesn't match any open tag")) := by
  intro setup command alone message
  have missing (path : String) : (Error.unreadable path .missing).message = message path := rfl
  exact ⟨⟨_, by decide +kernel, missing _⟩, by decide +kernel, ⟨_, by decide +kernel, missing _⟩,
    by decide +kernel⟩

end CodeIndex
