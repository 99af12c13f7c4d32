import CodeIndex.Proofs.Action.Outcome
import CodeIndex.Proofs.Json.Compact
import CodeIndex.Tool.Boundary

/-!
# CodeIndex.Proofs.Tool.Boundary

Which requests are answered and reported, and which end without either.

* `Served`: an answer is returned, and one event on it is handed to the sink, after everything else.
* `Dropped`: the request ends in a fault, and no event is handed to the sink.
* `Request.HasNul`, `Request.WantsEncoding`, `Setup.Takes`: what a request is dropped for.
* `report_returns`, `request_run_counted`: what a report does, and a request that gets as far as to its report.
* `request_outcomes`: every request is served or dropped for one of these.
-/

namespace CodeIndex

/-- The request that a call makes, if there is the tool and its arguments fit. -/
def Request.ofCall? (name : String) (arguments : Table Value) : Option Request :=
  match Tool.named? name with
  | none => none
  | some tool =>
    match tool.request arguments with
    | .ok request => some request
    | .error _ => none

def Request.path? : Request → Option String
  | .loadLanguages _ => none
  | .reparse path _ _ | .captures path _ | .elements path _ | .enclosing path _
  | .comparison path _ _ => some path

def Request.HasNul (r : Request) : Prop := ∃ path, r.path? = some path ∧ Path.hasNul path = true

/-- There is a text to count the tokens of, after the request or in it, and no encoding. An error has
no tokens. -/
def Request.WantsEncoding (r : Request) (setup : Setup) (s : State) : Prop :=
  setup.encoding? = none ∧
    match (r.run setup s).result with
    | .ok answer => answer ≠ .text ""
    | .error (.error _) => False
    | .error (.fault _) => True

namespace Setup

/-- The sink takes an event with these arguments: a log that is switched on has room for them. -/
def Takes (setup : Setup) (arguments : Table Value) : Prop :=
  setup.sink = .log → setup.settings.usageLog = true →
    (Value.obj arguments).levels ≤ setup.room

instance (setup : Setup) (arguments : Table Value) : Decidable (setup.Takes arguments) :=
  inferInstanceAs (Decidable (_ → _ → _))

/-- What a sink does with an event that it takes. -/
def record (setup : Setup) (event : Usage) : List Effect :=
  match setup.sink with
  | .listener => [.event event]
  | .log => (event.notices setup.settings.usageLog).map .log

/-- What handing an event to the sink does. -/
def delivered (setup : Setup) (event : Usage) : List Effect :=
  if setup.Takes event.arguments then setup.record event else []

/-- What is returned after an event with these arguments: a value, or the fault of a sink that does not
take the event. -/
def returned {α : Type} (setup : Setup) (arguments : Table Value) (a : α) : Except Failure α :=
  if setup.Takes arguments then .ok a else .error (.fault Usage.tooDeep)

/-- What the sink does with an event, it does with nothing but this event. -/
theorem eq_of_mem_delivered {setup : Setup} {event : Usage} {effect : Effect}
    (h : effect ∈ setup.delivered event) : effect = .event event ∨ effect = .log (.usage event) := by
  unfold delivered at h
  split at h
  · unfold record Usage.notices at h
    split at h
    · exact .inl (List.mem_singleton.mp h)
    · split at h
      · exact .inr (List.mem_singleton.mp h)
      · cases h
  · cases h

end Setup

/-- Null, in so many arrays. -/
def Value.nested : Nat → Value
  | 0 => .null
  | n + 1 => .arr [nested n]

theorem Value.levels_nested (n : Nat) : (nested n).levels = n := by
  induction n with
  | zero => rfl
  | succ n ih => simp [nested, levels, levelsItems, ih, Nat.add_comm]

/-- However much room there is, some arguments are nested deeper. -/
theorem Setup.not_takes_nested {setup : Setup} (log : setup.sink = .log)
    (enabled : setup.settings.usageLog = true) (key : String) {n : Nat} (deep : setup.room ≤ n) :
    ¬setup.Takes [(key, .nested n)] := by
  intro takes
  have room := takes log enabled
  simp only [Value.levels, Value.levelsFields, Value.levels_nested] at room
  omega

def Served (setup : Setup) (name : String) (arguments : Table Value) (run : Run Answer) : Prop :=
  ∃ answer event before, run.result = .ok answer ∧ run.effects = before ++ setup.record event ∧
    (∀ effect ∈ before, effect.usage? = none) ∧
    event.tool = name ∧ event.arguments = arguments ∧ event.failed = answer.isError ∧
    event.error = answer.errorText?

def Dropped (f : Fault) (run : Run Answer) : Prop :=
  run.result = .error (.fault f) ∧ ∀ effect ∈ run.effects, effect.usage? = none

/-! ## The answers of tools -/

/-- A text or some data, which is not null. -/
inductive Answer.Regular : Answer → Prop where
  | text (s : String) : Regular (.text s)
  | items (vs : List Value) : Regular (.structured (.arr vs))
  | fields (fs : List (String × Value)) : Regular (.structured (.obj fs))

namespace Action

variable {setup : Setup} {s : State}

theorem request_run_ends {r : Request} (h : ¬r.HasNul) : Ends Answer.Regular r.run := by
  have hpath : ∀ path, r.path? = some path → Path.hasNul path = false := by
    intro path hp
    cases hn : Path.hasNul path with
    | false => rfl
    | true => exact absurd ⟨path, hp, hn⟩ h
  cases r with
  | loadLanguages languages =>
    exact .bind (calm_loadTogether languages) fun _ _ => .pure (.text _)
  | reparse path language content =>
    exact .bind (calm_reparse (hpath _ rfl) language content) fun _ _ => .pure (.text _)
  | captures path query => exact .bind (calm_captures (hpath _ rfl) query) fun _ _ => .pure (.items _)
  | elements path kind => exact .bind (calm_elements (hpath _ rfl) kind) fun _ _ => .pure (.items _)
  | enclosing path point => exact .bind (calm_enclosing (hpath _ rfl) point) fun _ _ => .pure (.text _)
  | comparison path language content =>
    exact .bind (calm_comparison (hpath _ rfl) (some language) content) fun _ _ => .pure (.fields _)

theorem request_run_of_hasNul {r : Request} (h : r.HasNul) :
    r.run setup s = ⟨.error (.fault .nullByte), s, []⟩ := by
  obtain ⟨path, hp, hn⟩ := h
  have hfile : fileOf? setup path = none := by rw [fileOf?, if_pos hn]
  have hdocument : ∀ language content,
      document path language content setup s = ⟨.error (.fault .nullByte), s, []⟩ :=
    fun _ _ => document_run_none hfile
  cases r with
  | loadLanguages languages => cases hp
  | reparse path' language content =>
    cases hp
    rw [Request.run, bind_run, reparse_run_none hfile]
  | captures path' query =>
    cases hp
    rw [Request.run, bind_run, captures, bind_run, hdocument]
  | elements path' kind =>
    cases hp
    rw [Request.run, bind_run, elements, bind_run, hdocument]
  | enclosing path' point =>
    cases hp
    rw [Request.run, bind_run, enclosing, bind_run, hdocument]
  | comparison path' language content =>
    cases hp
    rw [Request.run, bind_run, comparison, bind_run, hdocument]

/-! ## Counting an answer -/

theorem calm_partTokens (part : Part) : Calm (partTokens part) := by
  unfold partTokens
  split
  · exact calm_tokensOf _
  · exact .pure trivial
  · exact calm_tokensOf _
  · exact .pure trivial

theorem calm_answerTokens (parts : List Part) : Calm (answerTokens parts) := by
  induction parts with
  | nil => exact .pure trivial
  | cons part parts ih =>
    exact .bind (calm_partTokens part) fun _ _ => .bind ih fun _ _ => .pure trivial

theorem partTokens_of_some {e : Encoding} (h : setup.encoding? = some e) (part : Part) :
    ∃ n, (partTokens part setup s).result = .ok n := by
  unfold partTokens
  split
  · exact ⟨_, tokensOf_of_some h _ _⟩
  · exact ⟨0, rfl⟩
  · exact ⟨_, tokensOf_of_some h _ _⟩
  · exact ⟨0, rfl⟩

theorem answerTokens_of_some {e : Encoding} (h : setup.encoding? = some e) (parts : List Part) :
    ∃ n, (answerTokens parts setup s).result = .ok n := by
  induction parts generalizing s with
  | nil => exact ⟨0, rfl⟩
  | cons part parts ih =>
    obtain ⟨n, hn⟩ := partTokens_of_some (s := s) h part
    obtain ⟨k, hk⟩ := ih (s := (partTokens part setup s).state)
    refine ⟨n + k, ?_⟩
    rw [answerTokens, bind_result_ok hn, bind_result_ok hk]
    rfl

theorem answerTokens_error (message : String) :
    (answerTokens (Answer.error message).parts setup s).result = .ok 0 := rfl

theorem answerTokens_empty : (answerTokens (Answer.text "").parts setup s).result = .ok 0 := rfl

theorem compact_ne_empty {v : Value} (h : Json.text .compact v ≠ []) : Json.compact v ≠ "" := by
  rw [Json.compact_eq]
  intro he
  have hl := congrArg String.toList he
  rw [String.toList_ofList] at hl
  exact h hl

theorem answerTokens_of_none (h : setup.encoding? = none) {answer : Answer} (regular : answer.Regular)
    (hne : answer ≠ .text "") :
    (answerTokens answer.parts setup s).result =
      .error (.fault (.unknownEncoding setup.settings.encoding)) := by
  have one : ∀ part text, partTokens part = tokensOf text → text ≠ "" →
      (answerTokens [part] setup s).result =
        .error (.fault (.unknownEncoding setup.settings.encoding)) := by
    intro part text hp ht
    rw [answerTokens, hp, bind_result_error (tokensOf_of_none h ht s)]
  cases regular with
  | text t =>
    refine one _ t rfl ?_
    rintro rfl
    exact hne rfl
  | items vs => exact one _ _ rfl (compact_ne_empty (by simp [Json.text]))
  | fields fs => exact one _ _ rfl (compact_ne_empty (by simp [Json.text]))

/-! ## Reports -/

theorem logAll_run (notices : List Notice) :
    logAll notices setup s = ⟨.ok (), s, notices.map .log⟩ := by
  induction notices with
  | nil => rfl
  | cons notice notices ih =>
    have hfirst : (log notice setup s).result = .ok () := rfl
    rw [logAll, bind_run_ok hfirst]
    change Run.mk (logAll notices setup s).result (logAll notices setup s).state
      ([.log notice] ++ (logAll notices setup s).effects) = _
    rw [ih]
    rfl

theorem report_run (event : Usage) :
    report event setup s = ⟨setup.returned event.arguments (), s, setup.delivered event⟩ := by
  rw [report, setup_bind_run]
  unfold Setup.returned Setup.delivered
  by_cases takes : setup.Takes event.arguments
  · rw [if_pos takes, if_pos takes, Setup.record]
    cases hs : setup.sink with
    | listener => rfl
    | log =>
      have roomy : ¬(setup.settings.usageLog = true ∧ setup.room < event.levels) := fun full =>
        Nat.not_le_of_lt full.2 (takes hs full.1)
      dsimp only
      rw [if_neg roomy]
      exact logAll_run _
  · have full : setup.sink = .log ∧ setup.settings.usageLog = true ∧ setup.room < event.levels := by
      simpa [Setup.Takes, Usage.levels] using takes
    rw [if_neg takes, if_neg takes, full.1]
    dsimp only
    rw [if_pos full.2]
    rfl

/-- A report, and what is returned after it. -/
theorem report_returns {α : Type} (event : Usage) (a : α) :
    (report event >>= fun _ => Pure.pure a) setup s =
      ⟨setup.returned event.arguments a, s, setup.delivered event⟩ := by
  rw [bind_run, report_run]
  by_cases takes : setup.Takes event.arguments <;> simp [Setup.returned, takes]

/-! ## Requests -/

variable {name : String} {arguments : Table Value} {seconds : Float}

theorem answer_of_none (setup : Setup) (s : State) (h : Request.ofCall? name arguments = none) :
    ∃ message notices, answer name arguments setup s = ⟨.ok (.error message), s, notices⟩ ∧
      ∀ effect ∈ notices, effect.usage? = none := by
  unfold Request.ofCall? at h
  unfold answer
  cases ht : Tool.named? name with
  | none => exact ⟨_, [], rfl, by simp⟩
  | some tool =>
    rw [ht] at h
    dsimp only at h ⊢
    cases hr : tool.request arguments with
    | ok r =>
      rw [hr] at h
      cases h
    | error e =>
      have hrun : attempt (handle tool arguments) setup s = ⟨.ok (.error (.error (.argument e))), s, []⟩ := by
        rw [handle, hr]
        rfl
      refine ⟨_, [.log (.toolFailed name (.argument e))], by rw [bind_run, hrun]; rfl, ?_⟩
      simp [Effect.usage?]

theorem answer_of_request (setup : Setup) (s : State) {r : Request}
    (h : Request.ofCall? name arguments = some r) :
    answer name arguments setup s =
      match (r.run setup s).result with
      | .ok a => ⟨.ok a, (r.run setup s).state, (r.run setup s).effects⟩
      | .error (.error e) => ⟨.ok (.error e.message), (r.run setup s).state,
          (r.run setup s).effects ++ [.log (.toolFailed name e)]⟩
      | .error (.fault f) => ⟨.error (.fault f), (r.run setup s).state, (r.run setup s).effects⟩ := by
  unfold Request.ofCall? at h
  unfold answer
  cases ht : Tool.named? name with
  | none =>
    rw [ht] at h
    cases h
  | some tool =>
    rw [ht] at h
    dsimp only at h ⊢
    cases hr : tool.request arguments with
    | error e =>
      rw [hr] at h
      cases h
    | ok r' =>
      rw [hr] at h
      cases h
      have hrun : attempt (handle tool arguments) setup s =
          ⟨.ok (r.run setup s).result, (r.run setup s).state, (r.run setup s).effects⟩ := by
        rw [handle, hr]
        rfl
      rw [bind_run, hrun]
      rcases (r.run setup s).result with (e | f) | a
      · rfl
      · simp [fail]
      · simp

/-- A request that gets an answer and its tokens has nothing left to do but to report. -/
theorem request_run_counted {a : Answer} {n : Nat}
    (ha : (answer name arguments setup s).result = .ok a)
    (hn : (answerTokens a.parts setup (answer name arguments setup s).state).result = .ok n) :
    request name arguments seconds setup s =
      let counted := answerTokens a.parts setup (answer name arguments setup s).state
      ⟨setup.returned arguments a, counted.state,
        (answer name arguments setup s).effects ++ counted.effects ++
          setup.delivered ⟨name, arguments, a.isError, a.errorText?, seconds * 1000, n⟩⟩ := by
  rw [request, bind_run_ok ha, bind_run_ok hn, report_returns]
  simp

/-- There is an answer, with its tokens counted, and no event has been handed to the sink for it. -/
inductive Answered (setup : Setup) (s : State) (name : String) (arguments : Table Value) : Prop where
  | intro {a : Answer} {n : Nat} : (answer name arguments setup s).result = .ok a →
    (answerTokens a.parts setup (answer name arguments setup s).state).result = .ok n →
    (∀ effect ∈ (answer name arguments setup s).effects, effect.usage? = none) →
    Answered setup s name arguments

theorem Answered.request_run (h : Answered setup s name arguments) (seconds : Float) :
    ∃ (a : Answer) (n : Nat) (state : State) (before : List Effect),
      (∀ effect ∈ before, effect.usage? = none) ∧
      request name arguments seconds setup s = ⟨setup.returned arguments a, state,
        before ++ setup.delivered ⟨name, arguments, a.isError, a.errorText?, seconds * 1000, n⟩⟩ := by
  obtain ⟨ha, hn, unreported⟩ := h
  refine ⟨_, _, _, _, ?_, request_run_counted ha hn⟩
  intro effect hm
  rcases List.mem_append.mp hm with hm | hm
  · exact unreported effect hm
  · exact (calm_answerTokens _ setup _).unreported effect hm

theorem Answered.served (h : Answered setup s name arguments) (takes : setup.Takes arguments) :
    Served setup name arguments (request name arguments seconds setup s) := by
  obtain ⟨a, n, state, before, unreported, hrun⟩ := h.request_run seconds
  rw [hrun, Setup.returned, Setup.delivered, if_pos takes, if_pos takes]
  exact ⟨a, _, before, rfl, rfl, unreported, rfl, rfl, rfl, rfl⟩

theorem Answered.dropped (h : Answered setup s name arguments) (full : ¬setup.Takes arguments) :
    Dropped Usage.tooDeep (request name arguments seconds setup s) := by
  obtain ⟨a, n, state, before, unreported, hrun⟩ := h.request_run seconds
  rw [hrun, Setup.returned, Setup.delivered, if_neg full, if_neg full, List.append_nil]
  exact ⟨rfl, unreported⟩

theorem dropped_of_answer {f : Fault} (ha : (answer name arguments setup s).result = .error (.fault f))
    (hu : ∀ effect ∈ (answer name arguments setup s).effects, effect.usage? = none) :
    Dropped f (request name arguments seconds setup s) := by
  rw [request, bind_run_error ha]
  exact ⟨rfl, hu⟩

theorem dropped_of_tokens {a : Answer} {f : Fault}
    (ha : (answer name arguments setup s).result = .ok a)
    (hu : ∀ effect ∈ (answer name arguments setup s).effects, effect.usage? = none)
    (hf : (answerTokens a.parts setup (answer name arguments setup s).state).result =
      .error (.fault f)) :
    Dropped f (request name arguments seconds setup s) := by
  have ht := (calm_answerTokens a.parts setup (answer name arguments setup s).state).unreported
  rw [request, bind_run_ok ha, bind_run_error hf]
  refine ⟨rfl, fun effect hm => ?_⟩
  rcases List.mem_append.mp hm with hm | hm
  · exact hu effect hm
  · exact ht effect hm

theorem answered_of_none (h : Request.ofCall? name arguments = none) :
    Answered setup s name arguments := by
  obtain ⟨message, notices, ha, hu⟩ := answer_of_none setup s h
  have hok : (answer name arguments setup s).result = .ok (.error message) := by rw [ha]
  exact ⟨hok, answerTokens_error message, by rw [ha]; exact hu⟩

variable {r : Request} (h : Request.ofCall? name arguments = some r)

include h

theorem dropped_of_hasNul (hn : r.HasNul) :
    Dropped .nullByte (request name arguments seconds setup s) := by
  have ha := answer_of_request setup s h
  rw [request_run_of_hasNul hn] at ha
  exact dropped_of_answer (by rw [ha]) (by rw [ha]; simp)

theorem unreported_answer (setup : Setup) (s : State) (hn : ¬r.HasNul) :
    ∀ effect ∈ (answer name arguments setup s).effects, effect.usage? = none := by
  have ends := request_run_ends hn setup s
  intro effect hm
  rw [answer_of_request setup s h] at hm
  rcases hr : (r.run setup s).result with (e | f) | a <;> rw [hr] at hm
  · rcases List.mem_append.mp hm with hm | hm
    · exact ends.unreported effect hm
    · rw [List.mem_singleton.mp hm]
      rfl
  · exact ends.unreported effect hm
  · exact ends.unreported effect hm

theorem dropped_of_wantsEncoding (hn : ¬r.HasNul) (hw : r.WantsEncoding setup s) :
    Dropped (.unknownEncoding setup.settings.encoding) (request name arguments seconds setup s) := by
  obtain ⟨hnone, hw⟩ := hw
  have ends := request_run_ends hn setup s
  have ha := answer_of_request setup s h
  have hu := unreported_answer h setup s hn
  rcases hr : (r.run setup s).result with (e | f) | a <;> rw [hr] at ha hw
  · exact hw.elim
  · obtain ⟨-, rfl⟩ := ends.fault f hr
    exact dropped_of_answer (by rw [ha]) hu
  · exact dropped_of_tokens (by rw [ha]) hu (answerTokens_of_none hnone (ends.value a hr) hw)

theorem answered_of_some (hn : ¬r.HasNul) (hw : ¬r.WantsEncoding setup s) :
    Answered setup s name arguments := by
  have ends := request_run_ends hn setup s
  have ha := answer_of_request setup s h
  have hu := unreported_answer h setup s hn
  rcases hr : (r.run setup s).result with (e | f) | a <;> rw [hr] at ha
  · have hok : (answer name arguments setup s).result = .ok (.error e.message) := by rw [ha]
    exact ⟨hok, answerTokens_error _, hu⟩
  · have lacks := ends.fault f hr
    refine absurd ⟨lacks.1, ?_⟩ hw
    rw [hr]
    trivial
  · have hok : (answer name arguments setup s).result = .ok a := by rw [ha]
    cases he : setup.encoding? with
    | some e =>
      obtain ⟨n, hcount⟩ := answerTokens_of_some
        (s := (answer name arguments setup s).state) he a.parts
      exact ⟨hok, hcount, hu⟩
    | none =>
      -- only an answer without any text needs no encoding
      have hempty : a = .text "" := by
        by_contra hne
        refine hw ⟨he, ?_⟩
        rw [hr]
        exact hne
      subst hempty
      exact ⟨hok, answerTokens_empty, hu⟩

end Action

theorem Served.not_dropped {setup : Setup} {name : String} {arguments : Table Value}
    {run : Run Answer} (h : Served setup name arguments run) (f : Fault) : ¬Dropped f run := by
  obtain ⟨answer, -, -, hok, -⟩ := h
  rintro ⟨herror, -⟩
  rw [hok] at herror
  cases herror

theorem Dropped.not_served {f : Fault} {run : Run Answer} (h : Dropped f run) (setup : Setup)
    (name : String) (arguments : Table Value) : ¬Served setup name arguments run :=
  fun served => served.not_dropped f h

/-- A request is dropped for one fault only. -/
theorem Dropped.iff_eq {f : Fault} {run : Run Answer} (h : Dropped f run) (g : Fault) :
    Dropped g run ↔ g = f := by
  constructor
  · intro other
    have he := other.1.symm.trans h.1
    cases he
    rfl
  · rintro rfl
    exact h

/-- A request is answered and reported by one event, unless its path has the character U+0000, or
tokens would have to be counted and there is no encoding, or the sink does not take the event since its log
has no room for the arguments. What else may end a request is not described here: a working directory that has been
removed, a loop of symbolic links on the way to a file, surrogates without a partner in a text, keys of a nested
object that are no texts, integers with more digits than a log writes, and a listener that fails. -/
theorem request_outcomes (setup : Setup) (s : State) (name : String) (arguments : Table Value)
    (seconds : Float) :
    let run := Action.request name arguments seconds setup s
    let call := Request.ofCall? name arguments
    (Served setup name arguments run ↔
        (∀ r ∈ call, ¬r.HasNul ∧ ¬r.WantsEncoding setup s) ∧ setup.Takes arguments) ∧
      (Dropped .nullByte run ↔ ∃ r ∈ call, r.HasNul) ∧
      (Dropped (.unknownEncoding setup.settings.encoding) run ↔
        ∃ r ∈ call, ¬r.HasNul ∧ r.WantsEncoding setup s) ∧
      (Dropped Usage.tooDeep run ↔
        (∀ r ∈ call, ¬r.HasNul ∧ ¬r.WantsEncoding setup s) ∧ ¬setup.Takes arguments) := by
  intro run call
  -- with an answer and its tokens, all depends on the sink
  have answered (h : Action.Answered setup s name arguments) :
      (Served setup name arguments run ↔ setup.Takes arguments) ∧
        ∀ f, Dropped f run ↔ f = Usage.tooDeep ∧ ¬setup.Takes arguments := by
    by_cases takes : setup.Takes arguments
    · have served : Served setup name arguments run := h.served takes
      simp [served, served.not_dropped, takes]
    · have dropped : Dropped Usage.tooDeep run := h.dropped takes
      simp [dropped.not_served, dropped.iff_eq, takes]
  cases hc : Request.ofCall? name arguments with
  | none =>
    obtain ⟨served, dropped⟩ := answered (Action.answered_of_none hc)
    have hcall : call = none := hc
    simp [hcall, served, dropped, Usage.tooDeep]
  | some r =>
    have hcall : call = some r := hc
    simp only [hcall, Option.mem_some_iff, forall_eq', exists_eq_left']
    by_cases hn : r.HasNul
    · have dropped : Dropped .nullByte run := Action.dropped_of_hasNul hc hn
      simp [dropped.not_served, dropped.iff_eq, hn, Usage.tooDeep]
    · by_cases hw : r.WantsEncoding setup s
      · have dropped : Dropped (.unknownEncoding setup.settings.encoding) run :=
          Action.dropped_of_wantsEncoding hc hn hw
        simp [dropped.not_served, dropped.iff_eq, hn, hw, Usage.tooDeep]
      · obtain ⟨served, dropped⟩ := answered (Action.answered_of_some hc hn hw)
        simp [served, dropped, hn, hw, Usage.tooDeep]

/-- A setup without an encoding of its own. -/
def plainSetup (encoding : String) : Setup where
  engine := ⟨fun name _ => .ok ⟨name⟩, fun _ _ => none, fun _ _ => none⟩
  directory := "/"
  settings := ⟨"WARNING", encoding, true⟩
  vocabulary? := Table.get? [("cl100k_base", .quarter), ("gpt2", .bytes)]
  encoding := none
  blocks := []
  sink := .listener
  room := 1000
  draw := .ok

/-- Not every request is served, whatever the environment names. -/
theorem dropped_requests :
    Dropped .nullByte
        (Action.request "parse_file" [("path", .str "a\x00.py")] 0 (plainSetup "cl100k_base") {}) ∧
      Dropped (.unknownEncoding "nope")
        (Action.request "initialize_treesitter_context" [("languages", .arr [])] 0
          (plainSetup "nope") {}) := by
  have hparse : Request.ofCall? "parse_file" [("path", .str "a\x00.py")] =
      some (.reparse "a\x00.py" none none) := rfl
  have hload : Request.ofCall? "initialize_treesitter_context" [("languages", .arr [])] =
      some (.loadLanguages []) := rfl
  have hrun : ((Request.loadLanguages []).run (plainSetup "nope") {}).result = .ok (.text
      "Successfully initialized Tree-sitter context and loaded grammars for: .") := rfl
  constructor
  · exact Action.dropped_of_hasNul hparse ⟨_, rfl, by decide⟩
  · refine Action.dropped_of_wantsEncoding hload ?_ ⟨by decide, ?_⟩
    · rintro ⟨path, hp, -⟩
      cases hp
    · rw [hrun]
      simp [Answer.text]

end CodeIndex
