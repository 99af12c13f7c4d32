import CodeIndex.Proofs.Action.Alike
import CodeIndex.Session

/-!
# CodeIndex.Proofs.Session.Indifference

Settings of the log, encodings and sinks do not influence what a session does, nor what it answers where the
sinks take the events.

* `Run.Counted`: a run gives a value, takes vocabularies at most, and leaves the rest as it was. Counting
  tokens has such runs, and so its runs are alike whatever is counted under which encoding.
* `Answer.Agrees`, `Reply.Agrees`: the same, but for the numbers of tokens in a comparison.
* `related_request`, `Step.related_run`: requests and steps under setups that agree. What they answer is
  compared where both sinks take the event.
* `sessions_agree`: whole sessions, step for step. `switch_shows`: where a sink does not take its event.
-/

namespace CodeIndex

variable {α β : Type}

/-! ## Counting -/

structure Run.Counted (s : State) (r : Run α) : Prop where
  value : ∃ a, r.result = .ok a
  state : s.Agrees r.state
  vocabularies : ∀ effect ∈ r.effects, ∃ name, effect = .vocabulary name

namespace Effects

variable {es fs : List Effect}

theorem filter_isPlain_eq_nil (h : ∀ effect ∈ es, ∃ name, effect = .vocabulary name) :
    es.filter Effect.isPlain = [] := by
  rw [List.filter_eq_nil_iff]
  intro effect hm
  obtain ⟨name, rfl⟩ := h effect hm
  exact nofun

theorem unreported_of_vocabularies (h : ∀ effect ∈ es, ∃ name, effect = .vocabulary name) :
    ∀ effect ∈ es, effect.usage? = none := by
  intro effect hm
  obtain ⟨name, rfl⟩ := h effect hm
  rfl

theorem Agree.vocabularies {a b : Setup} (h : ∀ effect ∈ es, ∃ name, effect = .vocabulary name)
    (h' : ∀ effect ∈ fs, ∃ name, effect = .vocabulary name) : Agree a b es fs where
  plain := by rw [filter_isPlain_eq_nil h, filter_isPlain_eq_nil h']
  reports := ⟨[], [], .nil, filter_isReport_eq_nil (unreported_of_vocabularies h),
    filter_isReport_eq_nil (unreported_of_vocabularies h')⟩

end Effects

namespace Action

variable {a b setup : Setup}

/-- Counts in every state. -/
def Counting (setup : Setup) (x : Action α) : Prop := ∀ s, (x setup s).Counted s

namespace Counting

protected theorem pure (u : α) : Counting setup (Pure.pure u : Action α) :=
  fun s => ⟨⟨u, rfl⟩, .refl s, by simp⟩

protected theorem bind {x : Action α} {f : α → Action β} (hx : Counting setup x)
    (hf : ∀ u, Counting setup (f u)) : Counting setup (x >>= f) := by
  intro s
  obtain ⟨⟨u, hu⟩, state, vocabularies⟩ := hx s
  obtain ⟨value, state', vocabularies'⟩ := hf u (x setup s).state
  rw [bind_run_ok hu]
  refine ⟨value, state.trans state', fun effect hm => ?_⟩
  rcases List.mem_append.mp hm with hm | hm
  · exact vocabularies effect hm
  · exact vocabularies' effect hm

/-- Counting comes out alike, but for the numbers. -/
theorem related {x : Action α} {y : Action β} (hx : Counting a x) (hy : Counting b y) :
    Related a b (fun _ _ => True) x y := by
  intro s t hs
  obtain ⟨⟨u, hu⟩, state, vocabularies⟩ := hx s
  obtain ⟨⟨v, hv⟩, state', vocabularies'⟩ := hy t
  refine ⟨?_, (state.symm.trans hs).trans state', .vocabularies vocabularies vocabularies'⟩
  rw [hu, hv]
  exact .value trivial

end Counting

theorem counting_takeVocabulary (name : String) : Counting setup (takeVocabulary name) := by
  intro s
  rw [takeVocabulary, bind_run_ok (a := s) rfl]
  split
  · exact ⟨⟨(), rfl⟩, .refl s, by simp [state]⟩
  · exact ⟨⟨(), rfl⟩, ⟨rfl, rfl, rfl⟩, by simp [state, emit, modifyWorld, bind_run]⟩

theorem counting_environmentEncoding {e : Encoding}
    (h : setup.vocabulary? setup.settings.encoding = some e) : Counting setup environmentEncoding := by
  intro s
  rw [environmentEncoding, setup_bind_run, h]
  exact Counting.bind (counting_takeVocabulary _) (fun _ => .pure e) s

theorem counting_encoding {e : Encoding} (h : setup.encoding? = some e) : Counting setup encoding := by
  intro s
  rw [encoding, setup_bind_run]
  unfold Setup.encoding? at h
  cases hs : setup.encoding with
  | some e' => exact Counting.pure e' s
  | none =>
    rw [hs] at h
    exact counting_environmentEncoding h s

section
variable {e : Encoding} (h : setup.encoding? = some e)

include h

theorem counting_tokensOf (text : String) : Counting setup (tokensOf text) := by
  unfold tokensOf
  split
  · exact .pure 0
  · exact .bind (counting_encoding h) fun _ => .pure _

theorem counting_partTokens (part : Part) : Counting setup (partTokens part) := by
  unfold partTokens
  split
  · exact counting_tokensOf h _
  · exact .pure 0
  · exact counting_tokensOf h _
  · exact .pure 0

theorem counting_answerTokens (parts : List Part) : Counting setup (answerTokens parts) := by
  induction parts with
  | nil => exact .pure 0
  | cons part parts ih =>
    exact .bind (counting_partTokens h part) fun _ => .bind ih fun _ => .pure _

end

end Action

/-! ## Answers -/

/-- The same trees. The numbers of tokens may differ. -/
structure Comparison.Agrees (c d : Comparison) : Prop where
  concrete : c.concrete = d.concrete
  thin : c.thin = d.thin

inductive Answer.Agrees : Answer → Answer → Prop where
  | same (answer : Answer) : Agrees answer answer
  | comparison {c d : Comparison} : c.Agrees d →
    Agrees (.structured c.toValue) (.structured d.toValue)

inductive Function.Payload.Agrees :
    Except Function.Raised Function.Payload → Except Function.Raised Function.Payload → Prop where
  | same (p : Except Function.Raised Function.Payload) : Agrees p p
  | comparison {c d : Comparison} : c.Agrees d →
    Agrees (.ok (.json c.toValue)) (.ok (.json d.toValue))

inductive Reply.Agrees : Reply → Reply → Prop where
  | same (reply : Reply) : Agrees reply reply
  | comparison {c d : Comparison} : c.Agrees d → Agrees (.comparison c) (.comparison d)
  | answer {x y : Answer} : x.Agrees y → Agrees (.answer x) (.answer y)
  | payload {p q : Except Function.Raised Function.Payload} : Function.Payload.Agrees p q →
    Agrees (.payload p) (.payload q)

/-- Answers that agree are reported alike. -/
theorem Answer.Agrees.report {x y : Answer} (h : x.Agrees y) :
    x.isError = y.isError ∧ x.errorText? = y.errorText? := by
  cases h <;> exact ⟨rfl, rfl⟩

theorem Answer.Agrees.unwrap {x y : Answer} (h : x.Agrees y) :
    Function.Payload.Agrees (Function.unwrap x) (Function.unwrap y) := by
  cases h with
  | same answer => exact .same _
  | comparison h => exact .comparison h

namespace Action

variable {a b : Setup} (agree : a.Agrees b)

include agree

theorem related_comparison (path : String) (language content : Option String) :
    Related a b Comparison.Agrees (comparison path language content)
      (comparison path language content) := by
  obtain ⟨e, he⟩ := agree.left
  obtain ⟨e', he'⟩ := agree.right
  have count : ∀ text, Related a b (fun _ _ => True) (tokensOf text) (tokensOf text) := fun text =>
    (counting_tokensOf he text).related (counting_tokensOf he' text)
  refine .bind (blind_document agree path language content) fun d d' hd => ?_
  subst hd
  exact .bind (count _) fun _ _ _ => .bind (count _) fun _ _ _ => .bind (count _) fun _ _ _ =>
    .pure ⟨rfl, rfl⟩

/-- Under one encoding the numbers are the same, too. -/
theorem blind_comparison {e : Encoding} (he : a.encoding? = some e) (he' : b.encoding? = some e)
    (path : String) (language content : Option String) :
    Blind a b (comparison path language content) := by
  have count : ∀ text, Blind a b (tokensOf text) := by
    intro text s t hs
    obtain ⟨-, state, effects⟩ :=
      (counting_tokensOf he text).related (counting_tokensOf he' text) s t hs
    refine ⟨?_, state, effects⟩
    rw [tokensOf_of_some he, tokensOf_of_some he']
    exact .value rfl
  exact .bind (blind_document agree path language content) fun d =>
    .bind (count _) fun _ => .bind (count _) fun _ => .bind (count _) fun _ => .pure _

/-! ## Requests -/

theorem related_request_run (r : Request) : Related a b Answer.Agrees r.run r.run := by
  cases r with
  | loadLanguages languages => exact (blind_loadTogether agree languages).shown .same _
  | reparse path language content =>
    exact (blind_reparse agree path language content).shown .same _
  | captures path query => exact (blind_captures agree path query).shown .same _
  | elements path kind => exact (blind_elements agree path kind).shown .same _
  | enclosing path point => exact (blind_enclosing agree path point).shown .same _
  | comparison path language content =>
    exact .bind (related_comparison agree path (some language) content) fun _ _ h =>
      .pure (.comparison h)

theorem related_handle (tool : Tool) (arguments : Table Value) :
    Related a b Answer.Agrees (handle tool arguments) (handle tool arguments) := by
  unfold handle
  split
  · exact related_request_run agree _
  · exact .fail _

theorem related_answer (name : String) (arguments : Table Value) :
    Related a b Answer.Agrees (answer name arguments) (answer name arguments) := by
  unfold answer
  split
  · exact .pure (.same _)
  · rename_i tool _
    refine .bind (.attempt (related_handle agree tool arguments)) fun r r' h => ?_
    cases h with
    | value h => exact .pure h
    | failure failure =>
      cases failure with
      | error e =>
        refine .bind (Blind.emit rfl : Blind a b (log (.toolFailed name e))) fun _ _ _ => ?_
        exact .pure (.same _)
      | fault f => exact .fail _

omit agree in
/-- What is reported differs in the number of tokens. -/
theorem delivered_agree {u v : Usage} (h : u.Agrees v) :
    Effects.Agree a b (a.delivered u) (b.delivered v) := by
  have plain : ∀ (setup : Setup) (w : Usage), (setup.delivered w).filter Effect.isPlain = [] := by
    intro setup w
    rw [List.filter_eq_nil_iff]
    intro effect hm
    rcases Setup.eq_of_mem_delivered hm with rfl | rfl <;> exact nofun
  have reports : ∀ (setup : Setup) (w : Usage),
      (setup.delivered w).filter Effect.isReport = [w].flatMap setup.delivered := by
    intro setup w
    rw [List.flatMap_singleton, List.filter_eq_self]
    intro effect hm
    rcases Setup.eq_of_mem_delivered hm with rfl | rfl <;> rfl
  exact ⟨by rw [plain, plain], [u], [v], .cons h .nil, reports a u, reports b v⟩

omit agree in
theorem related_report (u v : Usage) (h : u.Agrees v) {R : α → β → Prop} {x : α} {y : β}
    (hxy : R x y) :
    RelatedIf (a.Takes u.arguments ∧ b.Takes u.arguments) a b R
      (report u >>= fun _ => Pure.pure x) (report v >>= fun _ => Pure.pure y) := by
  intro s t hs
  have same : v.arguments = u.arguments := by rw [← h]
  rw [report_returns, report_returns, same]
  refine ⟨fun ⟨left, right⟩ => ?_, hs, delivered_agree h⟩
  rw [Setup.returned, Setup.returned, if_pos left, if_pos right]
  exact .value hxy

theorem related_request (name : String) (arguments : Table Value) (seconds : Float) :
    RelatedIf (a.Takes arguments ∧ b.Takes arguments) a b Answer.Agrees
      (request name arguments seconds) (request name arguments seconds) := by
  obtain ⟨e, he⟩ := agree.left
  obtain ⟨e', he'⟩ := agree.right
  refine .bind (related_answer agree name arguments) fun x y h => ?_
  refine .bind ((counting_answerTokens he x.parts).related (counting_answerTokens he' y.parts))
    fun n k _ => ?_
  obtain ⟨herror, htext⟩ := h.report
  refine related_report ⟨name, arguments, x.isError, x.errorText?, seconds * 1000, n⟩ _ ?_ h
  rw [Usage.Agrees, herror, htext]

theorem related_call (tool : Tool) (given : Table Value) :
    RelatedIf (a.Takes (Function.arguments tool given) ∧ b.Takes (Function.arguments tool given)) a b
      Function.Payload.Agrees (Function.call tool given) (Function.call tool given) :=
  .map (related_request agree tool.name (Function.arguments tool given) 0) fun _ _ h => h.unwrap

end Action

/-! ## Steps -/

namespace Step

/-- The command line is carried out under settings of its own. -/
inductive IsCommandLine : Step → Prop where
  | commandLine (arguments : List String) : IsCommandLine (.commandLine arguments)

/-- The sink takes the event that the step is reported by, if it is. -/
def Taken (setup : Setup) : Step → Prop
  | .request _ arguments _ => setup.Takes arguments
  | .function tool given => setup.Takes (Function.arguments tool given)
  | _ => True

variable {a b : Setup} (agree : a.Agrees b)

include agree

theorem related_run {step : Step} (h : ¬step.IsCommandLine) :
    Action.RelatedIf (step.Taken a ∧ step.Taken b) a b Reply.Agrees step.run step.run := by
  cases step with
  | request tool arguments seconds =>
    exact .map (Action.related_request agree tool arguments seconds) fun _ _ h => .answer h
  | function tool given => exact .map (Action.related_call agree tool given) fun _ _ h => .payload h
  | document path language content =>
    exact .of_related ((Action.blind_document agree path language content).shown .same _)
  | reparse path language content =>
    exact .of_related ((Action.blind_reparse agree path language content).shown .same _)
  | entry path =>
    refine .of_related (.bind (Action.blind_entry agree path) fun d d' hd => ?_)
    subst hd
    cases d with
    | some d => exact .pure (.same _)
    | none => exact .pure (.same _)
  | isCached path => exact .of_related ((Action.blind_isCached agree path).shown .same _)
  | forget path => exact .of_related ((Action.blind_forget agree path).shown .same _)
  | forgetAll => exact .of_related ((Action.Blind.modifyIndex _).shown .same _)
  | captures path query =>
    exact .of_related ((Action.blind_captures agree path query).shown .same _)
  | elements path kind => exact .of_related ((Action.blind_elements agree path kind).shown .same _)
  | enclosing path point =>
    exact .of_related ((Action.blind_enclosing agree path point).shown .same _)
  | comparison path language content =>
    exact .of_related (.bind (Action.related_comparison agree path language content) fun _ _ h =>
      .pure (.comparison h))
  | load language => exact .of_related ((Action.blind_load agree language).shown .same _)
  | loadEach languages => exact .of_related ((Action.blind_loadEach agree languages).shown .same _)
  | loadCancelled language =>
    exact .of_related ((Action.blind_loadCancelled agree language).shown .same _)
  | isLoaded language => exact .of_related ((Action.blind_isLoaded language).shown .same _)
  | grammar language => exact .of_related ((Action.blind_grammar language).shown .same _)
  | write path written =>
    refine .of_related (.setup ?_)
    rw [agree.directory]
    exact (Action.Blind.modifyDisk fun disk =>
      disk.write (Path.canonical b.directory path) written).shown .same _
  | delete path =>
    refine .of_related (.setup ?_)
    rw [agree.directory]
    exact (Action.Blind.modifyDisk fun disk =>
      disk.delete (Path.canonical b.directory path)).shown .same _
  | describe tool => exact .of_related (.pure (.same _))
  | commandLine arguments => exact absurd (.commandLine arguments) h

end Step

/-! ## Sessions -/

namespace Session

structure Agrees (x y : Session) : Prop where
  state : x.state.Agrees y.state
  shown : x.shown = y.shown

theorem noteShown_ending {x y : Session} (h : x.Agrees y) {r r' : Except Failure Reply}
    (hr : Ending Reply.Agrees r r') : (x.noteShown r).Agrees (y.noteShown r') := by
  cases hr with
  | failure e => exact h
  | value hr =>
    cases hr with
    | comparison _ | answer _ | payload _ => exact h
    | same =>
      rename_i reply
      cases reply with
      | document d =>
        simp only [noteShown, h.shown]
        split
        · exact h
        · exact ⟨h.state, rfl⟩
      | _ => exact h

/-- A value that is no document is not noted, and neither is a failure. -/
theorem noteShown_map {x : Session} {r : Except Failure α} {f : α → Reply}
    (h : ∀ u d, f u ≠ .document d) : x.noteShown (r.map f) = x := by
  cases r with
  | error e => rfl
  | ok u =>
    simp only [Except.map, noteShown]
    split
    · rename_i d hd
      exact absurd (Except.ok.inj hd) (h u d)
    · rfl

/-- A request in a session is replied to with its answer. -/
theorem step_request (session : Session) (setup : Setup) (name : String) (arguments : Table Value)
    (seconds : Float) : (session.step setup (.request name arguments seconds)).1 =
      (Action.request name arguments seconds setup session.state).result.map .answer :=
  congrArg Run.result (Action.bind_pure_run _ Reply.answer setup session.state)

variable {a b : Setup}

/-- Documents are shown by steps that are not reported. -/
theorem noteShown_agrees {x y : Session} (h : x.Agrees y) {step : Step} {s t : State}
    (hr : step.Taken a ∧ step.Taken b → Ending Reply.Agrees (step.run a s).result (step.run b t).result) :
    (x.noteShown (step.run a s).result).Agrees (y.noteShown (step.run b t).result) := by
  cases step with
  | request tool arguments seconds =>
    rw [Step.run, Action.bind_pure_run, Action.bind_pure_run, noteShown_map nofun, noteShown_map nofun]
    exact h
  | function tool given =>
    rw [Step.run, Action.bind_pure_run, Action.bind_pure_run, noteShown_map nofun, noteShown_map nofun]
    exact h
  | _ => exact noteShown_ending h (hr ⟨trivial, trivial⟩)

variable (agree : a.Agrees b)

include agree

theorem step_agrees {x y : Session} (h : x.Agrees y) {step : Step} (hstep : ¬step.IsCommandLine) :
    (step.Taken a ∧ step.Taken b → Ending Reply.Agrees (x.step a step).1 (y.step b step).1) ∧
      (x.step a step).2.1.Agrees (y.step b step).2.1 ∧
      Effects.Agree a b (x.step a step).2.2 (y.step b step).2.2 := by
  have run := Step.related_run agree hstep x.state y.state h.state
  have settled := Action.blind_settle agree _ _ run.state
  have after : Agrees { x with state := (Action.settle a (step.run a x.state).state).state }
      { y with state := (Action.settle b (step.run b y.state).state).state } := ⟨settled.state, h.shown⟩
  exact ⟨run.result, noteShown_agrees after run.result, run.effects.append settled.effects⟩

theorem run_agrees {x y : Session} (h : x.Agrees y) {steps : List Step}
    (hsteps : ∀ step ∈ steps, ¬step.IsCommandLine) : (x.run a steps).Agrees (y.run b steps) := by
  induction steps generalizing x y with
  | nil => exact h
  | cons step steps ih =>
    rw [List.forall_mem_cons] at hsteps
    exact ih (step_agrees agree h hsteps.1).2.1 hsteps.2

end Session

/-- Two sessions on the same disk, under setups with the same program, directory and blocks, each with an
encoding to count with, do the same steps; the levels of the log, the encodings, the switch of the usage
log and the sinks may differ. Then after any steps but command lines, one more such step

* gives the same reply or the same failure, but for the numbers of tokens in a comparison, unless a sink does
  not take the event that reports it;
* leaves the same index, disk, loader calls and documents shown, whether the sinks take their events or not;
* has the same file reads, loader calls and other log lines, in the same order, and the events that it
  hands to the two sinks differ in numbers of tokens only. -/
theorem sessions_agree {a b : Setup} (agree : a.Agrees b) (disk : Disk) {steps : List Step}
    {step : Step} (plain : ∀ s ∈ step :: steps, ¬s.IsCommandLine) :
    let x := ((Session.start disk).run a steps).step a step
    let y := ((Session.start disk).run b steps).step b step
    (step.Taken a ∧ step.Taken b → Ending Reply.Agrees x.1 y.1) ∧ x.2.1.Agrees y.2.1 ∧
      Effects.Agree a b x.2.2 y.2.2 := by
  rw [List.forall_mem_cons] at plain
  have start : (Session.start disk).Agrees (Session.start disk) := ⟨.refl _, rfl⟩
  exact Session.step_agrees agree (Session.run_agrees agree start plain.2) plain.1

/-- The same file is parsed under both setups. Bytes are counted and handed to a listener, or characters
are counted and logged. -/
theorem sessions_agree_parsed :
    let engine : Engine := ⟨fun name _ => .ok ⟨name⟩, fun _ _ => some default, fun _ _ => none⟩
    let a := { plainSetup "gpt2" with engine := engine }
    let b := { a with settings := ⟨"DEBUG", "nope", true⟩, encoding := some .chars, sink := .log }
    let steps : List Step := [.write "é.py" (.file [120]), .load "python"]
    let step : Step := .request "parse_file" [("path", .str "é.py")] 2
    let x := ((Session.start []).run a steps).step a step
    let y := ((Session.start []).run b steps).step b step
    let counts := fun es : List Effect => es.filterMap fun effect => effect.usage?.map Usage.tokens
    (counts x.2.2 = [63] ∧ counts y.2.2 = [62]) ∧
      Ending Reply.Agrees x.1 y.1 ∧ x.2.1.Agrees y.2.1 ∧ Effects.Agree a b x.2.2 y.2.2 := by
  intro engine a b steps step x y counts
  have agree : a.Agrees b := ⟨rfl, rfl, rfl, ⟨.bytes, rfl⟩, ⟨.chars, rfl⟩⟩
  have plain : ∀ s ∈ step :: steps, ¬s.IsCommandLine := by
    rintro s hs ⟨⟩
    simp [steps, step] at hs
  obtain ⟨result, state, effects⟩ := sessions_agree agree [] plain
  exact ⟨⟨by decide +kernel, by decide +kernel⟩, result ⟨nofun, fun _ _ => by decide⟩, state, effects⟩

/-- The switch of the usage log decides whether a request is reported, and, for arguments that the log has no
room for, whether it is answered. -/
theorem switch_shows :
    let on := { plainSetup "gpt2" with sink := .log }
    let off := { on with settings := ⟨"WARNING", "gpt2", false⟩ }
    let reports := fun setup arguments =>
      ((Session.start []).step setup (.request "nope" arguments 0)).2.2.countP Effect.isReport
    let reply := fun setup =>
      ((Session.start []).step setup (.request "nope" [("path", .nested 1000)] 0)).1
    off.Agrees on ∧ (reports off [] = 0 ∧ reports on [] = 1) ∧
      (∃ answer, reply off = .ok (.answer answer)) ∧ reply on = .error (.fault Usage.tooDeep) ∧
      ¬Ending Reply.Agrees (reply off) (reply on) := by
  intro on off reports reply
  have agree : off.Agrees on := ⟨rfl, rfl, rfl, ⟨.bytes, rfl⟩, ⟨.bytes, rfl⟩⟩
  have unknown : Request.ofCall? "nope" [("path", .nested 1000)] = none := rfl
  have fresh : (Session.start []).state = {} := rfl
  have served : ∃ answer, reply off = .ok (.answer answer) := by
    obtain ⟨answer, -, -, hok, -⟩ : Served off _ _ _ :=
      (request_outcomes off {} "nope" [("path", .nested 1000)] 0).1.mpr ⟨by simp [unknown], nofun⟩
    refine ⟨answer, ?_⟩
    rw [show reply off = _ from Session.step_request .., fresh, hok]
    rfl
  have dropped : reply on = .error (.fault Usage.tooDeep) := by
    obtain ⟨herror, -⟩ := (request_outcomes on {} "nope" [("path", .nested 1000)] 0).2.2.2.mpr
      ⟨by simp [unknown], Setup.not_takes_nested rfl rfl "path" (Nat.le_refl _)⟩
    rw [show reply on = _ from Session.step_request .., fresh, herror]
    rfl
  refine ⟨agree, by decide +kernel, served, dropped, fun ending => ?_⟩
  obtain ⟨answer, hok⟩ := served
  rw [hok, dropped] at ending
  cases ending

end CodeIndex
