import CodeIndex.Proofs.Action.Blameless
import CodeIndex.Proofs.Error

/-!
# CodeIndex.Proofs.Tool.Validation

A tool checks its arguments before it does anything else.

* `Kind.Takes`, `Tool.schema`, `Tool.Fits`: the values that a tool takes for its parameters.
* `ArgumentError.Found`, `Tool.checks`: what a check finds wrong, and the checks of a tool in the order in
  which it makes them. `FirstFound` is the first check that finds something.
* `Makes`: a reading of the arguments that makes some checks, in order. `Makes.bind` puts readings together,
  and `Tool.makes_request` does so for every tool.
* `request_validates`: which calls are turned down, with which message, and that nothing is done for them
  but to log and to report it.
-/

namespace CodeIndex

open Arguments

/-- What a parameter takes. -/
inductive Kind where
  | text
  | optionalText
  | place
  | texts
deriving DecidableEq, Repr

/-- An argument that is missing is null. -/
inductive Kind.Takes : Kind → Value → Prop where
  | text {s : String} : s ≠ "" → Takes .text (.str s)
  | none : Takes .optionalText .null
  | some (s : String) : Takes .optionalText (.str s)
  | place {n : Int} : 0 ≤ n → Takes .place (.int n)
  | texts {names : List String} : "" ∉ names → Takes .texts (.arr (names.map .str))

namespace Tool

def schema : Tool → Table Kind
  | .loadLanguages => [("languages", .texts)]
  | .reparse => [("path", .text), ("language", .optionalText), ("content", .optionalText)]
  | .captures => [("path", .text), ("query", .text)]
  | .elements => [("path", .text), ("node_type", .text)]
  | .enclosing => [("path", .text), ("row", .place), ("column", .place)]
  | .comparison => [("path", .text), ("language", .text), ("content", .optionalText)]

def Fits (tool : Tool) (arguments : Table Value) : Prop :=
  ∀ p ∈ tool.schema, p.2.Takes (argument arguments p.1)

/-- The checks of a tool in their order, each by the error that it ends in. -/
def checks : Tool → List ArgumentError
  | .loadLanguages => [.strings "languages"]
  | .reparse => [.required ["path"], .string "language", .string "content"]
  | .captures => [.required ["path", "query"]]
  | .elements => [.required ["path", "node_type"]]
  | .enclosing => [.required ["path"], .integer "row", .negative "row", .integer "column",
      .negative "column"]
  | .comparison => [.required ["path", "language"], .string "content"]

end Tool

/-- The check of this error finds fault with the arguments. -/
def ArgumentError.Found (arguments : Table Value) : ArgumentError → Prop
  | .required names => ∃ name ∈ names, ¬Kind.text.Takes (argument arguments name)
  | .integer name => ∀ n, argument arguments name ≠ .int n
  | .negative name => ∃ n, argument arguments name = .int n ∧ n < 0
  | .string name => ¬Kind.optionalText.Takes (argument arguments name)
  | .strings name => ¬Kind.texts.Takes (argument arguments name)

variable {α β : Type} {arguments : Table Value}

/-- The first check that finds something. -/
inductive FirstFound (arguments : Table Value) : List ArgumentError → ArgumentError → Prop where
  | here {c : ArgumentError} {cs : List ArgumentError} :
      c.Found arguments → FirstFound arguments (c :: cs) c
  | later {c e : ArgumentError} {cs : List ArgumentError} :
      ¬c.Found arguments → FirstFound arguments cs e → FirstFound arguments (c :: cs) e

namespace FirstFound

variable {c e : ArgumentError} {cs ds : List ArgumentError}

@[simp] theorem not_nil : ¬FirstFound arguments [] e := by
  intro h
  cases h

theorem cons_iff : FirstFound arguments (c :: cs) e ↔
    c.Found arguments ∧ e = c ∨ ¬c.Found arguments ∧ FirstFound arguments cs e := by
  constructor
  · intro h
    cases h with
    | here found => exact .inl ⟨found, rfl⟩
    | later passed h => exact .inr ⟨passed, h⟩
  · rintro (⟨found, rfl⟩ | ⟨passed, h⟩)
    · exact .here found
    · exact .later passed h

theorem exists_iff : (∃ e, FirstFound arguments cs e) ↔ ∃ c ∈ cs, c.Found arguments := by
  induction cs with
  | nil => simp
  | cons c cs ih =>
    by_cases found : c.Found arguments
    · simp [cons_iff, found]
    · simp [cons_iff, found, ih]

theorem append_iff : FirstFound arguments (cs ++ ds) e ↔
    FirstFound arguments cs e ∨ (∀ c ∈ cs, ¬c.Found arguments) ∧ FirstFound arguments ds e := by
  induction cs with
  | nil => simp
  | cons c cs ih =>
    by_cases found : c.Found arguments
    · simp [cons_iff, found]
    · simp [cons_iff, found, ih]

end FirstFound

/-! ## Readings -/

/-- A reading of the arguments that makes these checks, in this order. -/
def Makes (arguments : Table Value) (cs : List ArgumentError) (x : Except ArgumentError α) : Prop :=
  ∀ e, x = .error e ↔ FirstFound arguments cs e

namespace Makes

variable {cs ds : List ArgumentError}

theorem passed {a : α} (h : Makes arguments cs (.ok a)) : ∀ c ∈ cs, ¬c.Found arguments := by
  intro c hm found
  obtain ⟨e, he⟩ := FirstFound.exists_iff.mpr ⟨c, hm, found⟩
  cases (h e).mpr he

theorem pure (a : α) : Makes arguments [] (Pure.pure a : Except ArgumentError α) := by
  intro e
  refine ⟨fun h => ?_, fun h => absurd h FirstFound.not_nil⟩
  cases h

theorem bind {x : Except ArgumentError α} {f : α → Except ArgumentError β} (hx : Makes arguments cs x)
    (hf : ∀ a, Makes arguments ds (f a)) : Makes arguments (cs ++ ds) (x >>= f) := by
  intro e
  rw [FirstFound.append_iff]
  cases x with
  | error e' =>
    have first : FirstFound arguments cs e' := (hx e').mp rfl
    constructor
    · intro h
      cases h
      exact .inl first
    · rintro (h | ⟨all, -⟩)
      · cases (hx e).mpr h
        rfl
      · obtain ⟨c, hm, found⟩ := FirstFound.exists_iff.mp ⟨e', first⟩
        exact absurd found (all c hm)
  | ok a =>
    constructor
    · intro h
      exact .inr ⟨hx.passed, (hf a e).mp h⟩
    · rintro (h | ⟨-, h⟩)
      · cases (hx e).mpr h
      · exact (hf a e).mpr h

/-- A reading that makes one check. -/
theorem single {c : ArgumentError} {x : Except ArgumentError α}
    (passes : ¬c.Found arguments → ∃ a, x = .ok a) (fails : c.Found arguments → x = .error c) :
    Makes arguments [c] x := by
  intro e
  rw [FirstFound.cons_iff]
  by_cases found : c.Found arguments
  · rw [fails found]
    simp [found, eq_comm]
  · obtain ⟨a, ha⟩ := passes found
    simp [ha, found]

end Makes

/-! ## Reading an argument -/

theorem eq_str_of_text? {v : Value} {s : String} (h : text? v = some s) : v = .str s ∧ s ≠ "" := by
  unfold text? at h
  split at h
  · split at h
    · cases h
    · cases h
      exact ⟨rfl, ‹_›⟩
  · cases h

theorem takes_text_iff {v : Value} : Kind.text.Takes v ↔ ∃ s, text? v = some s := by
  constructor
  · intro h
    cases h with
    | text hs => exact ⟨_, if_neg hs⟩
  · rintro ⟨s, hs⟩
    obtain ⟨rfl, hne⟩ := eq_str_of_text? hs
    exact .text hne

theorem text?_eq_none {v : Value} (h : ¬Kind.text.Takes v) : text? v = none := by
  rw [takes_text_iff] at h
  exact Option.eq_none_iff_forall_ne_some.mpr fun s hs => h ⟨s, hs⟩

/-- Items that are all read as texts are texts. -/
theorem eq_map_str_of_mapM_text? {items : List Value} {names : List String}
    (h : items.mapM text? = some names) : items = names.map .str ∧ "" ∉ names := by
  induction items generalizing names with
  | nil =>
    cases h
    exact ⟨rfl, by simp⟩
  | cons v items ih =>
    rw [List.mapM_cons] at h
    cases hv : text? v with
    | none => simp [hv] at h
    | some s =>
      cases hi : items.mapM text? with
      | none => simp [hv, hi] at h
      | some rest =>
        simp only [hv, hi] at h
        cases h
        obtain ⟨rfl, hs⟩ := eq_str_of_text? hv
        obtain ⟨rfl, hrest⟩ := ih hi
        exact ⟨rfl, by simp [Ne.symm hs, hrest]⟩

theorem takes_place_iff {v : Value} : Kind.place.Takes v ↔
    (∃ n, v = .int n) ∧ ∀ n, v = .int n → 0 ≤ n := by
  constructor
  · intro h
    cases h with
    | place hn =>
      refine ⟨⟨_, rfl⟩, fun n h => ?_⟩
      cases h
      exact hn
  · rintro ⟨⟨n, rfl⟩, h⟩
    exact .place (h n rfl)

theorem makes_required (name : String) :
    Makes arguments [.required [name]] (required arguments name) := by
  have found : (ArgumentError.required [name]).Found arguments ↔
      ¬Kind.text.Takes (argument arguments name) := by simp [ArgumentError.Found]
  refine .single (fun h => ?_) fun h => ?_
  · obtain ⟨s, hs⟩ := takes_text_iff.mp (not_not.mp (mt found.mpr h))
    exact ⟨s, by rw [required, hs]⟩
  · rw [required, text?_eq_none (found.mp h)]

theorem makes_requiredPair (first second : String) :
    Makes arguments [.required [first, second]] (requiredPair arguments first second) := by
  have found : (ArgumentError.required [first, second]).Found arguments ↔
      ¬Kind.text.Takes (argument arguments first) ∨ ¬Kind.text.Takes (argument arguments second) := by
    simp [ArgumentError.Found]
  refine .single (fun h => ?_) fun h => ?_
  · rw [found, not_or, not_not, not_not] at h
    obtain ⟨s, hs⟩ := takes_text_iff.mp h.1
    obtain ⟨t, ht⟩ := takes_text_iff.mp h.2
    exact ⟨(s, t), by rw [requiredPair, hs, ht]⟩
  · rcases found.mp h with h | h
    · rw [requiredPair, text?_eq_none h]
    · rw [requiredPair, text?_eq_none h]
      cases text? (argument arguments first) <;> rfl

theorem makes_optional (name : String) :
    Makes arguments [.string name] (Arguments.optional arguments name) := by
  unfold Arguments.optional
  have found : (ArgumentError.string name).Found arguments ↔
      ¬Kind.optionalText.Takes (argument arguments name) := Iff.rfl
  generalize argument arguments name = v at found ⊢
  refine .single (fun h => ?_) fun h => ?_
  · cases not_not.mp (mt found.mpr h) with
    | none => exact ⟨none, rfl⟩
    | some s => exact ⟨some s, rfl⟩
  · split
    · exact absurd .none (found.mp h)
    · exact absurd (.some _) (found.mp h)
    · rfl

theorem makes_texts (name : String) : Makes arguments [.strings name] (texts arguments name) := by
  unfold texts
  have found : (ArgumentError.strings name).Found arguments ↔
      ¬Kind.texts.Takes (argument arguments name) := Iff.rfl
  generalize argument arguments name = v at found ⊢
  refine .single (fun h => ?_) fun h => ?_
  · cases not_not.mp (mt found.mpr h) with
    | @texts names hs => exact ⟨names, by simp only [Action.mapM_text? hs]⟩
  · split
    · split
      · rename_i hn
        obtain ⟨rfl, hne⟩ := eq_map_str_of_mapM_text? hn
        exact absurd (.texts hne) (found.mp h)
      · rfl
    · rfl

/-- The type is checked before the sign. -/
theorem makes_place (name : String) :
    Makes arguments [.integer name, .negative name] (place arguments name) := by
  intro e
  rw [FirstFound.cons_iff, FirstFound.cons_iff]
  unfold place
  split
  · rename_i n hv
    have integer : ¬(ArgumentError.integer name).Found arguments := fun h => h n hv
    have negative : (ArgumentError.negative name).Found arguments ↔ n < 0 := by
      simp [ArgumentError.Found, hv]
    split <;> simp_all [eq_comm]
  · rename_i hv
    have integer : (ArgumentError.integer name).Found arguments := hv
    simp [integer, eq_comm]

/-! ## The arguments of a tool -/

namespace Tool

variable {tool : Tool}

theorem makes_request (tool : Tool) (arguments : Table Value) :
    Makes arguments tool.checks (tool.request arguments) := by
  cases tool with
  | loadLanguages => exact (makes_texts "languages").bind fun _ => .pure _
  | reparse =>
    exact (makes_required "path").bind fun _ => (makes_optional "language").bind fun _ =>
      (makes_optional "content").bind fun _ => .pure _
  | captures => exact (makes_requiredPair "path" "query").bind fun _ => .pure _
  | elements => exact (makes_requiredPair "path" "node_type").bind fun _ => .pure _
  | enclosing =>
    exact (makes_required "path").bind fun _ => (makes_place "row").bind fun _ =>
      (makes_place "column").bind fun _ => .pure _
  | comparison =>
    exact (makes_requiredPair "path" "language").bind fun _ => (makes_optional "content").bind fun _ =>
      .pure _

theorem fits_iff : tool.Fits arguments ↔ ∀ c ∈ tool.checks, ¬c.Found arguments := by
  cases tool <;>
    simp [Fits, schema, checks, ArgumentError.Found, takes_place_iff, and_assoc]

theorem request_error_iff {e : ArgumentError} :
    tool.request arguments = .error e ↔ FirstFound arguments tool.checks e :=
  makes_request tool arguments e

theorem exists_first_of_not_fits (h : ¬tool.Fits arguments) :
    ∃ e, FirstFound arguments tool.checks e := by
  rw [fits_iff] at h
  push Not at h
  exact FirstFound.exists_iff.mpr h

theorem request_of_fits (h : tool.Fits arguments) : ∃ r, tool.request arguments = .ok r := by
  cases hr : tool.request arguments with
  | ok r => exact ⟨r, rfl⟩
  | error e =>
    obtain ⟨c, hm, found⟩ := FirstFound.exists_iff.mp ⟨e, request_error_iff.mp hr⟩
    exact absurd found (fits_iff.mp h c hm)

theorem named?_eq_some_iff {name : String} : named? name = some tool ↔ tool.name = name := by
  constructor
  · intro h
    exact beq_iff_eq.mp (List.find?_some (p := fun t : Tool => t.name == name) h)
  · rintro rfl
    exact named?_name tool

theorem named?_eq_none_iff {name : String} :
    named? name = none ↔ ∀ tool : Tool, tool.name ≠ name := by
  rw [Option.eq_none_iff_forall_ne_some]
  exact forall_congr' fun tool => not_congr named?_eq_some_iff

end Tool

/-! ## Calls that are turned down -/

/-- The text is that of an error about an argument, or about an unknown tool. -/
def IsRejection (text : String) : Prop :=
  (∃ e : ArgumentError, text = e.message) ∨ ∃ name, text = Action.unknownTool name

def Run.Rejects (run : Run Answer) : Prop :=
  ∃ answer text, run.result = .ok answer ∧ answer.errorText? = some text ∧ IsRejection text

/-- There is no tool of this name, or the arguments do not fit it. -/
def TurnedDown (name : String) (arguments : Table Value) : Prop :=
  (∀ tool : Tool, tool.name ≠ name) ∨ ∃ tool : Tool, tool.name = name ∧ ¬tool.Fits arguments

/-- Other errors have other messages. -/
theorem Error.isRejection_message_iff {e : Error} : IsRejection e.message ↔ ∃ a, e = .argument a := by
  constructor
  · rintro (⟨a, ha⟩ | ⟨name, hname⟩)
    · by_contra hne
      have hmark : e.mark ≠ (Error.argument a).mark := by
        cases e with
        | argument other => exact absurd ⟨other, rfl⟩ hne
        | _ => simp [Error.mark]
      exact Error.message_ne hmark ha
    · exact absurd hname (e.message_ne_unknownTool name)
  · rintro ⟨a, rfl⟩
    exact .inl ⟨a, rfl⟩

theorem Answer.Regular.errorText?_eq_none {answer : Answer} (h : answer.Regular) :
    answer.errorText? = none := by
  cases h <;> rfl

namespace Action

variable {setup : Setup} {s : State} {name : String} {seconds : Float}

/-- An error has no tokens, and reporting it is all that is left to do. -/
theorem request_run_of_error {text : String} {effects : List Effect}
    (h : answer name arguments setup s = ⟨.ok (.error text), s, effects⟩) :
    request name arguments seconds setup s = ⟨setup.returned arguments (.error text), s,
      effects ++ setup.delivered ⟨name, arguments, true, some text, seconds * 1000, 0⟩⟩ := by
  have ha : (answer name arguments setup s).result = .ok (.error text) := by rw [h]
  have htokens : answerTokens (Answer.error text).parts setup s = ⟨.ok 0, s, []⟩ := rfl
  rw [request_run_counted ha (answerTokens_error text), h]
  dsimp only
  rw [htokens]
  simp [Answer.error, Answer.errorText?]

theorem answer_run_of_unknown (unknown : ∀ tool : Tool, tool.name ≠ name) :
    answer name arguments setup s = ⟨.ok (.error (unknownTool name)), s, []⟩ := by
  unfold answer
  rw [Tool.named?_eq_none_iff.mpr unknown]
  rfl

theorem answer_run_of_first {tool : Tool} {e : ArgumentError} (named : tool.name = name)
    (first : FirstFound arguments tool.checks e) :
    answer name arguments setup s =
      ⟨.ok (.error e.message), s, [.log (.toolFailed name (.argument e))]⟩ := by
  have hhandle : attempt (handle tool arguments) setup s =
      ⟨.ok (.error (.error (.argument e))), s, []⟩ := by
    rw [handle, Tool.request_error_iff.mpr first]
    rfl
  unfold answer
  rw [Tool.named?_eq_some_iff.mpr named]
  dsimp only
  rw [bind_run, hhandle]
  rfl

theorem request_run_of_unknown (unknown : ∀ tool : Tool, tool.name ≠ name) :
    request name arguments seconds setup s = ⟨setup.returned arguments (.error (unknownTool name)), s,
      setup.delivered ⟨name, arguments, true, some (unknownTool name), seconds * 1000, 0⟩⟩ :=
  request_run_of_error (answer_run_of_unknown unknown)

theorem request_run_of_first {tool : Tool} {e : ArgumentError} (named : tool.name = name)
    (first : FirstFound arguments tool.checks e) :
    request name arguments seconds setup s = ⟨setup.returned arguments (.error e.message), s,
      .log (.toolFailed name (.argument e)) ::
        setup.delivered ⟨name, arguments, true, some e.message, seconds * 1000, 0⟩⟩ :=
  request_run_of_error (answer_run_of_first named first)

/-- A request that returns has an answer with its tokens, and a sink that takes its event. -/
theorem of_request_ok {a : Answer} (h : (request name arguments seconds setup s).result = .ok a) :
    (answer name arguments setup s).result = .ok a ∧
      (∃ n, (answerTokens a.parts setup (answer name arguments setup s).state).result = .ok n) ∧
      setup.Takes arguments := by
  have unfolded := h
  rw [request] at unfolded
  obtain ⟨a', ha, hrest⟩ := of_bind_result_ok unfolded
  obtain ⟨n, hn, -⟩ := of_bind_result_ok hrest
  rw [request_run_counted ha hn] at h
  dsimp only [Setup.returned] at h
  split at h
  · rename_i takes
    cases h
    exact ⟨ha, ⟨n, hn⟩, takes⟩
  · cases h

theorem answer_of_request_ok {a : Answer}
    (h : (request name arguments seconds setup s).result = .ok a) :
    (answer name arguments setup s).result = .ok a :=
  (of_request_ok h).1

/-- A request that is carried out answers with a text, with data, or with an error of the index. -/
theorem answered_of_answer {r : Request} {a : Answer} (hcall : Request.ofCall? name arguments = some r)
    (hanswer : (answer name arguments setup s).result = .ok a) :
    a.Regular ∨ ∃ e : Error, (∀ argument, e ≠ .argument argument) ∧ a = .error e.message := by
  rw [answer_of_request setup s hcall] at hanswer
  rcases hrun : (r.run setup s).result with (e | f) | a'
  · rw [hrun] at hanswer
    cases hanswer
    refine .inr ⟨e, ?_, rfl⟩
    rintro argument rfl
    exact blameless_request_run r setup s argument hrun
  · rw [hrun] at hanswer
    cases hanswer
  · rw [hrun] at hanswer
    cases hanswer
    refine .inl ((request_run_ends ?_ setup s).value a hrun)
    intro hn
    rw [request_run_of_hasNul hn] at hrun
    cases hrun

/-- A request whose arguments fit is not turned down. -/
theorem not_rejects_of_fits {tool : Tool} (named : tool.name = name) (fits : tool.Fits arguments) :
    ¬(answer name arguments setup s).Rejects := by
  rintro ⟨a, text, hresult, htext, rejection⟩
  obtain ⟨r, hr⟩ := Tool.request_of_fits fits
  have hcall : Request.ofCall? name arguments = some r := by
    rw [Request.ofCall?, Tool.named?_eq_some_iff.mpr named]
    dsimp only
    rw [hr]
  rcases answered_of_answer hcall hresult with regular | ⟨e, other, rfl⟩
  · rw [regular.errorText?_eq_none] at htext
    cases htext
  · cases htext
    obtain ⟨argument, he⟩ := Error.isRejection_message_iff.mp rejection
    exact other argument he

theorem answer_rejects_iff : (answer name arguments setup s).Rejects ↔ TurnedDown name arguments := by
  constructor
  · intro hrejects
    by_contra h
    rw [TurnedDown, not_or] at h
    push Not at h
    obtain ⟨⟨tool, named⟩, hfits⟩ := h
    exact not_rejects_of_fits named (hfits tool named) hrejects
  · rintro (unknown | ⟨tool, named, hfits⟩)
    · rw [answer_run_of_unknown unknown]
      exact ⟨_, _, rfl, rfl, .inr ⟨name, rfl⟩⟩
    · obtain ⟨e, first⟩ := Tool.exists_first_of_not_fits hfits
      rw [answer_run_of_first named first]
      exact ⟨_, _, rfl, rfl, .inl ⟨e, rfl⟩⟩

end Action

theorem Setup.isQuiet_of_mem_delivered {setup : Setup} {event : Usage} {effect : Effect}
    (h : effect ∈ setup.delivered event) : effect.isQuiet := by
  rcases eq_of_mem_delivered h with rfl | rfl <;> trivial

/-- In every state, whatever the arguments are:

* a call is answered by an error about an argument or an unknown tool just when there is no tool of the name,
  or the arguments do not fit it. It ends in this answer, unless the sink does not take its event;
* such a call leaves the state as it is, reads no file and calls no loader, in either case;
* where there is no such tool, the call is only reported;
* where the arguments do not fit, the message is that of the first check that finds something, and the call
  is only logged and reported. -/
theorem request_validates (setup : Setup) (s : State) (name : String) (arguments : Table Value)
    (seconds : Float) :
    let run := Action.request name arguments seconds setup s
    let event := fun text : String => Usage.mk name arguments true (some text) (seconds * 1000) 0
    ((Action.answer name arguments setup s).Rejects ↔ TurnedDown name arguments) ∧
    (run.Rejects ↔ TurnedDown name arguments ∧ setup.Takes arguments) ∧
    (TurnedDown name arguments → run.state = s ∧ ∀ effect ∈ run.effects, effect.isQuiet) ∧
    ((∀ tool : Tool, tool.name ≠ name) →
      run = ⟨setup.returned arguments (.error (Action.unknownTool name)), s,
        setup.delivered (event (Action.unknownTool name))⟩) ∧
    ∀ tool : Tool, tool.name = name → ¬tool.Fits arguments →
      ∃ e, FirstFound arguments tool.checks e ∧
        run = ⟨setup.returned arguments (.error e.message), s,
          .log (.toolFailed name (.argument e)) :: setup.delivered (event e.message)⟩ := by
  intro run event
  have unknown : (∀ tool : Tool, tool.name ≠ name) →
      run = ⟨setup.returned arguments (.error (Action.unknownTool name)), s,
        setup.delivered (event (Action.unknownTool name))⟩ := Action.request_run_of_unknown
  have unfit : ∀ tool : Tool, tool.name = name → ¬tool.Fits arguments →
      ∃ e, FirstFound arguments tool.checks e ∧
        run = ⟨setup.returned arguments (.error e.message), s,
          .log (.toolFailed name (.argument e)) :: setup.delivered (event e.message)⟩ := by
    intro tool named hfits
    obtain ⟨e, first⟩ := Tool.exists_first_of_not_fits hfits
    exact ⟨e, first, Action.request_run_of_first named first⟩
  refine ⟨Action.answer_rejects_iff, ⟨?_, ?_⟩, ?_, unknown, unfit⟩
  · rintro ⟨a, text, hresult, rejection⟩
    obtain ⟨hanswer, -, takes⟩ := Action.of_request_ok hresult
    exact ⟨Action.answer_rejects_iff.mp ⟨a, text, hanswer, rejection⟩, takes⟩
  · rintro ⟨h | ⟨tool, named, hfits⟩, takes⟩
    · rw [unknown h]
      exact ⟨_, _, if_pos takes, rfl, .inr ⟨name, rfl⟩⟩
    · obtain ⟨e, -, hrun⟩ := unfit tool named hfits
      rw [hrun]
      exact ⟨_, _, if_pos takes, rfl, .inl ⟨e, rfl⟩⟩
  · rintro (h | ⟨tool, named, hfits⟩)
    · rw [unknown h]
      exact ⟨rfl, fun effect hm => Setup.isQuiet_of_mem_delivered hm⟩
    · obtain ⟨e, -, hrun⟩ := unfit tool named hfits
      rw [hrun]
      refine ⟨rfl, fun effect hm => ?_⟩
      rcases List.mem_cons.mp hm with rfl | hm
      · trivial
      · exact Setup.isQuiet_of_mem_delivered hm

/-- A boolean is no integer, and it is found before the column, which is negative. -/
theorem request_validates_row :
    let arguments := [("path", .str "a.py"), ("row", .bool true), ("column", .int (-1))]
    let run := Action.request "get_contextual_code_snippets" arguments 0 (plainSetup "cl100k_base") {}
    ¬Tool.enclosing.Fits arguments ∧
      run.result = .ok (.error "The 'row' parameter is required and must be an integer.") ∧
      run.Rejects := by
  intro arguments run
  have first : FirstFound arguments Tool.enclosing.checks (.integer "row") :=
    Tool.request_error_iff.mp rfl
  have hfits : ¬Tool.enclosing.Fits arguments := by
    intro fits
    cases fits ("row", .place) (by simp [Tool.schema])
  obtain ⟨-, rejects, -, -, unfit⟩ :=
    request_validates (plainSetup "cl100k_base") {} "get_contextual_code_snippets" arguments 0
  obtain ⟨e, he, hrun⟩ := unfit .enclosing rfl hfits
  have same : e = .integer "row" := by
    have h := Tool.request_error_iff.mpr he
    rw [Tool.request_error_iff.mpr first] at h
    cases h
    rfl
  refine ⟨hfits, ?_, rejects.mpr ⟨.inr ⟨.enclosing, rfl, hfits⟩, nofun⟩⟩
  rw [show run = _ from hrun, same]
  rfl

end CodeIndex
