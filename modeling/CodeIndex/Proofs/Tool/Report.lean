import CodeIndex.Proofs.Tool.Function

/-!
# CodeIndex.Proofs.Tool.Report

The answer to a request, the event that reports it, and the operation of the index behind both.

* `Tool.Serves`: the operation that a tool carries out for its arguments, and the part that shows its
  value.
* `Comes`: where the part of an answer comes from, and the index after it. `answer_comes` says it of
  every answer.
* `Setup.Counts`: the number of tokens of a text.
* `request_reported`: answer, event and operation tell the same.
-/

namespace CodeIndex

open Arguments

/-- An argument that may be null. -/
inductive Arguments.MayGive (arguments : Table Value) (name : String) : Option String → Prop where
  | absent : argument arguments name = .null → MayGive arguments name none
  | text {s : String} : argument arguments name = .str s → MayGive arguments name (some s)

inductive Tool.Serves (arguments : Table Value) :
    (tool : Tool) → {α : Type} → Action α → (α → Part) → Prop where
  | loadLanguages {languages : List String} :
    argument arguments "languages" = .arr (languages.map .str) →
    Serves arguments .loadLanguages (Action.loadTogether languages) fun _ =>
      .text ("Successfully initialized Tree-sitter context and loaded grammars for: " ++
        ", ".intercalate languages ++ ".")
  | reparse {path : String} {language content : Option String} :
    argument arguments "path" = .str path → MayGive arguments "language" language →
    MayGive arguments "content" content →
    Serves arguments .reparse (Action.reparse path language content) fun d =>
      .text ("Successfully parsed and indexed file: " ++ d.file ++ " (language: " ++ d.language ++ ")")
  | captures {path query : String} :
    argument arguments "path" = .str path → argument arguments "query" = .str query →
    Serves arguments .captures (Action.captures path query) fun cs =>
      .json (.arr (cs.map Capture.toValue))
  | elements {path kind : String} :
    argument arguments "path" = .str path → argument arguments "node_type" = .str kind →
    Serves arguments .elements (Action.elements path kind) fun es =>
      .json (.arr (es.map Element.toValue))
  | enclosing {path : String} {row column : Int} :
    argument arguments "path" = .str path → argument arguments "row" = .int row →
    argument arguments "column" = .int column →
    Serves arguments .enclosing (Action.enclosing path ⟨row, column⟩) fun text =>
      .text (text.getD "Could not find a contextual snippet for the given position.")
  | comparison {path language : String} {content : Option String} :
    argument arguments "path" = .str path → argument arguments "language" = .str language →
    MayGive arguments "content" content →
    Serves arguments .comparison (Action.comparison path (some language) content) fun c =>
      .json c.toValue

/-- Where the part of an answer comes from, with the index after it. -/
inductive Comes (setup : Setup) (s : State) (name : String) (arguments : Table Value) :
    Part → Index → Prop where
  | unknown : (∀ tool : Tool, tool.name ≠ name) →
    Comes setup s name arguments (.error (Action.unknownTool name)) s.index
  | unfit {tool : Tool} {e : ArgumentError} : tool.name = name → FirstFound arguments tool.checks e →
    Comes setup s name arguments (.error e.message) s.index
  | failed {tool : Tool} {α : Type} {x : Action α} {shown : α → Part} {e : Error} :
    tool.name = name → tool.Serves arguments x shown → (x setup s).result = .error (.error e) →
    Comes setup s name arguments (.error e.message) (x setup s).state.index
  | value {tool : Tool} {α : Type} {x : Action α} {shown : α → Part} {a : α} :
    tool.name = name → tool.Serves arguments x shown → (x setup s).result = .ok a →
    Comes setup s name arguments (shown a) (x setup s).state.index

/-- The text is empty, or there is an encoding to count it with. -/
inductive Setup.Counts (setup : Setup) : String → Nat → Prop where
  | empty : Counts setup "" 0
  | text {e : Encoding} (text : String) : setup.encoding? = some e → Counts setup text (e.count text)

theorem Setup.Counts.eq_count {setup : Setup} {text : String} {n : Nat} {e : Encoding}
    (h : setup.Counts text n) (he : setup.encoding? = some e) : n = e.count text := by
  cases h with
  | empty => exact e.count_empty.symm
  | text text he' =>
    rw [he] at he'
    cases he'
    rfl

namespace Part

def isError : Part → Bool
  | .error _ => true
  | .text _ | .json _ => false

/-- The text that the tokens of a part are counted in. -/
def payload? : Part → Option String
  | .text t => some t
  | .json data => some (Json.compact data)
  | .error _ => none

end Part

variable {arguments : Table Value} {name : String}

/-! ## The operation of a tool -/

/-- A reading that succeeds has succeeded in its first part, and then in the rest. -/
theorem Arguments.of_bind_ok {α β : Type} {x : Except ArgumentError α}
    {f : α → Except ArgumentError β} {b : β} (h : x >>= f = .ok b) : ∃ a, x = .ok a ∧ f a = .ok b := by
  cases x with
  | error e => cases h
  | ok a => exact ⟨a, rfl, h⟩

namespace Arguments

theorem eq_str_of_required {s : String} (h : required arguments name = .ok s) :
    argument arguments name = .str s := by
  unfold required at h
  split at h
  · rename_i t ht
    cases h
    exact (eq_str_of_text? ht).1
  · cases h

theorem eq_str_of_requiredPair {other : String} {p : String × String}
    (h : requiredPair arguments name other = .ok p) :
    argument arguments name = .str p.1 ∧ argument arguments other = .str p.2 := by
  unfold requiredPair at h
  split at h
  · rename_i s t hs ht
    cases h
    exact ⟨(eq_str_of_text? hs).1, (eq_str_of_text? ht).1⟩
  · cases h

theorem mayGive_of_optional {given : Option String}
    (h : Arguments.optional arguments name = .ok given) : MayGive arguments name given := by
  unfold Arguments.optional at h
  split at h
  · rename_i hv
    cases h
    exact .absent hv
  · rename_i s hv
    cases h
    exact .text hv
  · cases h

theorem eq_int_of_place {n : Int} (h : place arguments name = .ok n) :
    argument arguments name = .int n := by
  unfold place at h
  split at h
  · rename_i k hv
    split at h
    · cases h
    · cases h
      exact hv
  · cases h

theorem eq_arr_of_texts {names : List String} (h : texts arguments name = .ok names) :
    argument arguments name = .arr (names.map .str) := by
  unfold texts at h
  split at h
  · rename_i items hv
    split at h
    · rename_i found hm
      cases h
      rw [hv, (eq_map_str_of_mapM_text? hm).1]
    · cases h
  · cases h

end Arguments

/-- A request is the operation of its tool, with the value shown in one part. -/
theorem Tool.serves_of_request {tool : Tool} {r : Request} (h : tool.request arguments = .ok r) :
    ∃ (α : Type) (x : Action α) (shown : α → Part), tool.Serves arguments x shown ∧
      r.run = x >>= fun a => Pure.pure ⟨[shown a], false⟩ := by
  cases tool with
  | loadLanguages =>
    obtain ⟨languages, hl, h⟩ := of_bind_ok h
    cases h
    exact ⟨_, _, _, .loadLanguages (eq_arr_of_texts hl), rfl⟩
  | reparse =>
    obtain ⟨path, hp, h⟩ := of_bind_ok h
    obtain ⟨language, hl, h⟩ := of_bind_ok h
    obtain ⟨content, hc, h⟩ := of_bind_ok h
    cases h
    exact ⟨_, _, _, .reparse (eq_str_of_required hp) (mayGive_of_optional hl) (mayGive_of_optional hc),
      rfl⟩
  | captures =>
    obtain ⟨p, hp, h⟩ := of_bind_ok h
    obtain ⟨hpath, hquery⟩ := eq_str_of_requiredPair hp
    cases h
    exact ⟨_, _, _, .captures hpath hquery, rfl⟩
  | elements =>
    obtain ⟨p, hp, h⟩ := of_bind_ok h
    obtain ⟨hpath, hkind⟩ := eq_str_of_requiredPair hp
    cases h
    exact ⟨_, _, _, .elements hpath hkind, rfl⟩
  | enclosing =>
    obtain ⟨path, hp, h⟩ := of_bind_ok h
    obtain ⟨row, hr, h⟩ := of_bind_ok h
    obtain ⟨column, hc, h⟩ := of_bind_ok h
    cases h
    exact ⟨_, _, _, .enclosing (eq_str_of_required hp) (eq_int_of_place hr) (eq_int_of_place hc), rfl⟩
  | comparison =>
    obtain ⟨p, hp, h⟩ := of_bind_ok h
    obtain ⟨content, hc, h⟩ := of_bind_ok h
    obtain ⟨hpath, hlanguage⟩ := eq_str_of_requiredPair hp
    cases h
    exact ⟨_, _, _, .comparison hpath hlanguage (mayGive_of_optional hc), rfl⟩

/-- What a tool shows is no error, and it is never the null that counts for nothing. -/
theorem Tool.Serves.shown {tool : Tool} {α : Type} {x : Action α} {shown : α → Part}
    (h : tool.Serves arguments x shown) (a : α) :
    (shown a).isError = false ∧ shown a ≠ .json .null := by
  cases h <;> exact ⟨rfl, nofun⟩

/-! ## Tokens -/

namespace Action

variable {setup : Setup} {s : State} {seconds : Float}

theorem counts_of_tokensOf {text : String} {n : Nat} (h : (tokensOf text setup s).result = .ok n) :
    setup.Counts text n := by
  cases he : setup.encoding? with
  | some e =>
    rw [tokensOf_of_some he] at h
    cases h
    exact .text text he
  | none =>
    by_cases ht : text = ""
    · subst ht
      cases h
      exact .empty
    · rw [tokensOf_of_none he ht] at h
      cases h

/-- The tokens of an answer with one part: none for an error, and otherwise those of its payload. -/
theorem answerTokens_single {part : Part} {n : Nat} (notNull : part ≠ .json .null)
    (h : (answerTokens [part] setup s).result = .ok n) :
    (part.isError = true → n = 0) ∧
      ∀ text, part.payload? = some text → setup.Counts text n := by
  have hpart : (partTokens part setup s).result = .ok n := by
    rw [answerTokens] at h
    obtain ⟨k, hk, h⟩ := of_bind_result_ok h
    cases h
    exact hk
  cases part with
  | text t =>
    refine ⟨fun hfailed => absurd hfailed Bool.false_ne_true, fun text ht => ?_⟩
    cases ht
    exact counts_of_tokensOf hpart
  | error message =>
    cases hpart
    exact ⟨fun _ => rfl, fun text ht => by cases ht⟩
  | json data =>
    have hdata : partTokens (.json data) = tokensOf (Json.compact data) := by
      cases data with
      | null => exact absurd rfl notNull
      | _ => rfl
    rw [hdata] at hpart
    refine ⟨fun hfailed => absurd hfailed Bool.false_ne_true, fun text ht => ?_⟩
    cases ht
    exact counts_of_tokensOf hpart

/-! ## Answers -/

/-- Every answer has one part, which comes from the operation of the tool or tells why there is none. -/
theorem answer_comes {a : Answer} (h : (answer name arguments setup s).result = .ok a) :
    ∃ part : Part, a = ⟨[part], part.isError⟩ ∧ part ≠ .json .null ∧
      Comes setup s name arguments part (answer name arguments setup s).state.index := by
  cases ht : Tool.named? name with
  | none =>
    have unknown := Tool.named?_eq_none_iff.mp ht
    rw [answer_run_of_unknown unknown] at h ⊢
    cases h
    exact ⟨.error (unknownTool name), rfl, by simp, .unknown unknown⟩
  | some tool =>
    have named := Tool.named?_eq_some_iff.mp ht
    cases hr : tool.request arguments with
    | error e =>
      have first := Tool.request_error_iff.mp hr
      rw [answer_run_of_first named first] at h ⊢
      cases h
      exact ⟨.error e.message, rfl, by simp, .unfit named first⟩
    | ok r =>
      have hcall : Request.ofCall? name arguments = some r := by
        rw [Request.ofCall?, ht]
        dsimp only
        rw [hr]
      obtain ⟨α, x, shown, serves, hrun⟩ := Tool.serves_of_request hr
      rw [answer_of_request setup s hcall, hrun] at h ⊢
      rcases hx : (x setup s).result with (e | f) | value
      · rw [bind_run_error hx] at h ⊢
        cases h
        exact ⟨.error e.message, rfl, by simp, .failed named serves hx⟩
      · rw [bind_run_error hx] at h
        cases h
      · rw [bind_run_ok hx] at h ⊢
        cases h
        obtain ⟨noError, notNull⟩ := serves.shown value
        exact ⟨shown value, by rw [noError], notNull, .value named serves hx⟩

/-- A request that returns an answer has counted it, and then it has reported it. -/
theorem request_reports {a : Answer} (h : (request name arguments seconds setup s).result = .ok a) :
    ∃ n, (answer name arguments setup s).result = .ok a ∧
      (answerTokens a.parts setup (answer name arguments setup s).state).result = .ok n ∧
      (request name arguments seconds setup s).effects =
        (answer name arguments setup s).effects ++
          (answerTokens a.parts setup (answer name arguments setup s).state).effects ++
          setup.record ⟨name, arguments, a.isError, a.errorText?, seconds * 1000, n⟩ := by
  obtain ⟨ha, ⟨n, hn⟩, takes⟩ := of_request_ok h
  refine ⟨n, ha, hn, ?_⟩
  rw [request_run_counted ha hn, Setup.delivered, if_pos takes]

end Action

/-- Whenever a request returns, in whatever state and for whatever arguments:

* its answer has one part, and exactly one event is handed to the sink, after everything else; the event
  carries the name of the tool and the arguments;
* the answer, its part and the event tell the same about failure. The event of a failure has the text of
  the part and no tokens, and any other one has the tokens of the text, or of the compact JSON of the data;
* the part shows the value or the error of the operation that the tool stands for, run in the same state,
  and the index is left as this operation leaves it. A call that is turned down leaves it as it was. -/
theorem request_reported {setup : Setup} {s : State} {name : String} {arguments : Table Value}
    {seconds : Float} {answer : Answer}
    (returned : (Action.request name arguments seconds setup s).result = .ok answer) :
    let run := Action.request name arguments seconds setup s
    ∃ part event before,
      answer.parts = [part] ∧
      run.effects = before ++ setup.record event ∧ (∀ effect ∈ before, effect.usage? = none) ∧
      event.tool = name ∧ event.arguments = arguments ∧
      (answer.isError = true ↔ ∃ text, part = .error text) ∧
      (answer.isError = true ↔ event.status = "error") ∧
      (answer.isError = true ↔ event.error ≠ none) ∧
      (∀ text, part = .error text → event.error = some text ∧ event.tokens = 0) ∧
      (∀ text, part.payload? = some text → ∃ n : Nat, event.tokens = n ∧ setup.Counts text n) ∧
      Comes setup s name arguments part run.state.index := by
  intro run
  obtain ⟨n, hanswer, hcount, heffects⟩ := Action.request_reports returned
  obtain ⟨part, rfl, notNull, comes⟩ := Action.answer_comes hanswer
  obtain ⟨hfailed, hpayload⟩ := Action.answerTokens_single notNull hcount
  refine ⟨part, _, _, rfl, heffects, ?_, rfl, rfl, ?_, ?_, ?_, ?_, ?_, ?_⟩
  · intro effect hm
    rcases List.mem_append.mp hm with hm | hm
    · exact Action.unreported_answer_run name arguments setup s effect hm
    · exact (Action.calm_answerTokens _ setup _).unreported effect hm
  · cases part <;> simp [Part.isError]
  · cases part <;> simp [Part.isError, Usage.status]
  · cases part <;> simp [Part.isError, Answer.errorText?]
  · rintro text rfl
    have hn := hfailed rfl
    exact ⟨rfl, by simp [hn]⟩
  · intro text ht
    exact ⟨n, rfl, hpayload text ht⟩
  · rw [Action.request_afterAnswer.1]
    exact comes

/-- The text of an answer that is one text. -/
def Answer.text? (answer : Answer) : Option String :=
  match answer.parts with
  | [.text t] => some t
  | _ => none

/-- A file that is parsed from a content, with tokens that are bytes. -/
theorem request_reported_parsed :
    let engine : Engine := ⟨fun name _ => .ok ⟨name⟩, fun _ _ => some default, fun _ _ => none⟩
    let setup := { plainSetup "gpt2" with engine := engine }
    let arguments := [("path", .str "a.py"), ("content", .str "x = 1")]
    let text := "Successfully parsed and indexed file: /a.py (language: python)"
    let run := Action.request "parse_file" arguments 2 setup {}
    ∃ answer event before, run.result = .ok answer ∧ answer.parts = [.text text] ∧
      run.effects = before ++ [.event event] ∧ event.tool = "parse_file" ∧
      event.arguments = arguments ∧ event.error = none ∧ event.tokens = 62 := by
  intro engine setup arguments text run
  have htext : run.result.toOption.bind Answer.text? = some text := by decide +kernel
  cases hrun : run.result with
  | error e =>
    rw [hrun] at htext
    cases htext
  | ok answer =>
    obtain ⟨part, event, before, hpart, heffects, -, htool, harguments, hfailed, -, herror, -,
      hpayload, -⟩ := request_reported hrun
    rw [hrun] at htext
    simp only [Except.toOption, Option.bind_some, Answer.text?, hpart] at htext
    cases part with
    | json data => cases htext
    | error message => cases htext
    | text t =>
      cases htext
      obtain ⟨n, hn, counts⟩ := hpayload text rfl
      have hcount : n = 62 := (counts.eq_count (e := .bytes) rfl).trans (by decide +kernel)
      have hnone : event.error = none := by
        by_contra hne
        obtain ⟨message, hm⟩ := hfailed.mp (herror.mpr hne)
        cases hm
      exact ⟨answer, event, before, rfl, hpart, heffects, htool, harguments, hnone, by rw [hn, hcount]; rfl⟩

end CodeIndex
