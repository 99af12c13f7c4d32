import CodeIndex.Proofs.Table
import CodeIndex.Proofs.Tool.Validation
import CodeIndex.Tool.Function

/-!
# CodeIndex.Proofs.Tool.Function

The functions of the server do what the tools do.

* `Arguments.Same`: arguments that differ in their order and in nulls that are left out. A tool does the
  same for them, and only its event tells them apart: `request_same`.
* `Setup.takes_perm`, `Setup.takes_erase`: a sink takes all of them or none.
* `Function.Accepts`, `Function.missing`: the keyword arguments that a function takes, and the parameters
  that are left out. `Function.arguments_perm`: none is lost, and the missing ones are null.
* `Function.Gives`: what a function returns or raises for an answer.
* `function_agrees`: calling a function is calling its tool.
-/

namespace CodeIndex

open Arguments

/-- Arguments that are read as the same. -/
def Arguments.Same (a b : Table Value) : Prop := ∀ key, argument a key = argument b key

variable {tool : Tool} {a b : Table Value}

/-- A request depends on what is read only. -/
theorem Tool.request_same (tool : Tool) (h : Same a b) : tool.request a = tool.request b := by
  unfold Same at h
  cases tool <;> simp only [Tool.request, texts, required, requiredPair, Arguments.optional, place, h]

/-! ## Events with other arguments -/

/-- The same effect, reporting other arguments. -/
def Effect.withArguments (arguments : Table Value) : Effect → Effect
  | .event u => .event { u with arguments }
  | .log (.usage u) => .log (.usage { u with arguments })
  | effect => effect

theorem Effect.withArguments_of_unreported {effect : Effect} (h : effect.usage? = none)
    (arguments : Table Value) : effect.withArguments arguments = effect := by
  cases effect with
  | event u => cases h
  | log notice =>
    cases notice with
    | usage u => cases h
    | _ => rfl
  | _ => rfl

theorem Effect.map_withArguments {effects : List Effect}
    (h : ∀ effect ∈ effects, effect.usage? = none) (arguments : Table Value) :
    effects.map (Effect.withArguments arguments) = effects :=
  List.map_congr_left (fun effect hm => withArguments_of_unreported (h effect hm) arguments)
    |>.trans (List.map_id effects)

theorem Setup.delivered_withArguments {setup : Setup} {event : Usage} {arguments : Table Value}
    (h : setup.Takes event.arguments ↔ setup.Takes arguments) :
    (setup.delivered event).map (Effect.withArguments arguments) =
      setup.delivered { event with arguments } := by
  have recorded : (setup.record event).map (Effect.withArguments arguments) =
      setup.record { event with arguments } := by
    unfold Setup.record Usage.notices
    cases setup.sink with
    | listener => rfl
    | log => cases setup.settings.usageLog <;> rfl
  unfold Setup.delivered
  by_cases takes : setup.Takes arguments
  · rw [if_pos (h.mpr takes), if_pos takes, recorded]
  · rw [if_neg (mt h.mp takes), if_neg takes, List.map_nil]

/-- The same run, reporting other arguments. -/
def Run.withArguments {α : Type} (arguments : Table Value) (run : Run α) : Run α :=
  { run with effects := run.effects.map (Effect.withArguments arguments) }

namespace Action

variable {setup : Setup} {s : State} {name : String} {seconds : Float}

theorem answer_same (name : String) (h : Same a b) : answer name a = answer name b := by
  unfold answer handle
  cases Tool.named? name with
  | none => rfl
  | some tool => simp only [tool.request_same h]

theorem unreported_answer_run (name : String) (arguments : Table Value) (setup : Setup) (s : State) :
    ∀ effect ∈ (answer name arguments setup s).effects, effect.usage? = none := by
  cases hcall : Request.ofCall? name arguments with
  | none =>
    obtain ⟨message, notices, hrun, hnotices⟩ := answer_of_none setup s hcall
    rw [hrun]
    exact hnotices
  | some r =>
    by_cases hn : r.HasNul
    · rw [answer_of_request setup s hcall, request_run_of_hasNul hn]
      simp
    · exact unreported_answer hcall setup s hn

/-- What an operation does before it reports does not depend on what is reported. -/
theorem bind_withArguments {α β : Type} {x : Action α} {f g : α → Action β} {arguments : Table Value}
    (hx : ∀ effect ∈ (x setup s).effects, effect.usage? = none)
    (h : ∀ c, g c setup (x setup s).state = (f c setup (x setup s).state).withArguments arguments) :
    (x >>= g) setup s = ((x >>= f) setup s).withArguments arguments := by
  have hsame := Effect.map_withArguments hx arguments
  rw [bind_run, bind_run]
  cases (x setup s).result with
  | error e => simp [Run.withArguments, hsame]
  | ok c => simp [Run.withArguments, h, hsame]

/-- A request does the same for arguments that are read as the same, and reports those that it got. -/
theorem request_same (h : Same a b) (takes : setup.Takes a ↔ setup.Takes b) :
    request name b seconds setup s = (request name a seconds setup s).withArguments b := by
  rw [request, request, ← answer_same name h]
  refine bind_withArguments (unreported_answer_run name a setup s) fun answered => ?_
  refine bind_withArguments (calm_answerTokens answered.parts setup _).unreported fun n => ?_
  rw [report_returns, report_returns]
  simp [Run.withArguments, Setup.returned, Setup.delivered_withArguments, takes]

end Action

/-! ## Sinks -/

theorem Value.levelsFields_le_iff {fields : Table Value} {n : Nat} :
    levelsFields fields ≤ n ↔ ∀ p ∈ fields, p.2.levels ≤ n := by
  induction fields with
  | nil => simp [levelsFields]
  | cons p fields ih => rw [levelsFields, List.forall_mem_cons, Nat.max_le, ih]

namespace Setup

variable {setup : Setup} {arguments : Table Value}

/-- What counts for a log is the depth of each argument. -/
theorem takes_iff : setup.Takes arguments ↔ (setup.sink = .log → setup.settings.usageLog = true →
    0 < setup.room ∧ ∀ p ∈ arguments, p.2.levels ≤ setup.room - 1) := by
  have levels : (Value.obj arguments).levels ≤ setup.room ↔
      0 < setup.room ∧ ∀ p ∈ arguments, p.2.levels ≤ setup.room - 1 := by
    rw [← Value.levelsFields_le_iff, Value.levels]
    omega
  rw [Takes, levels]

theorem takes_perm (h : a.Perm b) : setup.Takes a ↔ setup.Takes b := by
  simp only [takes_iff, h.mem_iff]

/-- Among distinct keys, one with null may be left out. -/
theorem takes_erase {key : String} (hnull : arguments.get? key = some .null)
    (distinct : setup.sink = .log → (arguments.map Prod.fst).Nodup) :
    setup.Takes arguments ↔ setup.Takes (arguments.erase key) := by
  rw [takes_iff, takes_iff]
  refine forall_congr' fun log => forall_congr' fun _ => and_congr_right fun _ => ?_
  constructor
  · exact fun h p hm => h p (Table.mem_erase.mp hm).1
  · intro h p hm
    by_cases hk : p.1 = key
    · have hp : arguments.get? key = some p.2 := by
        rw [← Table.mem_iff_get? (distinct log), ← hk]
        exact hm
      rw [hnull] at hp
      rw [← Option.some.inj hp]
      exact Nat.zero_le _
    · exact h p (Table.mem_erase.mpr ⟨hm, hk⟩)

end Setup

/-! ## Keyword arguments -/

namespace Function

variable {given args : Table Value}

/-- Keyword arguments that a function takes: it has a parameter for each of them, and gets all that
it requires. A server that also checks them against the types of the parameters lets fewer calls through;
these checks are left out. -/
structure Accepts (tool : Tool) (given : Table Value) : Prop where
  distinct : (given.map Prod.fst).Nodup
  known : ∀ key ∈ given.map Prod.fst, ∃ p ∈ parametersOf tool, p.name = key
  complete : ∀ p ∈ parametersOf tool, p.required = true → p.name ∈ given.map Prod.fst

/-- The optional parameters that are left out, as null. -/
def missing (tool : Tool) (given : Table Value) : Table Value :=
  ((parametersOf tool).filter fun p => !p.required && !given.contains p.name).map fun p =>
    (p.name, .null)

theorem distinct_parameters (tool : Tool) : ((parametersOf tool).map Parameter.name).Nodup := by
  cases tool <;> decide

theorem distinct_arguments (tool : Tool) (given : Table Value) :
    ((arguments tool given).map Prod.fst).Nodup := by
  rw [arguments, List.map_map]
  exact distinct_parameters tool

theorem mem_missing {p : String × Value} : p ∈ missing tool given ↔
    ∃ q ∈ parametersOf tool, q.required = false ∧ given.get? q.name = none ∧ (q.name, .null) = p := by
  simp [missing, Table.contains, and_assoc]

theorem distinct_filled (h : Accepts tool given) :
    ((given ++ missing tool given).map Prod.fst).Nodup := by
  rw [List.map_append, List.nodup_append]
  refine ⟨h.distinct, ?_, ?_⟩
  · rw [missing, List.map_map]
    exact (distinct_parameters tool).sublist (List.filter_sublist.map _)
  · rintro key hgiven _ hmissing rfl
    obtain ⟨p, hp, rfl⟩ := List.mem_map.mp hmissing
    obtain ⟨q, -, -, hnone, rfl⟩ := mem_missing.mp hp
    exact Table.get?_eq_none_iff.mp hnone hgiven

/-- A function hands on what it is given, with null for what is left out. -/
theorem arguments_perm (h : Accepts tool given) :
    (arguments tool given).Perm (given ++ missing tool given) := by
  rw [List.perm_ext_iff_of_nodup (List.Nodup.of_map _ (distinct_arguments tool given))
    (List.Nodup.of_map _ (distinct_filled h))]
  rintro ⟨key, v⟩
  rw [List.mem_append, Table.mem_iff_get? h.distinct, mem_missing, arguments, List.mem_map]
  constructor
  · rintro ⟨p, hp, he⟩
    cases he
    cases hg : given.get? p.name with
    | some v => exact .inl (by simp [argument, hg])
    | none =>
      refine .inr ⟨p, hp, ?_, hg, by simp [argument, hg]⟩
      by_contra hr
      exact Table.get?_eq_none_iff.mp hg (h.complete p hp (by simpa using hr))
  · rintro (hg | ⟨p, hp, -, hg, he⟩)
    · have hkey : key ∈ given.map Prod.fst := List.mem_map_of_mem (Table.mem_of_get? hg)
      obtain ⟨p, hp, rfl⟩ := h.known key hkey
      exact ⟨p, hp, by simp [argument, hg]⟩
    · cases he
      exact ⟨p, hp, by simp [argument, hg]⟩

theorem same_of_perm (h : Accepts tool given) (filled : args.Perm (given ++ missing tool given)) :
    Same args (arguments tool given) := by
  intro key
  have hperm : (arguments tool given).Perm args := (arguments_perm h).trans filled.symm
  rw [argument, argument, Table.get?_perm hperm (distinct_arguments tool given)]

/-! ## Answers and what becomes of them -/

/-- The text of an error is raised; any other text, or the data, is returned. -/
inductive Gives : Answer → Except Raised Payload → Prop where
  | raised (message : String) : Gives (.error message) (.error ⟨message⟩)
  | text (t : String) : Gives (.text t) (.ok (.text t))
  | json (v : Value) : Gives (.structured v) (.ok (.json v))

theorem Gives.unwrap {answer : Answer} {outcome : Except Raised Payload} (h : Gives answer outcome) :
    unwrap answer = outcome := by
  cases h <;> rfl

theorem Gives.raises_iff {answer : Answer} {outcome : Except Raised Payload}
    (h : Gives answer outcome) : (∃ raised, outcome = .error raised) ↔ answer.isError = true := by
  cases h <;> simp [Answer.error, Answer.text, Answer.structured]

theorem gives_of_regular {answer : Answer} (h : answer.Regular) : ∃ outcome, Gives answer outcome := by
  cases h with
  | text t => exact ⟨_, .text t⟩
  | items vs => exact ⟨_, .json _⟩
  | fields fs => exact ⟨_, .json _⟩

theorem gives_of_request_ok {name : String} {seconds : Float} {setup : Setup} {s : State}
    {answer : Answer} (h : (Action.request name args seconds setup s).result = .ok answer) :
    ∃ outcome, Gives answer outcome := by
  cases hcall : Request.ofCall? name args with
  | none =>
    obtain ⟨message, notices, hrun, -⟩ := Action.answer_of_none setup s hcall
    have hanswer := Action.answer_of_request_ok h
    rw [hrun] at hanswer
    cases hanswer
    exact ⟨_, .raised message⟩
  | some r =>
    rcases Action.answered_of_answer hcall (Action.answer_of_request_ok h) with regular | ⟨e, -, rfl⟩
    · exact gives_of_regular regular
    · exact ⟨_, .raised e.message⟩

end Function

theorem Table.same_erase {table : Table Value} {key : String} (h : table.get? key = some .null) :
    Same table (table.erase key) := by
  intro other
  rw [argument, argument, get?_erase]
  split
  · rename_i hk
    rw [← hk, h]
    rfl
  · rfl

/-- In every state, for all keyword arguments that a function accepts: calling it is calling its tool
with these arguments and with null for those that are left out, in any order.

* A fault of the one is the fault of the other. For an answer the function raises the text of an error,
  and returns any other text or the data; it raises just for an error.
* Both leave the same state, with the same effects. Only the arguments that are reported come in the
  order of the parameters.
* Parsing does the same whether the language or the content is null or left out. For a log the arguments are
  those of a mapping, with distinct keys: a pair that is never read still counts for its room. -/
theorem function_agrees {tool : Tool} {given args : Table Value} (accepted : Function.Accepts tool given)
    (filled : args.Perm (given ++ Function.missing tool given)) (setup : Setup) (s : State) :
    let called := Function.call tool given setup s
    let run := Action.request tool.name args 0 setup s
    let passed := Function.arguments tool given
    (∀ e, called.result = .error e ↔ run.result = .error e) ∧
    (∀ answer, run.result = .ok answer → ∃ outcome, called.result = .ok outcome ∧
      Function.Gives answer outcome ∧ ((∃ raised, outcome = .error raised) ↔ answer.isError = true)) ∧
    called.state = run.state ∧
    passed.Perm args ∧ called.effects = run.effects.map (Effect.withArguments passed) ∧
    (args = passed → called.effects = run.effects) ∧
    ∀ key ∈ ["language", "content"], ∀ (arguments : Table Value) (seconds : Float),
      arguments.get? key = some .null → (setup.sink = .log → (arguments.map Prod.fst).Nodup) →
        Action.request Tool.reparse.name (arguments.erase key) seconds setup s =
          (Action.request Tool.reparse.name arguments seconds setup s).withArguments
            (arguments.erase key) := by
  intro called run passed
  have perm : passed.Perm args := (Function.arguments_perm accepted).trans filled.symm
  have same : Action.request tool.name passed 0 setup s = run.withArguments passed :=
    Action.request_same (Function.same_of_perm accepted filled) (Setup.takes_perm perm.symm)
  have hcalled : called = _ := Action.bind_run (Action.request tool.name passed 0) _ setup s
  have heffects : called.effects = (Action.request tool.name passed 0 setup s).effects := by
    rw [hcalled]
    cases (Action.request tool.name passed 0 setup s).result <;> simp
  rw [same] at hcalled
  simp only [Run.withArguments] at hcalled
  refine ⟨?_, ?_, ?_, perm, ?_, ?_, ?_⟩
  · intro e
    rw [hcalled]
    cases run.result <;> simp
  · intro answer hanswer
    obtain ⟨outcome, gives⟩ := Function.gives_of_request_ok hanswer
    refine ⟨outcome, ?_, gives, gives.raises_iff⟩
    rw [hcalled, hanswer, ← gives.unwrap]
    rfl
  · rw [hcalled]
    cases run.result <;> rfl
  · rw [heffects, same]
    rfl
  · rintro rfl
    exact heffects
  · intro key hkey arguments seconds hnull distinct
    exact Action.request_same (Table.same_erase hnull) (Setup.takes_erase hnull distinct)

/-- A file that cannot be parsed: the content comes before the path, and the language is left out. -/
theorem function_agrees_unparsed :
    let setup := plainSetup "cl100k_base"
    let given : Table Value := [("content", .str "x = 1"), ("path", .str "a.py")]
    let args : Table Value := given ++ [("language", .null)]
    let message := "Failed to parse file: /a.py. The parser returned no tree."
    Function.Accepts .reparse given ∧ args.Perm (given ++ Function.missing .reparse given) ∧
      (Action.request Tool.reparse.name args 0 setup {}).result = .ok (.error message) ∧
      (Function.call .reparse given setup {}).result = .ok (.error ⟨message⟩) := by
  intro setup given args message
  have accepted : Function.Accepts .reparse given := by
    refine ⟨by decide, ?_, ?_⟩
    · simp [given, Function.parametersOf]
    · simp [given, Function.parametersOf]
  have filled : args.Perm (given ++ Function.missing .reparse given) := .refl _
  have htext : (Action.request Tool.reparse.name args 0 setup {}).result.toOption.bind
      Answer.errorText? = some message := by decide +kernel
  cases hrun : (Action.request Tool.reparse.name args 0 setup {}).result with
  | error e =>
    rw [hrun] at htext
    cases htext
  | ok answer =>
    rw [hrun] at htext
    obtain ⟨-, answers, -⟩ := function_agrees accepted filled setup {}
    obtain ⟨outcome, hcalled, gives, -⟩ := answers answer hrun
    cases gives with
    | raised text =>
      cases htext
      exact ⟨accepted, filled, rfl, hcalled⟩
    | text t => cases htext
    | json v => cases htext

end CodeIndex
