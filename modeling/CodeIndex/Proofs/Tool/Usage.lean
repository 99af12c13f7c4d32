import CodeIndex.Proofs.Json.Ascii
import CodeIndex.Proofs.Tool.Boundary

/-!
# CodeIndex.Proofs.Tool.Usage

The line that is logged about a request, and what can be read from it.

* `Usage.text_eq`: the arguments stand between a lead and the text of the error.
* `logged_arguments_decode`: they are written in one printable line, and are read back from it.
* `deep_arguments_unlogged`: where they are nested too deep, nothing is written.
-/

namespace CodeIndex

namespace Usage

/-- What is written before the arguments. -/
def lead (e : Usage) : String :=
  "tool_usage tool=" ++ e.tool ++ " status=" ++ e.status ++
    " duration_ms=" ++ Places.ofFloat 1 e.milliseconds ++
    " output_tokens=" ++ String.ofList (Json.intText e.tokens) ++ " input="

theorem text_eq (e : Usage) : e.text = e.lead ++ Json.asciiText (.obj e.arguments) ++ e.errorPart :=
  rfl

theorem ends_errorPart (e : Usage) : Json.Ends e.errorPart.toList := by
  unfold errorPart
  cases e.error with
  | none => exact Json.ends_nil
  | some message =>
    dsimp only
    split
    · exact Json.ends_nil
    · rw [String.toList_append]
      exact Json.ends_cons (.inl (by decide))

end Usage

/-- What is logged about a request whose arguments have no doubles in them and no key twice in one object:

* the message has the arguments in printable ASCII, and so in one line;
* this is JSON for the arguments and for nothing else, in their order. It is read as what their compact text
  is read as, and a reader that goes on where it begins stops in front of the error;
* events with other arguments have another text there;
* a log that is switched on gets this one message, unless its encoder has no room for the arguments: then it
  gets nothing, and reporting ends in a fault. A log that is switched off gets nothing. -/
theorem logged_arguments_decode {event : Usage} (exact : (Value.obj event.arguments).Exact) :
    let arguments : Value := .obj event.arguments
    let json := Json.asciiText arguments
    (Notice.usage event).message = event.lead ++ json ++ event.errorPart ∧
      Json.Printable json.toList ∧
      (∀ v, Json.Grammar.Text Json.spaces json.toList v ↔ v = arguments) ∧
      (Json.read? json = some arguments ∧ Json.read? (Json.compact arguments) = some arguments) ∧
      (∃ fuel, Json.value? fuel (json ++ event.errorPart).toList =
        some (arguments, event.errorPart.toList)) ∧
      (∀ other : Usage, (Value.obj other.arguments).Exact →
        Json.asciiText (.obj other.arguments) = json → other.arguments = event.arguments) ∧
      ∀ (setup : Setup) (s : State), setup.sink = .log →
        Action.report event setup s =
          if setup.settings.usageLog = true then
            if arguments.levels ≤ setup.room then ⟨.ok (), s, [.log (.usage event)]⟩
            else ⟨.error (.fault Usage.tooDeep), s, []⟩
          else ⟨.ok (), s, []⟩ := by
  intro arguments json
  have read : Json.read? json = some arguments := Json.read?_asciiText exact
  refine ⟨event.text_eq, ?_, ?_, ⟨read, Json.read?_compact exact⟩, ⟨json.length, ?_⟩, ?_, ?_⟩
  · rw [show json.toList = _ from String.toList_ofList]
    exact Json.printable_text exact
  · intro v
    constructor
    · exact fun h => h.unique (Json.text_asciiText exact)
    · rintro rfl
      exact Json.text_asciiText exact
  · rw [String.toList_append]
    exact Json.value?_asciiText exact event.ends_errorPart
  · intro other exact' same
    have read' := Json.read?_asciiText exact'
    rw [same, read] at read'
    exact (Value.obj.inj (Option.some.inj read')).symm
  · intro setup s log
    have takes : setup.Takes event.arguments ↔
        (setup.settings.usageLog = true → arguments.levels ≤ setup.room) := by
      simp [Setup.Takes, log, arguments]
    rw [Action.report_run]
    unfold Setup.returned Setup.delivered Setup.record Usage.notices
    rw [log]
    by_cases enabled : setup.settings.usageLog = true
    · by_cases roomy : arguments.levels ≤ setup.room
      · simp [takes, enabled, roomy]
      · simp [takes, enabled, roomy]
    · simp [takes, enabled]

/-- A control character, one beyond the basic plane, and one value in another. -/
theorem logged_arguments_decode_nested :
    let event : Usage :=
      ⟨"t", [("k\x7f", .arr [.str "😀\n", .obj [], .int (-3)]), ("", .null)], true, some "no", 0, 0⟩
    let setup := { plainSetup "gpt2" with sink := .log }
    (Value.obj event.arguments).Exact ∧
      Json.asciiText (.obj event.arguments) =
        "\x7b\"k\\u007f\": [\"\\ud83d\\ude00\\n\", \x7b\x7d, -3], \"\": null\x7d" ∧
      Json.read? (Json.asciiText (.obj event.arguments)) = some (.obj event.arguments) ∧
      Action.report event setup {} = ⟨.ok (), {}, [.log (.usage event)]⟩ := by
  intro event setup
  have items : (Value.arr [.str "😀\n", .obj [], .int (-3)]).Exact := by
    refine .arr ?_
    simp only [List.forall_mem_cons, List.not_mem_nil, false_implies, implies_true, and_true]
    exact ⟨.str _, .obj (by decide) (by simp), .int _⟩
  have exact : (Value.obj event.arguments).Exact := by
    refine .obj (by decide) ?_
    simp only [event, List.forall_mem_cons, List.not_mem_nil, false_implies, implies_true, and_true]
    exact ⟨items, .null⟩
  obtain ⟨-, -, -, ⟨read, -⟩, -, -, logs⟩ := logged_arguments_decode exact
  exact ⟨exact, by decide +kernel, read, logs setup {} rfl⟩

theorem Value.exact_nested (n : Nat) : (nested n).Exact := by
  induction n with
  | zero => exact .null
  | succ n ih => exact .arr (by simpa using ih)

/-- A thousand arrays in each other fill the room of the log, which then gets nothing. Their compact text is
written and read back like any other. -/
theorem deep_arguments_unlogged :
    let arguments : Table Value := [("k", .nested 1000)]
    let event : Usage := ⟨"t", arguments, false, none, 0, 0⟩
    let setup := { plainSetup "gpt2" with sink := .log }
    (Value.obj arguments).Exact ∧ setup.settings.usageLog = true ∧
      Action.report event setup {} = ⟨.error (.fault Usage.tooDeep), {}, []⟩ ∧
      Json.read? (Json.compact (.obj arguments)) = some (.obj arguments) := by
  intro arguments event setup
  have exact : (Value.obj arguments).Exact :=
    .obj (by simp [arguments]) (by simpa [arguments] using Value.exact_nested 1000)
  have full : ¬setup.Takes event.arguments :=
    Setup.not_takes_nested rfl rfl "k" (Nat.le_refl _)
  refine ⟨exact, rfl, ?_, Json.read?_compact exact⟩
  rw [Action.report_run, Setup.returned, Setup.delivered, if_neg full, if_neg full]

end CodeIndex
