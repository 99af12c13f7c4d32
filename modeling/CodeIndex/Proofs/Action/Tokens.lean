import CodeIndex.Lookup.Comparison

/-!
# CodeIndex.Proofs.Action.Tokens

What counting tokens gives. It fails just when a text is not empty and there is no encoding for it,
since neither the index nor the environment names one.
-/

namespace CodeIndex

/-- The encoding that texts are counted with. -/
def Setup.encoding? (setup : Setup) : Option Encoding :=
  match setup.encoding with
  | some e => some e
  | none => setup.vocabulary? setup.settings.encoding

namespace Action

variable {α β : Type} {setup : Setup}

theorem bind_result_ok {x : Action α} {s : State} {a : α} (h : (x setup s).result = .ok a)
    (f : α → Action β) : ((x >>= f) setup s).result = (f a setup (x setup s).state).result := by
  rw [bind_run_ok h]

theorem bind_result_error {x : Action α} {s : State} {e : Failure}
    (h : (x setup s).result = .error e) (f : α → Action β) :
    ((x >>= f) setup s).result = .error e := by
  rw [bind_run_error h]

/-- An operation that succeeds has succeeded in its first part, and then in the rest. -/
theorem of_bind_result_ok {x : Action α} {f : α → Action β} {s : State} {b : β}
    (h : ((x >>= f) setup s).result = .ok b) :
    ∃ a, (x setup s).result = .ok a ∧ (f a setup (x setup s).state).result = .ok b := by
  cases hx : (x setup s).result with
  | error e =>
    rw [bind_result_error hx] at h
    cases h
  | ok a => exact ⟨a, rfl, by rw [← bind_result_ok hx f, h]⟩

/-- Two runs with the same result in both parts. -/
theorem bind_result_congr {x : Action α} {f : α → Action β} {s t : State}
    (hx : (x setup t).result = (x setup s).result)
    (hf : ∀ a, (f a setup (x setup t).state).result = (f a setup (x setup s).state).result) :
    ((x >>= f) setup t).result = ((x >>= f) setup s).result := by
  cases hr : (x setup s).result with
  | error e => rw [bind_result_error hr, bind_result_error (hx.trans hr)]
  | ok a => rw [bind_result_ok hr, bind_result_ok (hx.trans hr), hf]

theorem setup_bind_run (f : Setup → Action β) (s : State) :
    (Action.setup >>= f) setup s = f setup setup s := rfl

theorem takeVocabulary_ok (name : String) (s : State) :
    (takeVocabulary name setup s).result = .ok () := by
  rw [takeVocabulary, bind_result_ok (rfl : (state setup s).result = .ok s)]
  split <;> rfl

theorem environmentEncoding_result (s : State) :
    (environmentEncoding setup s).result =
      match setup.vocabulary? setup.settings.encoding with
      | some e => .ok e
      | none => .error (.fault (.unknownEncoding setup.settings.encoding)) := by
  rw [environmentEncoding, setup_bind_run]
  cases setup.vocabulary? setup.settings.encoding with
  | none => rfl
  | some e =>
    dsimp only
    rw [bind_result_ok (takeVocabulary_ok _ _)]
    rfl

theorem encoding_result (s : State) :
    (encoding setup s).result =
      match setup.encoding? with
      | some e => .ok e
      | none => .error (.fault (.unknownEncoding setup.settings.encoding)) := by
  rw [encoding, setup_bind_run, Setup.encoding?]
  cases setup.encoding with
  | none => exact environmentEncoding_result _
  | some e => rfl

theorem tokensOf_of_some {e : Encoding} (h : setup.encoding? = some e) (text : String) (s : State) :
    (tokensOf text setup s).result = .ok (e.count text) := by
  have he : (encoding setup s).result = .ok e := by
    rw [encoding_result, h]
  unfold tokensOf
  split
  · rename_i ht
    rw [ht, e.count_empty]
    rfl
  · rw [bind_result_ok he]
    rfl

theorem tokensOf_of_none (h : setup.encoding? = none) {text : String} (ht : text ≠ "") (s : State) :
    (tokensOf text setup s).result =
      .error (.fault (.unknownEncoding setup.settings.encoding)) := by
  have he : (encoding setup s).result =
      .error (.fault (.unknownEncoding setup.settings.encoding)) := by
    rw [encoding_result, h]
  rw [tokensOf, if_neg ht, bind_result_error he]

theorem tokensOf_result (text : String) (s t : State) :
    (tokensOf text setup t).result = (tokensOf text setup s).result := by
  cases h : setup.encoding? with
  | some e => rw [tokensOf_of_some h, tokensOf_of_some h]
  | none =>
    by_cases ht : text = ""
    · rw [tokensOf, if_pos ht]
      rfl
    · rw [tokensOf_of_none h ht, tokensOf_of_none h ht]

/-- A comparison does not depend on the state. -/
theorem comparison_result (text : Node → String) (root : Node) (source : String) (s t : State) :
    (Comparison.ofNode text root source setup t).result =
      (Comparison.ofNode text root source setup s).result := by
  unfold Comparison.ofNode
  exact bind_result_congr (tokensOf_result _ _ _) fun _ => bind_result_congr (tokensOf_result _ _ _)
    fun _ => bind_result_congr (tokensOf_result _ _ _) fun _ => rfl

theorem comparison_of_some {e : Encoding} (h : setup.encoding? = some e) (text : Node → String)
    (root : Node) (source : String) (s : State) :
    (Comparison.ofNode text root source setup s).result = .ok
      { sourceTokens := e.count source
        concreteTokens := e.count (Concrete.ofNode text root).compactText
        thinTokens := e.count (Thin.compactText (Thin.ofNode? text root))
        concrete := Concrete.ofNode text root
        thin := Thin.ofNode? text root } := by
  rw [Comparison.ofNode, bind_result_ok (tokensOf_of_some h _ _),
    bind_result_ok (tokensOf_of_some h _ _), bind_result_ok (tokensOf_of_some h _ _)]
  rfl

end Action
end CodeIndex
