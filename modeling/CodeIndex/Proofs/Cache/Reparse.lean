import CodeIndex.Proofs.Session.Reachable

/-!
# CodeIndex.Proofs.Cache.Reparse

Parsing in any case, and forgetting the entry and then looking the path up.

* `parse_agree`: a parse in two states with the same surroundings has the same outcome, and makes the
  same document if equally many were made before.
* `reparse_eq_document`: both ways to a new entry do the same. Where they fail, the one leaves the
  cache as it was, and the other one has lost the entry.
* `document_error`, `reparse_error`: a failure leaves the cache as it was, and the registry has at most
  gained the grammar of the language.
* `reparse_atomic`: all of this in every state of a session.
-/

namespace CodeIndex
namespace Action

variable {file path : String} {language content : Option String} {setup : Setup} {s t : State}

/-- The same outcome, with the same effects, and afterwards everything but the documents is the same. -/
structure SameOutcome {α : Type} (a b : Run α) : Prop where
  result : a.result = b.result
  effects : a.effects = b.effects
  registry : a.state.index.registry = b.state.index.registry
  world : a.state.world = b.state.world

theorem parse_agree (registry : s.index.registry = t.index.registry) (world : s.world = t.world)
    (made : s.index.made = t.index.made) :
    SameOutcome (parse file language content setup s) (parse file language content setup t) := by
  have hview : View.surroundings.get s = View.surroundings.get t := by
    simp only [View.surroundings, registry, world]
  obtain ⟨hresult, heffects, hget⟩ := (apart_prepare file language content).agree hview setup
  obtain ⟨hregistry, hworld⟩ := Prod.mk.inj hget
  cases hp : (prepare file language content setup s).result with
  | error e =>
    rw [parse_run_error hp, parse_run_error (hresult ▸ hp)]
    exact ⟨rfl, heffects, hregistry, hworld⟩
  | ok p =>
    rw [parse_run_ok hp, parse_run_ok (hresult ▸ hp), made]
    exact ⟨rfl, by rw [heffects], hregistry, hworld⟩

/-- Parsing in any case has the same outcome as forgetting the entry and looking the path up. -/
theorem reparse_eq_document (path : String) (language content : Option String) (setup : Setup)
    (s : State) :
    SameOutcome (reparse path language content setup s)
      (document path language content setup (forget path setup s).state) := by
  cases hf : fileOf? setup path with
  | none =>
    rw [reparse_run_none hf, forget_run_none hf, document_run_none hf]
    exact ⟨rfl, rfl, rfl, rfl⟩
  | some file =>
    have hmiss : (withoutEntry s file).index.cache.get? file = none := by
      simp [withoutEntry, Table.get?_erase]
    rw [reparse_run hf, forget_run hf, document_run_miss hf hmiss]
    exact parse_agree rfl rfl rfl

/-- After a success both ways have led to the same entries. -/
theorem reparse_cache {d : Document}
    (h : (reparse path language content setup s).result = .ok d) (other : String) :
    (reparse path language content setup s).state.index.cache.get? other =
      (document path language content setup (forget path setup s).state).state.index.cache.get?
        other := by
  have hd := h
  rw [(reparse_eq_document path language content setup s).result] at hd
  cases hf : fileOf? setup path with
  | none =>
    rw [reparse_run_none hf] at h
    cases h
  | some file =>
    have hmiss : (withoutEntry s file).index.cache.get? file = none := by
      simp [withoutEntry, Table.get?_erase]
    rw [forget_run hf, document_run_miss hf hmiss] at hd ⊢
    rw [reparse_run hf] at h ⊢
    rw [(parse_ok h).2.2.2, (parse_ok hd).2.2.2, Table.get?_insert, Table.get?_insert]
    by_cases he : file = other
    · rw [if_pos he, if_pos he]
    · rw [if_neg he, if_neg he]
      simp only [withoutEntry, Table.get?_erase, if_neg he]

/-! ## Failures -/

/-- A failure that has left the documents as they were. The registry has gained at most the grammar
of the language that was chosen for the file, which the loader has answered. -/
structure Unharmed (setup : Setup) (s s' : State) (language : Option String) (path : String) :
    Prop where
  cache : s'.index.cache = s.index.cache
  made : s'.index.made = s.index.made
  grammars : s'.index.registry.grammars = s.index.registry.grammars ∨
    ∃ file name, fileOf? setup path = some file ∧ Language.choose language file = .ok name ∧
      GainsOnly setup s s' name

theorem unharmed_refl (setup : Setup) (s : State) (language : Option String) (path : String) :
    Unharmed setup s s language path :=
  ⟨rfl, rfl, .inl rfl⟩

theorem unharmed_parse (coherent : s.index.registry.Coherent) (settled : s.index.registry.Settled)
    (hf : fileOf? setup path = some file) {e : Failure}
    (h : (parse file language content setup s).result = .error e) :
    Unharmed setup s (parse file language content setup s).state language path := by
  obtain ⟨hmade, hcache⟩ := parse_error h
  refine ⟨hcache, hmade, ?_⟩
  cases hp : (prepare file language content setup s).result with
  | ok p =>
    rw [parse_run_ok hp] at h
    cases h
  | error e' =>
    rw [parse_run_error hp]
    rcases gainsOnly_prepare coherent settled setup file language content with
      hg | ⟨name, hname, hg⟩
    · exact .inl hg
    · exact .inr ⟨file, name, hf, hname, hg⟩

theorem reparse_error (coherent : s.index.registry.Coherent) (settled : s.index.registry.Settled)
    {e : Failure} (h : (reparse path language content setup s).result = .error e) :
    Unharmed setup s (reparse path language content setup s).state language path := by
  cases hf : fileOf? setup path with
  | none =>
    rw [reparse_run_none hf]
    exact unharmed_refl setup s language path
  | some file =>
    rw [reparse_run hf] at h ⊢
    exact unharmed_parse coherent settled hf h

theorem document_error (coherent : s.index.registry.Coherent) (settled : s.index.registry.Settled)
    {e : Failure} (h : (document path language content setup s).result = .error e) :
    Unharmed setup s (document path language content setup s).state language path := by
  cases hf : fileOf? setup path with
  | none =>
    rw [document_run_none hf]
    exact unharmed_refl setup s language path
  | some file =>
    cases hd : s.index.cache.get? file with
    | some d =>
      rw [document_run_hit hf hd] at h
      cases h
    | none =>
      rw [document_run_miss hf hd] at h ⊢
      exact unharmed_parse coherent settled hf h

end Action

/-- In every state of a session, where no load is under way: parsing in any case has the same result, effects,
registry and world as forgetting the entry and looking the path up, and after a success the entries are the
same. Where it or the lookup fails, the cache is as it was, and the registry has gained at most the grammar of
the language of the file, which the loader has answered. A grammar that another load registers while this one
waits is no change of this operation, and is not described here. -/
theorem reparse_atomic (setup : Setup) (disk : Disk) (steps : List Step) (path : String)
    (language content : Option String) :
    let s := (Session.run setup (Session.start disk) steps).state
    let direct := Action.reparse path language content setup s
    let fresh := Action.document path language content setup (Action.forget path setup s).state
    let lookup := Action.document path language content setup s
    Action.SameOutcome direct fresh ∧
      (∀ d, direct.result = .ok d → ∀ file,
        direct.state.index.cache.get? file = fresh.state.index.cache.get? file) ∧
      (∀ e, direct.result = .error e → Action.Unharmed setup s direct.state language path) ∧
      (∀ e, lookup.result = .error e → Action.Unharmed setup s lookup.state language path) := by
  intro s direct fresh lookup
  have tidy := Session.tidy_run setup disk steps
  refine ⟨Action.reparse_eq_document path language content setup s, ?_, ?_, ?_⟩
  · intro d hd file
    exact Action.reparse_cache hd file
  · intro e he
    exact Action.reparse_error tidy.coherent tidy.settled he
  · intro e he
    exact Action.document_error tidy.coherent tidy.settled he

end CodeIndex
