import CodeIndex.Proofs.Registry.Batch
import CodeIndex.Proofs.Session.Reachable
import CodeIndex.Proofs.Tool.Boundary

/-!
# CodeIndex.Proofs.Action.Batch

Loading many languages together, as operations on the state and as a tool.

* `startLoads_run`, `failFirst_run`, `endLoads_run`: what starting and ending several calls does.
* `loadTogether_run`, `loadEach_run`: where nothing is pending, the registry goes through a batch, and both
  report how its calls have ended.
* `batch_loads`: what a batch leads to in any order of events, and that the tool for loading answers with
  success just when all of its calls have returned.
-/

namespace CodeIndex

/-- The failure of a load call, if it has failed. -/
def Registry.failureAt (r : Registry) (call : Nat) : Option Failure :=
  match r.calls[call]? with
  | some ⟨name, _, .raised fault⟩ => some (.error (.noGrammar name fault))
  | _ => none

/-- How an operation ends that fails with this failure. -/
def endingOf (failure : Option Failure) : Except Failure Unit :=
  match failure with
  | some e => .error e
  | none => .ok ()

theorem endingOf_eq_ok {failure : Option Failure} : endingOf failure = .ok () ↔ failure = none := by
  cases failure with
  | none => exact ⟨fun _ => rfl, fun _ => rfl⟩
  | some e => exact ⟨fun h => (by cases h), fun h => (by cases h)⟩

theorem Registry.eq_noGrammar_of_failureAt {r : Registry} {i : Nat} {e : Failure}
    (h : r.failureAt i = some e) : ∃ name fault, e = .error (.noGrammar name fault) := by
  unfold failureAt at h
  split at h
  · cases h
    exact ⟨_, _, rfl⟩
  · cases h

theorem Registry.failureAt_eq_none_iff {r : Registry} {i : Nat} :
    r.failureAt i = none ↔ ∀ fault, r.status? i ≠ some (.raised fault) := by
  unfold failureAt status?
  cases r.calls[i]? with
  | none => simp
  | some c =>
    obtain ⟨name, attempt, status⟩ := c
    cases status <;> simp

namespace Action

variable {setup : Setup} {s : State}

/-- The state with another registry. -/
def withRegistry (s : State) (r : Registry) : State := { s with index := { s.index with registry := r } }

theorem startLoads_run (languages : List String) (setup : Setup) (s : State) :
    let called := s.index.registry.run (languages.map .call)
    startLoads languages setup s =
      ⟨.ok (List.range' s.index.registry.calls.length languages.length), withRegistry s called.1,
        called.2⟩ := by
  induction languages generalizing s with
  | nil => rfl
  | cons language languages ih =>
    obtain ⟨c, hcalls, -⟩ := Registry.call_added s.index.registry language
    have hlength : (s.index.registry.call language).1.calls.length =
        s.index.registry.calls.length + 1 := by
      rw [hcalls, List.length_append, List.length_singleton]
    rw [startLoads, bind_run, startLoad_run]
    dsimp only
    rw [bind_run, ih]
    dsimp only
    rw [hlength]
    simp [Registry.run_cons, Registry.step, List.range'_succ, withRegistry]

theorem loadFailure?_run (call : Nat) (setup : Setup) (s : State) :
    loadFailure? call setup s = ⟨.ok (s.index.registry.failureAt call), s, []⟩ := by
  unfold loadFailure? Registry.failureAt
  rw [bind_run_ok (a := s) rfl]
  dsimp only [state]
  split <;> simp_all

theorem firstFailure?_run (calls : List Nat) (setup : Setup) (s : State) :
    firstFailure? calls setup s = ⟨.ok (calls.findSome? s.index.registry.failureAt), s, []⟩ := by
  induction calls with
  | nil => rfl
  | cons call calls ih =>
    rw [firstFailure?, bind_run, loadFailure?_run, List.findSome?_cons]
    dsimp only
    cases s.index.registry.failureAt call with
    | some e => simp
    | none => simp [ih]

theorem failFirst_run (calls : List Nat) (setup : Setup) (s : State) :
    failFirst calls setup s =
      ⟨endingOf (calls.findSome? s.index.registry.failureAt), s, []⟩ := by
  rw [failFirst, bind_run, firstFailure?_run]
  dsimp only
  cases calls.findSome? s.index.registry.failureAt with
  | some e => rfl
  | none => rfl

theorem endLoads_run (calls : List Nat) (setup : Setup) (s : State) :
    endLoads calls setup s =
      ⟨.ok (calls.map fun call => endingOf (s.index.registry.failureAt call)), s, []⟩ := by
  induction calls with
  | nil => rfl
  | cons call calls ih =>
    have hend : attempt (endLoad call) setup s =
        ⟨.ok (endingOf (s.index.registry.failureAt call)), s, []⟩ := by
      unfold attempt endLoad
      rw [bind_run, loadFailure?_run]
      dsimp only
      cases s.index.registry.failureAt call <;> rfl
    rw [endLoads, bind_run, hend]
    dsimp only
    rw [bind_run, ih]
    rfl

/-! ## Batches -/

/-- The events after the calls, when all attempts and calls end in the order of settling. -/
def settling (setup : Setup) (s : State) (languages : List String) : List Event :=
  (s.index.registry.run (languages.map .call)).1.settleEvents (answerOf setup s)

/-- The registry after a batch, with what has happened. -/
def settled (setup : Setup) (s : State) (languages : List String) : Registry × List Effect :=
  s.index.registry.run (languages.map .call ++ settling setup s languages)

/-- Settling after the calls have started. -/
theorem settle_withRegistry (languages : List String) (setup : Setup) (s : State) :
    let called := s.index.registry.run (languages.map .call)
    let after := settled setup s languages
    (settle setup (withRegistry s called.1)).result = .ok () ∧
      (settle setup (withRegistry s called.1)).state.index.registry = after.1 ∧
      called.2 ++ (settle setup (withRegistry s called.1)).effects = after.2 := by
  intro called after
  obtain ⟨hok, hregistry, heffects⟩ := settle_run setup (withRegistry s called.1)
  have hafter : after = _ := Registry.run_append s.index.registry (languages.map .call) _
  rw [hafter, hregistry, heffects]
  exact ⟨hok, rfl, rfl⟩

theorem loadEach_run (languages : List String) (setup : Setup) (s : State) :
    let after := settled setup s languages
    let calls := List.range' s.index.registry.calls.length languages.length
    (loadEach languages setup s).result = .ok (calls.map fun call => endingOf (after.1.failureAt call)) ∧
      (loadEach languages setup s).state.index.registry = after.1 := by
  intro after calls
  obtain ⟨hok, hregistry, -⟩ := settle_withRegistry languages setup s
  rw [loadEach, bind_run, startLoads_run]
  dsimp only
  rw [bind_run_ok hok, endLoads_run, hregistry]
  exact ⟨rfl, rfl⟩

section Batch

variable (coherent : s.index.registry.Coherent)
  (idle : ∀ name, s.index.registry.pending.get? name = none) (languages : List String)

include coherent

theorem batch_settling (setup : Setup) :
    s.index.registry.Batch (fun name _ => answerOf setup s name) languages
      (settling setup s languages) :=
  Registry.batch_settle coherent languages (answerOf setup s)

include idle

/-- No call of a batch fails before the first attempt has ended. -/
theorem failureAt_calls {call : Nat}
    (hm : call ∈ List.range' s.index.registry.calls.length languages.length) :
    (s.index.registry.run (languages.map .call)).1.failureAt call = none := by
  obtain ⟨news, gathered, -⟩ := Registry.gathered_run coherent idle languages
  obtain ⟨added, hcalls, hnames, hadded⟩ := gathered.calls
  obtain ⟨i, hi, rfl⟩ := List.mem_range'.mp hm
  have hlength : added.length = languages.length := by
    rw [← List.length_map, hnames, List.length_map]
  rw [Registry.failureAt_eq_none_iff]
  intro fault hs
  rw [Registry.status?, hcalls, List.getElem?_append_right (by omega),
    List.getElem?_eq_getElem (by omega)] at hs
  exact (hadded _ (List.getElem_mem _)).2.1 fault (Option.some.inj hs)

theorem loadTogether_run (setup : Setup) :
    let after := settled setup s languages
    let calls := List.range' s.index.registry.calls.length languages.length
    (loadTogether languages setup s).result = endingOf (calls.findSome? after.1.failureAt) ∧
      (loadTogether languages setup s).state.index.registry = after.1 ∧
      (loadTogether languages setup s).effects = after.2 := by
  intro after calls
  have hfirst : calls.findSome? (s.index.registry.run (languages.map .call)).1.failureAt = none := by
    rw [List.findSome?_eq_none_iff]
    intro call hm
    exact failureAt_calls coherent idle languages hm
  obtain ⟨hok, hregistry, heffects⟩ := settle_withRegistry languages setup s
  have hpass : (failFirst calls setup
      (withRegistry s (s.index.registry.run (languages.map .call)).1)).result = .ok () := by
    rw [failFirst_run]
    exact congrArg endingOf hfirst
  rw [loadTogether, bind_run, startLoads_run]
  dsimp only
  rw [bind_run_ok hpass, failFirst_run]
  dsimp only
  rw [bind_run_ok hok, failFirst_run, hregistry]
  refine ⟨rfl, rfl, ?_⟩
  simpa using heffects

/-- A call of a batch has failed or returned. -/
theorem failureAt_settled (setup : Setup) {i : Nat} (hi : i < languages.length) :
    let after := settled setup s languages
    after.1.failureAt (s.index.registry.calls.length + i) = none ↔
      after.1.status? (s.index.registry.calls.length + i) = some .returned := by
  intro after
  have result : Registry.BatchResult (fun name _ => answerOf setup s name) s.index.registry languages
      after := (batch_settling coherent languages setup).result coherent idle
  rw [Registry.failureAt_eq_none_iff]
  constructor
  · intro hn
    rw [result.returned i _ (List.getElem?_eq_getElem hi)]
    by_contra hg
    obtain ⟨fault, -, hraised⟩ := result.raised i _ (List.getElem?_eq_getElem hi)
      (Option.eq_none_iff_forall_ne_some.mpr fun g hg' => hg ⟨g, hg'⟩)
    exact hn fault hraised
  · intro hs fault hraised
    rw [hs] at hraised
    cases hraised

theorem findSome?_failureAt_eq_none_iff (setup : Setup) :
    let after := settled setup s languages
    (List.range' s.index.registry.calls.length languages.length).findSome? after.1.failureAt = none ↔
      ∀ i < languages.length,
        after.1.status? (s.index.registry.calls.length + i) = some .returned := by
  intro after
  rw [List.findSome?_eq_none_iff]
  constructor
  · intro h i hi
    exact (failureAt_settled coherent idle languages setup hi).mp (h _ (by simp [List.mem_range', hi]))
  · intro h call hm
    obtain ⟨i, hi, rfl⟩ := List.mem_range'.mp hm
    rw [Nat.one_mul]
    exact (failureAt_settled coherent idle languages setup hi).mpr (h i hi)

theorem loadEach_results (setup : Setup) :
    let after := settled setup s languages
    ∃ results, (loadEach languages setup s).result = .ok results ∧
      results.length = languages.length ∧ ∀ i < languages.length,
        (results[i]? = some (.ok ()) ↔
          after.1.status? (s.index.registry.calls.length + i) = some .returned) := by
  intro after
  refine ⟨_, (loadEach_run languages setup s).1, by simp, fun i hi => ?_⟩
  refine Iff.trans ?_ (failureAt_settled coherent idle languages setup hi)
  rw [List.getElem?_map, List.getElem?_range' hi, Nat.one_mul, Option.map_some, Option.some.injEq]
  exact endingOf_eq_ok

end Batch

/-! ## The tool for loading -/

theorem loadsOf_of_quiet {effects : List Effect} (h : ∀ effect ∈ effects, effect.isQuiet) :
    Registry.loadsOf effects = [] := by
  rw [Registry.loadsOf, List.filterMap_eq_nil_iff]
  intro effect hm
  have hq := h effect hm
  cases effect with
  | load name => exact absurd hq id
  | _ => rfl

/-- What is done aside calls no loader. -/
theorem loadsOf_bind_aside {α β : Type} {x : Action α} {f : α → Action β} (hf : ∀ a, Aside (f a))
    (setup : Setup) (s : State) :
    Registry.loadsOf ((x >>= f) setup s).effects = Registry.loadsOf (x setup s).effects := by
  rw [bind_run]
  split
  · rename_i a _
    have hq := (hf a).may_run setup (x setup s).state
    rw [Registry.loadsOf_append, loadsOf_of_quiet hq, List.append_nil]
  · rfl

theorem aside_afterAnswer (name : String) (arguments : Table Value) (seconds : Float) (a : Answer) :
    Aside (answerTokens a.parts >>= fun tokens =>
      report ⟨name, arguments, a.isError, a.errorText?, seconds * 1000, tokens⟩ >>= fun _ =>
        Pure.pure a) :=
  .bind (aside_answerTokens a.parts) fun _ => .bind (aside_report _) fun _ => .pure a

section Request

variable {name : String} {arguments : Table Value} {seconds : Float}

/-- After its answer a request leaves the index as it is, and calls no loader. -/
theorem request_afterAnswer :
    (request name arguments seconds setup s).state.index =
        (answer name arguments setup s).state.index ∧
      Registry.loadsOf (request name arguments seconds setup s).effects =
        Registry.loadsOf (answer name arguments setup s).effects :=
  ⟨index_bind (fun a => (aside_afterAnswer name arguments seconds a).still) setup s,
    loadsOf_bind_aside (aside_afterAnswer name arguments seconds) setup s⟩

end Request

theorem mapM_text? {languages : List String} (h : "" ∉ languages) :
    (languages.map Value.str).mapM Arguments.text? = some languages := by
  induction languages with
  | nil => rfl
  | cons language languages ih =>
    rw [List.mem_cons, not_or] at h
    have hfirst : Arguments.text? (.str language) = some language := by
      rw [Arguments.text?, if_neg (Ne.symm h.1)]
    rw [List.map_cons, List.mapM_cons, hfirst, ih h.2]
    rfl

/-- Texts that are not empty are the arguments of a request to load them. -/
theorem ofCall?_loadLanguages {languages : List String} {arguments : Table Value}
    (h : arguments.get? "languages" = some (.arr (languages.map .str))) (hne : "" ∉ languages) :
    Request.ofCall? Tool.loadLanguages.name arguments = some (.loadLanguages languages) := by
  have hrequest : Tool.loadLanguages.request arguments = .ok (.loadLanguages languages) := by
    simp only [Tool.request, Arguments.texts, Arguments.argument, h, Option.getD_some,
      mapM_text? hne]
    rfl
  rw [Request.ofCall?, Tool.named?_name]
  dsimp only
  rw [hrequest]

section Answer

variable {languages : List String} {arguments : Table Value} (coherent : s.index.registry.Coherent)
  (idle : ∀ name, s.index.registry.pending.get? name = none)
  (called : Request.ofCall? Tool.loadLanguages.name arguments = some (.loadLanguages languages))

include coherent idle called

/-- The tool goes through a batch, and answers with success if all calls have returned. -/
theorem answer_loadLanguages (setup : Setup) :
    let after := settled setup s languages
    let run := answer Tool.loadLanguages.name arguments setup s
    run.state.index.registry = after.1 ∧
      Registry.loadsOf run.effects = Registry.loadsOf after.2 ∧
      ∃ a, run.result = .ok a ∧
        (a.isError = false ↔ ∀ i < languages.length,
          after.1.status? (s.index.registry.calls.length + i) = some .returned) ∧
        ((a.isError = true ∨ setup.encoding? ≠ none) →
          ∃ n, (answerTokens a.parts setup run.state).result = .ok n) := by
  intro after run
  obtain ⟨hresult, hregistry, heffects⟩ := loadTogether_run coherent idle languages setup
  have hrun : run = _ := answer_of_request setup s called
  have returned := findSome?_failureAt_eq_none_iff coherent idle languages setup
  rw [Request.run] at hrun
  cases hf : (List.range' s.index.registry.calls.length languages.length).findSome?
      after.1.failureAt with
  | none =>
    rw [hf] at hresult
    rw [bind_run_ok hresult] at hrun
    rw [hrun]
    refine ⟨hregistry, ?_, _, rfl, ?_, fun he => ?_⟩
    · rw [← heffects]
      simp
    · exact ⟨fun _ => returned.mp hf, fun _ => rfl⟩
    · rcases he with he | he
      · cases he
      · obtain ⟨e, he⟩ := Option.ne_none_iff_exists'.mp he
        exact answerTokens_of_some he _
  | some e =>
    obtain ⟨call, -, he⟩ := List.exists_of_findSome?_eq_some hf
    obtain ⟨name, fault, rfl⟩ := Registry.eq_noGrammar_of_failureAt he
    rw [hf] at hresult
    rw [bind_run_error hresult] at hrun
    rw [hrun]
    refine ⟨hregistry, ?_, _, rfl, ?_, fun _ => ⟨0, answerTokens_error _⟩⟩
    · rw [← heffects, Registry.loadsOf_append, Registry.loadsOf_log, List.append_nil]
    · refine ⟨fun ha => (by cases ha), fun h => ?_⟩
      rw [returned.mpr h] at hf
      cases hf

end Answer

/-- The tool for loading leaves the documents as they are, whatever it is given. -/
theorem cache_loadLanguages (arguments : Table Value) (seconds : Float) (setup : Setup) (s : State) :
    (request Tool.loadLanguages.name arguments seconds setup s).state.index.cache =
      s.index.cache := by
  have hl : Leads setup s _ (.ofRequest Tool.loadLanguages.name arguments) :=
    leads_request Tool.loadLanguages.name arguments seconds
  have hother : Use.ofRequest Tool.loadLanguages.name arguments = .other := by
    rw [Use.ofRequest, Tool.named?_name]
    dsimp only [Tool.request]
    cases Arguments.texts arguments "languages" <;> rfl
  rw [hother] at hl
  exact hl.1

end Action

/-- Loading many languages together after any events that have left nothing pending.

* In any order of events: `Registry.BatchResult`. The loader is called once for each name that is asked for
  and not registered; a call returns just when its name is registered afterwards; and the registry is the
  old one with the names that the loader has answered, even where others have failed.
* The order and the number of the calls for a name change neither the registry nor the loader calls.
* The results of loads that run together say the same, and the tool for loading, given texts that are not
  empty, answers with success if all of its calls have returned. The answer is returned unless it cannot be
  counted, or the sink does not take its event.
* That tool never changes the documents.

What the loader answers depends on the name and on how often it has been called for the name. -/
theorem batch_loads {past : List Event}
    (idle : ∀ name, (({} : Registry).run past).1.pending.get? name = none) (languages : List String) :
    let r := (({} : Registry).run past).1
    (∀ name, Registry.tries r.attempts name =
      (Registry.loadsOf (({} : Registry).run past).2).count name) ∧
    (∀ loader later, r.Batch loader languages later →
      r.BatchResult loader languages (r.run (languages.map .call ++ later))) ∧
    (∀ loader others later later',
      (∀ name, name ∈ languages.map Language.normalize ↔ name ∈ others.map Language.normalize) →
      r.Batch loader languages later → r.Batch loader others later' →
      let after := r.run (languages.map .call ++ later)
      let after' := r.run (others.map .call ++ later')
      (∀ name, after.1.grammars.get? name = after'.1.grammars.get? name) ∧
        (Registry.loadsOf after.2).Perm (Registry.loadsOf after'.2)) ∧
    (∀ setup s, s.index.registry = r →
      let after := Action.settled setup s languages
      let Returned := fun i => after.1.status? (r.calls.length + i) = some .returned
      r.Batch (fun name _ => Action.answerOf setup s name) languages
          (Action.settling setup s languages) ∧
        (∃ results, (Action.loadEach languages setup s).result = .ok results ∧
          results.length = languages.length ∧
          ∀ i < languages.length, (results[i]? = some (.ok ()) ↔ Returned i)) ∧
        ∀ arguments seconds, arguments.get? "languages" = some (.arr (languages.map .str)) →
          "" ∉ languages →
          let run := Action.request Tool.loadLanguages.name arguments seconds setup s
          run.state.index.registry = after.1 ∧
            Registry.loadsOf run.effects = Registry.loadsOf after.2 ∧
            ∃ a, (Action.answer Tool.loadLanguages.name arguments setup s).result = .ok a ∧
              (a.isError = false ↔ ∀ i < languages.length, Returned i) ∧
              ((a.isError = true ∨ setup.encoding? ≠ none) →
                run.result = setup.returned arguments a)) ∧
    ∀ arguments seconds setup s,
      (Action.request Tool.loadLanguages.name arguments seconds setup s).state.index.cache =
        s.index.cache := by
  intro r
  have coherent : r.Coherent := Registry.coherent_run past
  refine ⟨fun name => ?_, fun loader later h => h.result coherent idle, ?_, ?_,
    Action.cache_loadLanguages⟩
  · have hbegun := Registry.begun_run {} past name
    rw [Registry.tries_eq_begun coherent idle, ← hbegun]
    simp [Registry.begun]
  · intro loader others later later' same h h'
    exact (h.result coherent idle).agree (h'.result coherent idle) same
  · intro setup s hr after Returned
    have coherent' : s.index.registry.Coherent := by rw [hr]; exact coherent
    have idle' : ∀ name, s.index.registry.pending.get? name = none := by rw [hr]; exact idle
    rw [← hr]
    refine ⟨Action.batch_settling coherent' languages setup, ?_, ?_⟩
    · simp only [Returned, ← hr]
      exact Action.loadEach_results coherent' idle' languages setup
    · intro arguments seconds harguments hne run
      have called := Action.ofCall?_loadLanguages harguments hne
      obtain ⟨hregistry, hloads, a, ha, hiff, hcount⟩ :=
        Action.answer_loadLanguages coherent' idle' called setup
      obtain ⟨hindex, hsame⟩ : run.state.index = _ ∧ Registry.loadsOf run.effects = _ :=
        Action.request_afterAnswer
      refine ⟨by rw [hindex, hregistry], by rw [hsame, hloads], a, ha, ?_, fun he => ?_⟩
      · simp only [Returned, ← hr]
        exact hiff
      · obtain ⟨n, hn⟩ := hcount he
        have hrun : run = _ := Action.request_run_counted ha hn
        rw [hrun]

/-- One name is registered, one is asked for twice and fails, and one loads. -/
theorem batch_loads_one_fails :
    let past : List Event := [.call "py", .start 0, .finish 0 (.ok ⟨"python"⟩), .wake 0]
    let r := (({} : Registry).run past).1
    let answer := fun name : String =>
      if name = "go" then .error ⟨"grammar artifact missing"⟩ else .ok (Grammar.mk name)
    let languages := ["Python", "golang", "rs", "go"]
    let later := (r.run (languages.map .call)).1.settleEvents answer
    let after := r.run (languages.map .call ++ later)
    (∀ name, r.pending.get? name = none) ∧
      r.BatchResult (fun name _ => answer name) languages after ∧
      [1, 2, 3, 4].map after.1.status? =
        [some .returned, some (.raised ⟨"grammar artifact missing"⟩), some .returned,
          some (.raised ⟨"grammar artifact missing"⟩)] ∧
      Registry.loadsOf after.2 = ["go", "rust"] := by
  intro past r answer languages later after
  have idle : ∀ name, r.pending.get? name = none := by
    intro name
    have hp : r.pending = [] := rfl
    rw [hp]
    rfl
  have batch : r.Batch (fun name _ => answer name) languages later :=
    Registry.batch_settle (Registry.coherent_run past) languages answer
  exact ⟨idle, (batch_loads idle languages).2.1 _ _ batch, by decide +kernel, by decide +kernel⟩

end CodeIndex
