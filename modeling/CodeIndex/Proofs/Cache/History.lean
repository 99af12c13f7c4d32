import CodeIndex.Proofs.Session.Reachable

/-!
# CodeIndex.Proofs.Cache.History

The cache of a session as the outcome of its history.

* `Change`: a file was parsed with success, the entry of a file was removed, or all entries were.
* `Use.change?` and `Session.history`: the changes that a step and a run bring about. They are worked
  out from the parses alone, without a look at the cache: a lookup parses its file when the changes so
  far have left no entry.
* `latest?`: the entry that changes leave. `latest?_eq_some_iff`: it is the last document parsed for the
  file, if nothing has concerned the file since.
* `Recorded`: the cache holds what the changes leave, and the serials of documents go up. Every step
  keeps it.
* `cache_follows_history`: what a run leaves in the cache, and what a lookup does that finds an entry.
-/

namespace CodeIndex

inductive Change where
  | parsed (d : Document)
  | forgotten (file : String)
  | allForgotten

namespace Change

/-- The change decides the entry of the file. -/
def Concerns (file : String) : Change → Prop
  | .parsed d => d.file = file
  | .forgotten other => other = file
  | .allForgotten => True

def serial? : Change → Option Nat
  | .parsed d => some d.serial
  | .forgotten _ | .allForgotten => none

end Change

/-- The entry of a file after changes, the newest of which comes first. -/
def latest? (file : String) : List Change → Option Document
  | [] => none
  | .parsed d :: older => if d.file = file then some d else latest? file older
  | .forgotten other :: older => if other = file then none else latest? file older
  | .allForgotten :: _ => none

theorem latest?_of_not_concerns {file : String} {newer older : List Change}
    (h : ∀ c ∈ newer, ¬ c.Concerns file) : latest? file (newer ++ older) = latest? file older := by
  induction newer with
  | nil => rfl
  | cons c newer ih =>
    have hc := h c List.mem_cons_self
    have hrest := ih fun c hm => h c (List.mem_cons_of_mem _ hm)
    cases c with
    | parsed d => rw [List.cons_append, latest?, if_neg (c := d.file = file) hc, hrest]
    | forgotten other => rw [List.cons_append, latest?, if_neg (c := other = file) hc, hrest]
    | allForgotten => exact absurd trivial hc

theorem latest?_eq_some_iff {file : String} {past : List Change} {d : Document} :
    latest? file past = some d ↔
      ∃ newer older, past = newer ++ .parsed d :: older ∧ d.file = file ∧
        ∀ c ∈ newer, ¬ c.Concerns file := by
  constructor
  · intro h
    induction past with
    | nil => cases h
    | cons c past ih =>
      -- The change that decides the entry is the first one that concerns the file.
      by_cases hc : c.Concerns file
      · cases c with
        | parsed d' =>
          rw [latest?, if_pos (c := d'.file = file) hc] at h
          cases h
          exact ⟨[], past, rfl, hc, by simp⟩
        | forgotten other =>
          rw [latest?, if_pos (c := other = file) hc] at h
          cases h
        | allForgotten => cases h
      · have hrest : latest? file past = some d := by
          have hn : ∀ c' ∈ [c], ¬ c'.Concerns file := by simpa using hc
          rw [← h]
          exact (latest?_of_not_concerns hn).symm
        obtain ⟨newer, older, rfl, hd, hn⟩ := ih hrest
        refine ⟨c :: newer, older, rfl, hd, fun c' hm => ?_⟩
        rcases List.mem_cons.mp hm with rfl | hm
        · exact hc
        · exact hn c' hm
  · rintro ⟨newer, older, rfl, hd, hn⟩
    rw [latest?_of_not_concerns hn, latest?, if_pos hd]

/-! ## The changes of a session -/

def parsed? (run : Run Document) : Option Change :=
  match run.result with
  | .ok d => some (.parsed d)
  | .error _ => none

namespace Use

/-- The change that a use brings about in a state, after the changes in `past`. -/
def change? (setup : Setup) (s : State) (past : List Change) : Use → Option Change
  | .lookup path language content =>
    match Action.fileOf? setup path with
    | some file =>
      match latest? file past with
      | some _ => none
      | none => parsed? (Action.parse file language content setup s)
    | none => none
  | .parse path language content =>
    match Action.fileOf? setup path with
    | some file => parsed? (Action.parse file language content setup s)
    | none => none
  | .forget path => (Action.fileOf? setup path).map .forgotten
  | .forgetAll => some .allForgotten
  | .other => none

/-- The use is about the file, or about all files. -/
def Touches (setup : Setup) (file : String) : Use → Prop
  | .lookup path _ _ | .parse path _ _ | .forget path => Action.fileOf? setup path = some file
  | .forgetAll => True
  | .other => False

end Use

namespace Session

/-- The changes of a run, the newest first, after those in `past`. -/
def history (setup : Setup) (session : Session) (past : List Change) : List Step → List Change
  | [] => past
  | step :: steps =>
    history setup (session.step setup step).2.1
      ((step.use.change? setup session.state past).toList ++ past) steps

end Session

/-! ## Steps keep the record -/

structure Recorded (i : Index) (past : List Change) : Prop where
  entry : ∀ file, i.cache.get? file = latest? file past
  serials : (i.made :: past.filterMap Change.serial?).Pairwise (· > ·)

variable {setup : Setup} {s : State} {i : Index} {past : List Change} {file : String}
  {language content : Option String}

theorem Recorded.of_same (h : Recorded s.index past) (cache : i.cache = s.index.cache)
    (made : i.made = s.index.made) : Recorded i past where
  entry := by
    rw [cache]
    exact h.entry
  serials := by
    rw [made]
    exact h.serials

theorem Recorded.parse (h : Recorded s.index past)
    (hi : i = (Action.parse file language content setup s).state.index) :
    Recorded i ((parsed? (Action.parse file language content setup s)).toList ++ past) := by
  subst hi
  unfold parsed?
  cases hp : (Action.parse file language content setup s).result with
  | error e =>
    obtain ⟨hmade, hcache⟩ := Action.parse_error hp
    exact h.of_same hcache hmade
  | ok d =>
    obtain ⟨hfile, hserial, hmade, hcache⟩ := Action.parse_ok hp
    constructor
    · intro other
      rw [hcache, Table.get?_insert, Option.toList_some, List.singleton_append, latest?, hfile,
        h.entry]
    · have hs := h.serials
      rw [hmade]
      simp only [Option.toList_some, List.singleton_append, List.filterMap_cons, Change.serial?,
        hserial]
      refine List.Pairwise.cons (fun n hn => ?_) hs
      rcases List.mem_cons.mp hn with rfl | hn
      · omega
      · have := (List.pairwise_cons.mp hs).1 n hn
        omega

theorem Recorded.leads (h : Recorded s.index past) {use : Use} (hl : Action.Leads setup s i use) :
    Recorded i ((use.change? setup s past).toList ++ past) := by
  cases use with
  | lookup path language content =>
    change i = (Action.document path language content setup s).state.index at hl
    cases hf : Action.fileOf? setup path with
    | none =>
      rw [Action.document_run_none hf] at hl
      simp only [Use.change?, hf, hl]
      exact h
    | some file =>
      have he := h.entry file
      cases hd : s.index.cache.get? file with
      | some d =>
        rw [Action.document_run_hit hf hd] at hl
        rw [hd] at he
        simp only [Use.change?, hf, ← he, hl]
        exact h
      | none =>
        rw [Action.document_run_miss hf hd] at hl
        rw [hd] at he
        simp only [Use.change?, hf, ← he]
        exact h.parse hl
  | parse path language content =>
    change i = (Action.reparse path language content setup s).state.index at hl
    cases hf : Action.fileOf? setup path with
    | none =>
      rw [Action.reparse_run_none hf] at hl
      simp only [Use.change?, hf, hl]
      exact h
    | some file =>
      rw [Action.reparse_run hf] at hl
      simp only [Use.change?, hf]
      exact h.parse hl
  | forget path =>
    change i = (Action.forget path setup s).state.index at hl
    cases hf : Action.fileOf? setup path with
    | none =>
      rw [Action.forget_run_none hf] at hl
      simp only [Use.change?, hf, hl]
      exact h
    | some file =>
      rw [Action.forget_run hf] at hl
      simp only [Use.change?, hf, hl]
      refine ⟨fun other => ?_, h.serials⟩
      simp only [Action.withoutEntry, Table.get?_erase, Option.map_some, Option.toList_some,
        List.singleton_append, latest?, h.entry]
  | forgetAll =>
    change i = { s.index with cache := [] } at hl
    rw [hl]
    exact ⟨fun other => rfl, h.serials⟩
  | other => exact h.of_same hl.1 hl.2.1

theorem Recorded.step {session : Session} (h : Recorded session.state.index past) (setup : Setup)
    (step : Step) :
    Recorded (session.step setup step).2.1.state.index
      ((step.use.change? setup session.state past).toList ++ past) := by
  have hl : Action.Leads setup session.state (step.run setup session.state).state.index step.use :=
    Action.leads_step step
  have hr := h.leads hl
  rw [Session.state_step]
  exact hr.of_same (Action.apart_settle.cache setup _) (Action.apart_settle.made setup _)

theorem Recorded.run {session : Session} (h : Recorded session.state.index past) (setup : Setup)
    (steps : List Step) :
    Recorded (session.run setup steps).state.index (session.history setup past steps) := by
  induction steps generalizing session past with
  | nil => exact h
  | cons step steps ih => exact ih (h.step setup step)

theorem recorded_start (disk : Disk) : Recorded (Session.start disk).state.index [] :=
  ⟨fun _ => rfl, by simp [Session.start]⟩

/-! ## Other files -/

theorem parsed?_eq_some {run : Run Document} {c : Change} (h : parsed? run = some c) :
    ∃ d, run.result = .ok d ∧ c = .parsed d := by
  unfold parsed? at h
  split at h
  · rename_i d hd
    cases h
    exact ⟨d, hd, rfl⟩
  · cases h

/-- A use of other files brings about no change that concerns the file. -/
theorem not_concerns_of_not_touches {use : Use} (h : ¬ use.Touches setup file) {c : Change}
    (hc : use.change? setup s past = some c) : ¬ c.Concerns file := by
  have parsed : ∀ {other : String} {language content : Option String}, other ≠ file →
      parsed? (Action.parse other language content setup s) = some c → ¬ c.Concerns file := by
    intro other language content hn hp
    obtain ⟨d, hd, rfl⟩ := parsed?_eq_some hp
    rw [← (Action.parse_ok hd).1] at hn
    exact hn
  cases use with
  | lookup path language content =>
    change ¬ Action.fileOf? setup path = some file at h
    cases hf : Action.fileOf? setup path with
    | none =>
      simp only [Use.change?, hf] at hc
      cases hc
    | some other =>
      have hn : other ≠ file := fun he => h (by rw [hf, he])
      cases hl : latest? other past with
      | some d =>
        simp only [Use.change?, hf, hl] at hc
        cases hc
      | none =>
        simp only [Use.change?, hf, hl] at hc
        exact parsed hn hc
  | parse path language content =>
    change ¬ Action.fileOf? setup path = some file at h
    cases hf : Action.fileOf? setup path with
    | none =>
      simp only [Use.change?, hf] at hc
      cases hc
    | some other =>
      have hn : other ≠ file := fun he => h (by rw [hf, he])
      simp only [Use.change?, hf] at hc
      exact parsed hn hc
  | forget path =>
    change ¬ Action.fileOf? setup path = some file at h
    obtain ⟨other, hf, rfl⟩ := Option.map_eq_some_iff.mp hc
    exact fun he => h (by rw [hf]; exact congrArg some he)
  | forgetAll => exact absurd trivial h
  | other => cases hc

theorem Recorded.step_untouched {session : Session} (h : Recorded session.state.index past)
    {step : Step} (hn : ¬ step.use.Touches setup file) :
    (session.step setup step).2.1.state.index.cache.get? file =
      session.state.index.cache.get? file := by
  rw [(h.step setup step).entry, h.entry]
  apply latest?_of_not_concerns
  intro c hc
  exact not_concerns_of_not_touches hn (Option.mem_toList.mp hc)

/-- After any steps from an empty index on, one at a time and each with its loads settled, with the changes
that they have brought about:

* the entry of a path is the document of the last parse of its file that had success, unless the entry
  has been removed since, and no two of these documents have the same serial;
* a lookup that finds an entry answers from it, whatever language and content it is given; it reads
  no file, calls no loader, and leaves the index as it is, and its result would be the same with any
  other registry, other entries and files;
* a step that is not about a file leaves its entry as it is. -/
theorem cache_follows_history (setup : Setup) (disk : Disk) (steps : List Step) :
    let session := (Session.start disk).run setup steps
    let s := session.state
    let past := (Session.start disk).history setup [] steps
    (∀ path file, Action.fileOf? setup path = some file →
      Action.entry? path setup s = ⟨.ok (latest? file past), s, []⟩) ∧
    (∀ file d, s.index.cache.get? file = some d ↔
      ∃ newer older, past = newer ++ .parsed d :: older ∧ d.file = file ∧
        ∀ c ∈ newer, ¬ c.Concerns file) ∧
    (past.filterMap Change.serial?).Pairwise (· > ·) ∧
    (∀ (step : Step) (path : String) (language content : Option String) (file : String)
      (d : Document), step.use = .lookup path language content →
      Action.fileOf? setup path = some file → s.index.cache.get? file = some d →
        Action.Answers setup s path file d ∧ Action.FromEntry setup file d s step.run ∧
        (session.step setup step).2.2 = (step.run setup s).effects ∧
        (session.step setup step).2.1.state = (step.run setup s).state) ∧
    (∀ (step : Step) (file : String), ¬ step.use.Touches setup file →
      (session.step setup step).2.1.state.index.cache.get? file = s.index.cache.get? file) := by
  intro session s past
  have hr : Recorded s.index past := (recorded_start disk).run setup steps
  have tidy : session.Tidy := Session.tidy_run setup disk steps
  refine ⟨?_, ?_, (List.pairwise_cons.mp hr.serials).2, ?_, ?_⟩
  · intro path file hf
    rw [Action.entry_run hf, hr.entry]
  · intro file d
    rw [hr.entry]
    exact latest?_eq_some_iff
  · intro step path language content file d hu hf hd
    have hits := (Action.hits_step (d := d) hf hu).fromEntry hd
    exact ⟨Action.answers_of_hit hf hd, hits, tidy.step_eq hits.index⟩
  · intro step file hn
    exact hr.step_untouched hn

end CodeIndex
