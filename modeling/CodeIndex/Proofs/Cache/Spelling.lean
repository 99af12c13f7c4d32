import CodeIndex.Proofs.Cache.History
import CodeIndex.Proofs.Path.Spelling
import CodeIndex.Proofs.Action.Local

/-!
# CodeIndex.Proofs.Cache.Spelling

All spellings of a file have one entry in the cache, and different files have different ones.

* `Step.respell`: the same operation on another path. `respell_run`: it is the same run if both paths have
  one file id.
* `Leads.untouched`: an operation leaves the entries of other files alone.
* `spellings_share_entries`: which paths have one file id, and what this means for the operations.
-/

namespace CodeIndex

/-- An operation on one file, by another path. -/
def Step.respell (path : String) : Step → Step
  | .document _ language content => .document path language content
  | .reparse _ language content => .reparse path language content
  | .captures _ query => .captures path query
  | .elements _ kind => .elements path kind
  | .enclosing _ point => .enclosing path point
  | .comparison _ language content => .comparison path language content
  | .forget _ => .forget path
  | .entry _ => .entry path
  | .isCached _ => .isCached path
  | step => step

namespace Action

variable {α : Type} {setup : Setup} {s : State} {p q : String}

/-! ## The same file -/

theorem canonical_respell (h : fileOf? setup p = fileOf? setup q) (s : State) :
    canonical p setup s = canonical q setup s := by
  cases hq : fileOf? setup q with
  | none => rw [canonical_run_none hq, canonical_run_none (h.trans hq)]
  | some file => rw [canonical_run hq, canonical_run (h.trans hq)]

/-- Each operation starts with the file id, and does not look at the path again. -/
theorem respell_run (h : fileOf? setup p = fileOf? setup q) {step : Step} (hp : step.path? = some p)
    (s : State) : (step.respell q).run setup s = step.run setup s := by
  have file : canonical q setup s = canonical p setup s := (canonical_respell h s).symm
  have document : ∀ language content,
      document q language content setup s = document p language content setup s :=
    fun _ _ => bind_congr_run file _
  have entry : entry? q setup s = entry? p setup s := bind_congr_run file _
  cases step with
  | document path language content =>
    cases hp
    exact bind_congr_run (document _ _) _
  | reparse path language content =>
    cases hp
    exact bind_congr_run (bind_congr_run file _) _
  | captures path query =>
    cases hp
    exact bind_congr_run (bind_congr_run (document none none) _) _
  | elements path kind =>
    cases hp
    exact bind_congr_run (bind_congr_run (document none none) _) _
  | enclosing path point =>
    cases hp
    exact bind_congr_run (bind_congr_run (document none none) _) _
  | comparison path language content =>
    cases hp
    exact bind_congr_run (bind_congr_run (document _ _) _) _
  | forget path =>
    cases hp
    exact bind_congr_run (bind_congr_run file _) _
  | entry path =>
    cases hp
    exact bind_congr_run entry _
  | isCached path =>
    cases hp
    exact bind_congr_run (bind_congr_run entry _) _
  | _ => cases hp

/-! ## Other files -/

theorem get?_parse {file other : String} (h : other ≠ file) (language content : Option String) :
    (parse other language content setup s).state.index.cache.get? file = s.index.cache.get? file := by
  cases hp : (parse other language content setup s).result with
  | error e => rw [(parse_error hp).2]
  | ok d => rw [(parse_ok hp).2.2.2, Table.get?_insert, if_neg h]

theorem Leads.untouched {i : Index} {use : Use} {file : String} (h : Leads setup s i use)
    (hn : ¬use.Touches setup file) : i.cache.get? file = s.index.cache.get? file := by
  cases use with
  | lookup path language content =>
    change ¬fileOf? setup path = some file at hn
    rw [show i = _ from h]
    cases hf : fileOf? setup path with
    | none => rw [document_run_none hf]
    | some other =>
      have different : other ≠ file := fun he => hn (by rw [hf, he])
      cases hd : s.index.cache.get? other with
      | some d => rw [document_run_hit hf hd]
      | none =>
        rw [document_run_miss hf hd]
        exact get?_parse different language content
  | parse path language content =>
    change ¬fileOf? setup path = some file at hn
    rw [show i = _ from h]
    cases hf : fileOf? setup path with
    | none => rw [reparse_run_none hf]
    | some other =>
      rw [reparse_run hf]
      exact get?_parse (fun he => hn (by rw [hf, he])) language content
  | forget path =>
    change ¬fileOf? setup path = some file at hn
    rw [show i = _ from h]
    cases hf : fileOf? setup path with
    | none => rw [forget_run_none hf]
    | some other =>
      rw [forget_run hf, get?_withoutEntry, if_neg fun he => hn (by rw [hf, he])]
  | forgetAll => exact absurd trivial hn
  | other => rw [h.1]

theorem touches_of_path? {step : Step} {path file : String} (hp : step.path? = some path)
    (h : step.use.Touches setup file) : fileOf? setup path = some file := by
  cases step with
  | document | reparse | captures | elements | enclosing | comparison | forget =>
    cases hp
    exact h
  | entry | isCached => exact h.elim
  | _ => cases hp

end Action

/-- A path without U+0000 has a file id, and:

* it is absolute, no component of it is empty or made of dots, and nothing follows its last component; it is
  its own id;
* two paths have one id if and only if dropping empty components and dots, and letting two dots take the
  component before them along, leaves the same of both. This leaves one list of components, in whatever
  order it is done;
* an operation on one of two such paths is the same on the other one. So what is parsed by the one is found
  by the other;
* otherwise an operation on the one leaves the entry of the other as it is. -/
theorem spellings_share_entries {setup : Setup} {p q : String} (hp : Path.hasNul p = false)
    (hq : Path.hasNul q = false) :
    let file := Path.canonical setup.directory
    let same := Path.SameFile setup.directory p q
    (∀ s, Action.canonical p setup s = ⟨.ok (file p), s, []⟩) ∧
      Path.Normal (file p).toList ∧ file (file p) = file p ∧
      (∃! names, Path.Shortened (Path.spelled setup.directory.toList p.toList) names) ∧
      (file p = file q ↔ same) ∧
      (same → ∀ (step : Step) (s : State), step.path? = some p →
        (step.respell q).run setup s = step.run setup s) ∧
      (same → ∀ (language content : Option String) (s : State) (d : Document),
        let run := Action.reparse p language content setup s
        run.result = .ok d → (Action.entry? q setup run.state).result = .ok (some d)) ∧
      (¬same → ∀ (step : Step) (s : State), step.path? = some p →
        (Action.entry? q setup (step.run setup s).state).result =
          (Action.entry? q setup s).result) := by
  intro file same
  have hfp : Action.fileOf? setup p = some (file p) := by
    rw [Action.fileOf?, hp]
    rfl
  have hfq : Action.fileOf? setup q = some (file q) := by
    rw [Action.fileOf?, hq]
    rfl
  have hsame : file p = file q ↔ same := Path.canonical_eq_iff
  refine ⟨fun s => Action.canonical_run hfp, Path.normal_canonical _ _, Path.canonical_canonical _ _ _,
    ?_, hsame, ?_, ?_, ?_⟩
  · exact ⟨_, Path.shortened_spelled_iff.mpr rfl, fun names h => Path.shortened_spelled_iff.mp h⟩
  · intro h step s hstep
    refine Action.respell_run ?_ hstep s
    rw [hfp, hfq, hsame.mpr h]
  · intro h language content s d run made
    have hrun : run = _ := Action.reparse_run hfp
    rw [hrun] at made ⊢
    rw [Action.entry_run hfq, (Action.parse_ok made).2.2.2, Table.get?_insert, if_pos (hsame.mpr h)]
  · intro h step s hstep
    have untouched : ¬step.use.Touches setup (file q) := by
      intro touches
      have he := Action.touches_of_path? hstep touches
      rw [hfp] at he
      exact h (hsame.mp (Option.some.inj he))
    rw [Action.entry_run hfq, Action.entry_run hfq]
    exact congrArg Except.ok ((Action.leads_step step).untouched untouched)

/-- One file by a path that climbs above the root and by one that does not, and another file. -/
theorem spellings_share_entries_above_root :
    let setup := { plainSetup "gpt2" with directory := "/w" }
    let p := "../..//../x/./a..b"
    let q := "/x/y/../a..b/"
    let other := "x/a..b"
    (Path.hasNul p = false ∧ Path.hasNul q = false ∧ Path.hasNul other = false) ∧
      Path.SameFile setup.directory p q ∧ ¬Path.SameFile setup.directory p other ∧
      (∀ s, (Step.forget q).run setup s = (Step.forget p).run setup s) ∧
      ∀ s, (Action.entry? other setup ((Step.forget p).run setup s).state).result =
        (Action.entry? other setup s).result := by
  intro setup p q other
  have hp : Path.hasNul p = false := by decide
  have hq : Path.hasNul q = false := by decide
  have hother : Path.hasNul other = false := by decide
  obtain ⟨-, -, -, -, iff, shared, -⟩ := @spellings_share_entries setup p q hp hq
  obtain ⟨-, -, -, -, iff', -, -, apart⟩ := @spellings_share_entries setup p other hp hother
  have same : Path.SameFile setup.directory p q := iff.mp (by decide)
  have different : ¬Path.SameFile setup.directory p other := fun h => absurd (iff'.mpr h) (by decide)
  exact ⟨⟨hp, hq, hother⟩, same, different, fun s => shared same (.forget p) s rfl,
    fun s => apart different (.forget p) s rfl⟩

end CodeIndex
