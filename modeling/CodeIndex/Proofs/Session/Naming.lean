import CodeIndex.Proofs.Language.NormalForm
import CodeIndex.Proofs.Session.Soundness

/-!
# CodeIndex.Proofs.Session.Naming

A grammar is found under every spelling of its language.

* `Registry.Finds`: a language is loaded, and its grammar is at hand. Spellings with one normal form share
  this (`finds_iff`).
* `Registry.Coherent.finds_of_returned`, `Action.load_finds`: a load that succeeds leaves its language so.
* `Registry.Finds.grows`, `Live.Sound.finds`: it stays so, whatever happens later.
* `names_have_normal_forms`: the normal forms, and what they are good for in every state that is reached.
-/

namespace CodeIndex

namespace Registry

variable {r r' : Registry} {language other : String} {g : Grammar}

/-- The language counts as loaded, and asking for it gives the grammar. -/
structure Finds (r : Registry) (language : String) (g : Grammar) : Prop where
  loaded : r.isLoaded language = true
  got : r.get language = .ok g

theorem finds_iff : r.Finds language g ↔ r.grammars.get? (Language.normalize language) = some g := by
  constructor
  · rintro ⟨-, got⟩
    unfold get at got
    split at got
    · rename_i g' registered
      cases got
      exact registered
    · cases got
  · intro registered
    constructor
    · rw [isLoaded, Table.contains, registered, Option.isSome_some]
    · rw [get, registered]

theorem Finds.of_same (h : r.Finds language g)
    (same : Language.normalize language = Language.normalize other) : r.Finds other g :=
  finds_iff.mpr (same ▸ finds_iff.mp h)

theorem Finds.grows (h : r.Finds language g) (grows : r.Grows r') : r'.Finds language g :=
  finds_iff.mpr (grows.grammar (finds_iff.mp h))

/-- Whichever load call of a language returns, and whatever happens before it does. -/
theorem Coherent.finds_of_returned (h : r.Coherent) {events : List Event}
    (returned : (r.run (.call language :: events)).1.status? r.calls.length = some .returned) :
    ∃ g, (r.run (.call language :: events)).1.Finds language g := by
  obtain ⟨c, hcalls, hname, -⟩ := call_added r language
  have hc : (r.call language).1.calls[r.calls.length]? = some c := by
    rw [hcalls, List.getElem?_concat_length]
  obtain ⟨status, hrun, -⟩ := call_run hc events
  have ended : (r.run (.call language :: events)).1.calls[r.calls.length]? =
      some { c with status := status } := hrun
  rw [status?, ended] at returned
  obtain ⟨g, registered⟩ := (h.run _).registered_of_returned (List.mem_of_getElem? ended)
    (Option.some.inj returned)
  exact ⟨g, finds_iff.mpr (hname ▸ registered)⟩

end Registry

namespace Action

variable {setup : Setup} {s : State} {language : String}

theorem load_finds (coherent : s.index.registry.Coherent)
    (loaded : (load language setup s).result = .ok ()) :
    ∃ g, (load language setup s).state.index.registry.Finds language g := by
  rcases load_registers setup coherent language with ⟨-, g, registered⟩ | ⟨fault, failed⟩
  · exact ⟨g, Registry.finds_iff.mpr registered⟩
  · rw [loaded] at failed
    cases failed

theorem state_load (language : String) (setup : Setup) (s : State) :
    ((Step.load language).run setup s).state = (load language setup s).state := by
  rw [Step.run]
  cases hr : (load language setup s).result with
  | ok _ => rw [bind_run_ok hr, pure_run]
  | error e => rw [bind_run_error hr]

end Action

namespace Live

variable {setup : Setup} {live later : Live} {language : String} {g : Grammar}

theorem Sound.finds (h : live.Sound setup) (reached : Reaches setup live later)
    (found : live.state.index.registry.Finds language g) :
    later.state.index.registry.Finds language g :=
  found.grows (h.grows reached)

end Live

/-- Every name has one normal form, which is its own normal form, and so have the aliases. Neither blanks
around a name nor its letters being capital make a difference.

In every state that an index reaches, with whatever is under way in it:

* once a load of a language has succeeded, whether it runs by itself or among any other events, each name with
  the same normal form counts as loaded and has the grammar, from then on;
* the language of a document is a normal form, and each name that has it finds the grammar that the document
  was parsed with, from then on, whether the document stays in the cache or not. -/
theorem names_have_normal_forms {setup : Setup} {disk : Disk} {live : Live}
    (reached : Live.Reaches setup (.start disk) live) :
    let s := live.state
    let r := s.index.registry
    (∀ name, Language.normalize (Language.normalize name) = Language.normalize name) ∧
    (∀ key image, (key, image) ∈ Language.aliases →
      Language.normalize key = image ∧ Language.normalize image = image) ∧
    (∀ left name right : String, IsPadding left.toList → IsPadding right.toList →
      Language.normalize (left ++ name ++ right) = Language.normalize name) ∧
    (∀ name : String,
      Language.normalize (String.ofList (lower name.toList)) = Language.normalize name) ∧
    (∀ a b, Language.normalize a = Language.normalize b →
      (∀ events, (r.run (.call a :: events)).1.status? r.calls.length = some .returned →
        ∃ g, ∀ later, ((r.run (.call a :: events)).1.run later).1.Finds b g) ∧
      ((Action.load a setup s).result = .ok () →
        ∃ g, ∀ later, Live.Reaches setup ⟨(Action.load a setup s).state, live.flights⟩ later →
          later.state.index.registry.Finds b g)) ∧
    (∀ file d, s.index.cache.get? file = some d → Language.normalize d.language = d.language ∧
      ∀ name, Language.normalize name = d.language → ∀ later, Live.Reaches setup live later →
        later.state.index.registry.Finds name d.grammar) := by
  intro s r
  have sound : live.Sound setup := (Live.sound_start setup disk).reaches reached
  have coherent : r.Coherent := sound.index.coherent
  refine ⟨Language.normalize_normalize, ?_, ?_, Language.normalize_lower, ?_, ?_⟩
  · intro key image h
    exact ⟨Language.normalize_key h, Language.normalize_alias h⟩
  · intro left name right hl hr
    exact Language.normalize_between hl hr name
  · intro a b same
    constructor
    · intro events returned
      obtain ⟨g, found⟩ := coherent.finds_of_returned returned
      exact ⟨g, fun later => (found.of_same same).grows ((coherent.run _).grows_run later)⟩
    · intro loaded
      obtain ⟨g, found⟩ := Action.load_finds coherent loaded
      have moved : live.Moves setup ⟨(Action.load a setup s).state, live.flights⟩ := by
        rw [← Action.state_load]
        exact .step s live.flights (.load a)
      exact ⟨g, fun later hl => (sound.moves moved).finds hl (found.of_same same)⟩
  · intro file d hd
    obtain ⟨-, entry⟩ := sound.index.entry file d hd
    refine ⟨entry.language, fun name same later hl => sound.finds hl ?_⟩
    rw [Registry.finds_iff, same]
    exact entry.grammar

/-- A load that is cancelled, a document, and then another load, under spellings that are not used again. -/
theorem names_have_normal_forms_capitals :
    let engine : Engine := ⟨fun name _ => .ok ⟨name⟩, fun _ _ => some default, fun _ _ => none⟩
    let setup := { plainSetup "gpt2" with engine := engine }
    let steps : List Step := [.loadCancelled "Go ", .document "a.py" none (some "x = 1")]
    let s := (Session.run setup (.start []) steps).state
    let live : Live := ⟨(Action.load "JS\n" setup s).state, []⟩
    Live.Reaches setup (.start []) ⟨s, []⟩ ∧
      Language.normalize "\u2003PYTHON" = Language.normalize "python" ∧
      (Action.load "JS\n" setup s).result = .ok () ∧
      Language.normalize "JS\n" = Language.normalize " JavaScript" ∧
      (∃ d, s.index.cache.get? "/a.py" = some d ∧ d.language = "python" ∧
        s.index.registry.Finds "\u2003PYTHON" d.grammar) ∧
      ∃ g, live.state.index.registry.Finds " JavaScript" g := by
  intro engine setup steps s live
  have reached : Live.Reaches setup (.start []) ⟨s, []⟩ := Live.reaches_run setup (.start []) steps
  have python : Language.normalize "\u2003PYTHON" = Language.normalize "python" := by
    decide +kernel
  have javascript : Language.normalize "JS\n" = Language.normalize " JavaScript" := by
    decide +kernel
  have cached : (s.index.cache.get? "/a.py").map Document.language = some "python" := by
    decide +kernel
  have isOk : (Action.load "JS\n" setup s).result.isOk = true := by
    decide +kernel
  -- from here on nothing is evaluated
  clear_value s
  have loaded : (Action.load "JS\n" setup s).result = .ok () := by
    cases hr : (Action.load "JS\n" setup s).result with
    | ok _ => rfl
    | error e =>
      rw [hr] at isOk
      cases isOk
  obtain ⟨-, -, -, -, loads, documents⟩ := names_have_normal_forms reached
  obtain ⟨g, found⟩ := (loads "JS\n" " JavaScript" javascript).2 loaded
  obtain ⟨d, hd, hlanguage⟩ := Option.map_eq_some_iff.mp cached
  obtain ⟨normal, finds⟩ := documents "/a.py" d hd
  rw [hlanguage] at normal finds
  exact ⟨reached, python, loaded, javascript,
    ⟨d, hd, hlanguage, finds "\u2003PYTHON" (python.trans normal) ⟨s, []⟩ .refl⟩, g, found live .refl⟩

end CodeIndex
