import CodeIndex.Proofs.Registry.Transition
import CodeIndex.Tool.Boundary
import Mathlib.Tactic.Choose

/-!
# CodeIndex.Proofs.Action.View

Operations that see and change a part of the state only.

* `View`: a part of the state, with how it is read and replaced, and what may happen to it.
* `Action.Within`: an operation is a function of the setup and one part, does there what may happen to
  it, and leaves the rest of the state as it is.
* `Within.bind` and its companions: an operation put together from such ones is such a one.
* `Still`: an operation leaves the index as it is.
* `Aside`: an operation touches the vocabularies only, without reading a file or calling the loader.
  Counting tokens and reporting a request are such ones.
-/

namespace CodeIndex

namespace Effect

/-- Reads no file and does not call the loader. -/
def isQuiet : Effect → Prop
  | .read _ | .load _ => False
  | .vocabulary _ | .log _ | .event _ | .shown _ => True

end Effect

structure View (σ : Type) where
  get : State → σ
  put : σ → State → State
  /-- What may become of the part, and with which effects. -/
  may : σ → List Effect → σ → Prop
  get_put : ∀ a s, get (put a s) = a
  put_put : ∀ a b s, put b (put a s) = put b s
  put_get : ∀ s, put (get s) s = s
  may_stay : ∀ a, may a [] a
  may_append : ∀ {a b c effects more}, may a effects b → may b more c → may a (effects ++ more) c

namespace View

def vocabularies : View (List String) where
  get s := s.world.vocabularies
  put v s := { s with world := { s.world with vocabularies := v } }
  may _ effects _ := ∀ effect ∈ effects, effect.isQuiet
  get_put _ _ := rfl
  put_put _ _ _ := rfl
  put_get _ := rfl
  may_stay := by simp
  may_append h h' := by
    intro effect hm
    rcases List.mem_append.mp hm with hm | hm
    · exact h effect hm
    · exact h' effect hm

/-- Everything but the documents. -/
def surroundings : View (Registry × World) where
  get s := (s.index.registry, s.world)
  put p s := { index := { s.index with registry := p.1 }, world := p.2 }
  may p _ q := (∃ events, q.1 = (p.1.run events).1) ∧ q.2.disk = p.2.disk
  get_put _ _ := rfl
  put_put _ _ _ := rfl
  put_get _ := rfl
  may_stay p := ⟨⟨[], rfl⟩, rfl⟩
  may_append := by
    rintro p q r _ _ ⟨⟨events, hq⟩, hd⟩ ⟨⟨events', hr⟩, hd'⟩
    exact ⟨⟨events ++ events', by rw [hr, hq, Registry.run_append_fst]⟩, hd'.trans hd⟩

end View

namespace Action

variable {σ α β : Type} {view : View σ}

def Within (view : View σ) (x : Action α) : Prop :=
  ∃ f : Setup → σ → Except Failure α × σ × List Effect,
    (∀ setup a, view.may a (f setup a).2.2 (f setup a).2.1) ∧
    ∀ setup s, x setup s =
      ⟨(f setup (view.get s)).1, view.put (f setup (view.get s)).2.1 s, (f setup (view.get s)).2.2⟩

namespace Within

/-! ## Putting operations together -/

protected theorem pure (a : α) : Within view (Pure.pure a : Action α) :=
  ⟨fun _ p => (.ok a, p, []), fun _ => view.may_stay,
    fun setup s => by rw [pure_run, view.put_get]⟩

protected theorem fail (e : Failure) : Within view (fail e : Action α) :=
  ⟨fun _ p => (.error e, p, []), fun _ => view.may_stay,
    fun setup s => by rw [view.put_get]; rfl⟩

protected theorem ofExcept (r : Except Error α) : Within view (ofExcept r) := by
  cases r with
  | ok a => exact .pure a
  | error e => exact .fail (.error e)

protected theorem setup : Within view Action.setup :=
  ⟨fun setup p => (.ok setup, p, []), fun _ => view.may_stay,
    fun setup s => by rw [view.put_get]; rfl⟩

protected theorem emit {effect : Effect} (h : ∀ a, view.may a [effect] a) :
    Within view (emit effect) :=
  ⟨fun _ p => (.ok (), p, [effect]), fun _ => h, fun setup s => by rw [view.put_get]; rfl⟩

protected theorem bind {x : Action α} {f : α → Action β} (hx : Within view x)
    (hf : ∀ a, Within view (f a)) : Within view (x >>= f) := by
  obtain ⟨run, may, same⟩ := hx
  choose next may' same' using hf
  refine ⟨fun setup p =>
    match run setup p with
    | (.ok a, q, effects) =>
      ((next a setup q).1, (next a setup q).2.1, effects ++ (next a setup q).2.2)
    | (.error e, q, effects) => (.error e, q, effects), ?_, ?_⟩
  · intro setup p
    have hm := may setup p
    rcases hr : run setup p with ⟨_ | a, q, effects⟩ <;> simp only [hr] at hm ⊢
    · exact hm
    · exact view.may_append hm (may' a setup q)
  · intro setup s
    rw [bind_run, same]
    rcases hr : run setup (view.get s) with ⟨_ | a, q, effects⟩
    · simp only [hr]
    · simp only [hr, same', view.get_put, view.put_put]

protected theorem attempt {x : Action α} (hx : Within view x) : Within view (attempt x) := by
  obtain ⟨run, may, same⟩ := hx
  refine ⟨fun setup p => (.ok (run setup p).1, (run setup p).2), may, fun setup s => ?_⟩
  simp only [Action.attempt, same]

/-- An operation that asks for the state, but to which only the view of it matters. -/
protected theorem state {f : State → Action β} (h : ∀ s, f s = f (view.put (view.get s) {}))
    (hf : ∀ s, Within view (f s)) : Within view (Action.state >>= f) := by
  choose run may same using hf
  refine ⟨fun setup p => run (view.put p {}) setup p, fun setup p => may _ setup p,
    fun setup s => ?_⟩
  rw [bind_run_ok (a := s) rfl, h]
  exact same (view.put (view.get s) {}) setup s

/-- What lies outside of the view stays. -/
theorem outside {x : Action α} (hx : Within view x) {γ : Type} (look : State → γ)
    (h : ∀ p s, look (view.put p s) = look s) (setup : Setup) (s : State) :
    look (x setup s).state = look s := by
  obtain ⟨run, -, same⟩ := hx
  rw [same]
  exact h _ s

/-- States with the same view cannot be told apart. -/
theorem agree {x : Action α} (hx : Within view x) {s t : State} (h : view.get s = view.get t)
    (setup : Setup) :
    (x setup s).result = (x setup t).result ∧ (x setup s).effects = (x setup t).effects ∧
      view.get (x setup s).state = view.get (x setup t).state := by
  obtain ⟨run, -, same⟩ := hx
  rw [same, same, h]
  exact ⟨rfl, rfl, by simp only [view.get_put]⟩

theorem may_run {x : Action α} (hx : Within view x) (setup : Setup) (s : State) :
    view.may (view.get s) (x setup s).effects (view.get (x setup s).state) := by
  obtain ⟨run, may, same⟩ := hx
  rw [same]
  dsimp only
  rw [view.get_put]
  exact may setup (view.get s)

end Within

theorem bind_assoc {γ : Type} (x : Action α) (f : α → Action β) (g : β → Action γ) :
    (x >>= f) >>= g = x >>= fun a => f a >>= g := by
  funext setup s
  simp only [bind_run]
  rcases x setup s with ⟨_ | a, s', effects⟩
  · rfl
  · rcases hf : f a setup s' with ⟨_ | b, s'', more⟩ <;> simp [hf]

/-- Operations that agree in a state agree there when the same follows. -/
theorem bind_congr_run {x y : Action α} {setup : Setup} {s : State} (h : x setup s = y setup s)
    (f : α → Action β) : (x >>= f) setup s = (y >>= f) setup s := by
  simp only [bind_run, h]

/-! ## Operations that leave the index alone -/

def Still (x : Action α) : Prop := ∀ setup s, (x setup s).state.index = s.index

theorem index_bind {x : Action α} {f : α → Action β} (hf : ∀ a, Still (f a)) (setup : Setup)
    (s : State) : ((x >>= f) setup s).state.index = (x setup s).state.index := by
  rw [bind_run]
  split
  · exact hf _ setup _
  · rfl

theorem Still.bind {x : Action α} {f : α → Action β} (hx : Still x) (hf : ∀ a, Still (f a)) :
    Still (x >>= f) := by
  intro setup s
  rw [index_bind hf, hx]

theorem still_pure (a : α) : Still (Pure.pure a : Action α) := fun _ _ => rfl

theorem still_fail (e : Failure) : Still (fail e : Action α) := fun _ _ => rfl

theorem still_ofExcept (r : Except Error α) : Still (ofExcept r) := by
  cases r <;> exact fun _ _ => rfl

theorem still_setup : Still Action.setup := fun _ _ => rfl

theorem still_state : Still Action.state := fun _ _ => rfl

theorem still_emit (effect : Effect) : Still (emit effect) := fun _ _ => rfl

theorem still_modifyWorld (f : World → World) : Still (modifyWorld f) := fun _ _ => rfl

theorem still_onFreshIndex (x : Action α) : Still (onFreshIndex x) := fun _ _ => rfl

/-! ## Tokens and reports -/

/-- Operations that touch the vocabularies only, reading no file and calling no loader. -/
def Aside (x : Action α) : Prop := Within .vocabularies x

theorem Aside.still {x : Action α} (h : Aside x) : Still x :=
  Within.outside h State.index fun _ _ => rfl

theorem aside_log (notice : Notice) : Aside (log notice) := .emit fun _ => by simp [View.vocabularies, Effect.isQuiet]

theorem aside_takeVocabulary (name : String) : Aside (takeVocabulary name) := by
  refine .state (fun s => rfl) fun s => ?_
  split
  · exact .pure ()
  · exact .bind (.emit fun _ => by simp [View.vocabularies, Effect.isQuiet]) fun _ =>
      ⟨fun _ v => (.ok (), v ++ [name], []), by simp [View.vocabularies], fun _ _ => rfl⟩

theorem aside_environmentEncoding : Aside environmentEncoding := by
  refine .bind .setup fun setup => ?_
  dsimp only
  split
  · exact .bind (aside_takeVocabulary _) fun _ => .pure _
  · exact .bind (.emit fun _ => by simp [View.vocabularies, Effect.isQuiet]) fun _ => .fail _

theorem aside_encoding : Aside encoding := by
  refine .bind .setup fun setup => ?_
  cases setup.encoding with
  | some encoding => exact .pure encoding
  | none => exact aside_environmentEncoding

theorem aside_tokensOf (text : String) : Aside (tokensOf text) := by
  unfold tokensOf
  split
  · exact .pure 0
  · exact .bind aside_encoding fun _ => .pure _

theorem aside_comparison (text : Node → String) (root : Node) (source : String) :
    Aside (Comparison.ofNode text root source) :=
  .bind (aside_tokensOf _) fun _ => .bind (aside_tokensOf _) fun _ =>
    .bind (aside_tokensOf _) fun _ => .pure _

theorem aside_partTokens (part : Part) : Aside (partTokens part) := by
  unfold partTokens
  split
  · exact aside_tokensOf _
  · exact .pure 0
  · exact aside_tokensOf _
  · exact .pure 0

theorem aside_answerTokens (parts : List Part) : Aside (answerTokens parts) := by
  induction parts with
  | nil => exact .pure 0
  | cons part parts ih => exact .bind (aside_partTokens part) fun _ => .bind ih fun _ => .pure _

theorem aside_logAll (notices : List Notice) : Aside (logAll notices) := by
  induction notices with
  | nil => exact .pure ()
  | cons notice notices ih => exact .bind (aside_log notice) fun _ => ih

theorem aside_report (event : Usage) : Aside (report event) := by
  refine .bind .setup fun setup => ?_
  cases setup.sink with
  | listener => exact .emit fun _ => by simp [View.vocabularies, Effect.isQuiet]
  | log =>
    dsimp only
    split
    · exact .fail _
    · exact aside_logAll _

end Action
end CodeIndex
