import CodeIndex.Proofs.Action.Loading
import CodeIndex.Proofs.Registry.Answer

/-!
# CodeIndex.Proofs.Registry.Gathering

Calls that start together in a registry in which nothing is pending, and then go on in any order until all
of them are over.

* `begun_run`: a run calls the loader for a name as often as attempts for it begin.
* `Gathered`: the registry when the calls have started. There is one new attempt for each name that is
  asked for and not registered, and no call waits for an older one. `gathered_run` adds one call at a time.
* `Completes`: events after which the calls are over.
* `Gathered.ended`, `Gathered.loads_run`: each new attempt has ended then with what the loader answers, and
  the loader has been called once for each.
-/

namespace CodeIndex

theorem CallStatus.isAnswer_of_isOver {s : CallStatus} (ended : s.isOver = true)
    (uncancelled : s.isUncancelled = true) : s.isAnswer = true := by
  cases s with
  | returned | raised => rfl
  | waiting | cancelling => cases ended
  | cancelled => cases uncancelled

namespace Registry

variable {r r' : Registry} {e : Event} {effects : List Effect}

/-! ## Tries -/

/-- How many of some attempts are for a name. -/
def tries (attempts : List Attempt) (name : String) : Nat := attempts.countP fun a => a.name == name

/-- How many attempts for a name have called the loader. -/
def begun (r : Registry) (name : String) : Nat :=
  r.attempts.countP fun a => a.name == name && a.progress.hasBegun

def loadsOf (effects : List Effect) : List String := effects.filterMap Effect.load?

@[simp] theorem loadsOf_nil : loadsOf [] = [] := rfl
@[simp] theorem loadsOf_log (notice : Notice) : loadsOf [.log notice] = [] := rfl
@[simp] theorem loadsOf_load (name : String) : loadsOf [.load name] = [name] := rfl

theorem loadsOf_append (a b : List Effect) : loadsOf (a ++ b) = loadsOf a ++ loadsOf b :=
  List.filterMap_append ..

/-- An attempt that gets further has called the loader `n` times on the way. -/
theorem begun_setProgress {k n : Nat} {name : String} {p p' : Progress}
    (hk : r.attempts[k]? = some ⟨name, p⟩) (h : p.hasBegun.toNat + n = p'.hasBegun.toNat)
    (other : String) :
    r.begun other + (if name = other then n else 0) = (r.setProgress k name p').begun other := by
  obtain ⟨hlt, hget⟩ := List.getElem?_eq_some_iff.mp hk
  unfold begun
  rw [attempts_setProgress, List.countP_set hlt, hget]
  by_cases hn : name = other
  · subst hn
    have hpos : p.hasBegun = true →
        0 < r.attempts.countP fun a => a.name == name && a.progress.hasBegun := by
      intro hp
      exact List.countP_pos_iff.mpr ⟨_, List.mem_of_getElem? hk, by simp [hp]⟩
    cases hb : p.hasBegun <;> cases hb' : p'.hasBegun <;> simp_all
  · simp [hn]

/-- An event calls the loader for a name just when an attempt for it begins. -/
theorem Does.begun (h : Does r e r' effects) (name : String) :
    r.begun name + (loadsOf effects).count name = r'.begun name := by
  cases h with
  | idle => rfl
  | present | joined | answered => simp [Registry.begun]
  | scheduled => simp [Registry.begun, List.countP_append, Progress.hasBegun]
  | cancelled | woken | left => simp [Registry.begun]
  | @started k other found =>
    rw [← begun_setProgress (n := 1) found rfl name]
    simp [List.count_cons]
  | @succeeded k other g found =>
    change _ = (r.setProgress k other (.finished (.ok g))).begun name
    rw [← begun_setProgress (n := 0) found rfl name]
    simp
  | @failed k other fault found =>
    rw [← begun_setProgress (n := 0) found rfl name]
    simp

theorem begun_run (r : Registry) (events : List Event) (name : String) :
    r.begun name + (loadsOf (r.run events).2).count name = (r.run events).1.begun name := by
  induction events generalizing r with
  | nil => rfl
  | cons e events ih =>
    rw [run_cons, loadsOf_append, List.count_append, ← Nat.add_assoc, (step_does r e).begun name, ih]

/-! ## The calls have started -/

/-- The registry after the calls for some names have started, with an attempt for each new name. -/
structure Gathered (r : Registry) (names news : List String) (r' : Registry) : Prop where
  coherent : Coherent r'
  grammars : r'.grammars = r.grammars
  attempts : r'.attempts = r.attempts ++ news.map (⟨·, .scheduled⟩)
  nodup : news.Nodup
  mem : ∀ name, name ∈ news ↔ name ∈ names ∧ r.grammars.get? name = none
  pending : ∀ {name : String} {k : Nat}, r'.pending.get? name = some k → r.attempts.length ≤ k
  calls : ∃ added, r'.calls = r.calls ++ added ∧ added.map LoadCall.name = names ∧
    ∀ c ∈ added, c.status.isUncancelled = true ∧ (∀ fault, c.status ≠ .raised fault) ∧
      ((c.attempt = none ∧ ∃ g, r.grammars.get? c.name = some g) ∨
        ∃ k, c.attempt = some k ∧ r.attempts.length ≤ k)

namespace Gathered

variable {names news : List String} {r₁ : Registry} {name language : String}

theorem nil (h : Coherent r) (idle : ∀ name, r.pending.get? name = none) : Gathered r [] [] r where
  coherent := h
  grammars := rfl
  attempts := by simp
  nodup := List.nodup_nil
  mem := by simp
  pending := by
    intro name k hk
    rw [idle] at hk
    cases hk
  calls := ⟨[], by simp⟩

/-- A new attempt is one of a new name, and it has not begun. -/
theorem getElem?_of_le (h : Gathered r names news r₁) {k : Nat} {a : Attempt}
    (hk : r₁.attempts[k]? = some a) (hle : r.attempts.length ≤ k) :
    news[k - r.attempts.length]? = some a.name ∧ a.progress = .scheduled := by
  rw [h.attempts, List.getElem?_append_right hle, List.getElem?_map, Option.map_eq_some_iff] at hk
  obtain ⟨name, hname, rfl⟩ := hk
  exact ⟨hname, rfl⟩

theorem getElem?_of_mem (h : Gathered r names news r₁) (hm : name ∈ news) :
    ∃ k, r.attempts.length ≤ k ∧ r₁.attempts[k]? = some ⟨name, .scheduled⟩ := by
  obtain ⟨j, hj⟩ := List.mem_iff_getElem?.mp hm
  refine ⟨r.attempts.length + j, Nat.le_add_right _ _, ?_⟩
  rw [h.attempts, List.getElem?_append_right (Nat.le_add_right _ _), Nat.add_sub_cancel_left,
    List.getElem?_map, hj]
  rfl

/-- The pending names are the new ones. -/
theorem mem_of_pending (h : Gathered r names news r₁) {k : Nat}
    (hk : r₁.pending.get? name = some k) : name ∈ news ∧ r₁.outcome? k = none := by
  obtain ⟨p, hp⟩ := h.coherent.pending hk
  obtain ⟨hname, hprogress⟩ := h.getElem?_of_le hp (h.pending hk)
  refine ⟨List.mem_of_getElem? hname, ?_⟩
  rw [outcome?_of_getElem? hp, hprogress]
  rfl

theorem pending_of_mem (h : Gathered r names news r₁) (hm : name ∈ news) :
    r₁.pending.get? name ≠ none := by
  obtain ⟨k, -, hk⟩ := h.getElem?_of_mem hm
  rw [(h.coherent.unfinished hk rfl).1]
  exact nofun

/-- One more call that needs no attempt of its own. -/
theorem addCall (h : Gathered r names news r₁) {c : LoadCall} (hname : c.name = name)
    (coherent : Coherent (r₁.addCall c)) (known : r.grammars.get? name = none → name ∈ news)
    (hc : c.status.isUncancelled = true ∧ (∀ fault, c.status ≠ .raised fault) ∧
      ((c.attempt = none ∧ ∃ g, r.grammars.get? c.name = some g) ∨
        ∃ k, c.attempt = some k ∧ r.attempts.length ≤ k)) :
    Gathered r (names ++ [name]) news (r₁.addCall c) where
  coherent := coherent
  grammars := h.grammars
  attempts := h.attempts
  nodup := h.nodup
  mem := by
    intro other
    rw [h.mem, List.mem_append, List.mem_singleton]
    constructor
    · rintro ⟨hm, hg⟩
      exact ⟨.inl hm, hg⟩
    · rintro ⟨hm | rfl, hg⟩
      · exact ⟨hm, hg⟩
      · exact (h.mem other).mp (known hg)
  pending := h.pending
  calls := by
    obtain ⟨added, hcalls, hnames, hadded⟩ := h.calls
    refine ⟨added ++ [c], by rw [calls_addCall, hcalls, List.append_assoc], ?_, ?_⟩
    · rw [List.map_append, hnames, List.map_singleton, hname]
    · intro c' hc'
      rcases List.mem_append.mp hc' with hc' | hc'
      · exact hadded c' hc'
      · rw [List.mem_singleton.mp hc']
        exact hc

/-- One more call, and a new attempt for its name. -/
theorem schedule (h : Gathered r names news r₁) (unregistered : r.grammars.get? name = none)
    (new : name ∉ news)
    (coherent : Coherent ((r₁.schedule name).addCall ⟨name, some r₁.attempts.length, .waiting⟩)) :
    Gathered r (names ++ [name]) (news ++ [name])
      ((r₁.schedule name).addCall ⟨name, some r₁.attempts.length, .waiting⟩) where
  coherent := coherent
  grammars := h.grammars
  attempts := by simp [h.attempts]
  nodup := List.nodup_append.mpr ⟨h.nodup, by simp, by
    rintro a ha b hb rfl
    rw [List.mem_singleton.mp hb] at ha
    exact new ha⟩
  mem := by
    intro other
    rw [List.mem_append, List.mem_append, List.mem_singleton, h.mem]
    constructor
    · rintro (⟨hm, hg⟩ | rfl)
      · exact ⟨.inl hm, hg⟩
      · exact ⟨.inr rfl, unregistered⟩
    · rintro ⟨hm | rfl, hg⟩
      · exact .inl ⟨hm, hg⟩
      · exact .inr rfl
  pending := by
    intro other k hk
    rw [pending_addCall, get?_pending_schedule] at hk
    split at hk
    · cases hk
      simp [h.attempts]
    · exact h.pending hk
  calls := by
    obtain ⟨added, hcalls, hnames, hadded⟩ := h.calls
    refine ⟨added ++ [⟨name, some r₁.attempts.length, .waiting⟩], ?_, ?_, ?_⟩
    · rw [calls_addCall, calls_schedule, hcalls, List.append_assoc]
    · rw [List.map_append, hnames, List.map_singleton]
    · intro c hc
      rcases List.mem_append.mp hc with hc | hc
      · exact hadded c hc
      · rw [List.mem_singleton.mp hc]
        exact ⟨rfl, fun fault => nofun, .inr ⟨_, rfl, by simp [h.attempts]⟩⟩

theorem call (h : Gathered r names news r₁) (named : Language.normalize language = name) :
    ∃ news', Gathered r (names ++ [name]) news' (r₁.call language).1 ∧
      loadsOf (r₁.call language).2 = [] := by
  have coherent : Coherent (r₁.call language).1 := h.coherent.step (.call language)
  cases hg : r₁.grammars.get? name with
  | some g =>
    have hold : r.grammars.get? name = some g := by rw [← h.grammars, hg]
    rw [call_registered named hg] at coherent ⊢
    refine ⟨news, h.addCall rfl coherent (fun hn => ?_) ⟨rfl, fun fault => nofun, .inl ⟨rfl, g, hold⟩⟩, rfl⟩
    rw [hold] at hn
    cases hn
  | none =>
    cases hp : r₁.pending.get? name with
    | some k =>
      obtain ⟨hm, ho⟩ := h.mem_of_pending hp
      rw [call_unfinished named hg hp ho] at coherent ⊢
      exact ⟨news, h.addCall rfl coherent (fun _ => hm)
        ⟨rfl, fun fault => nofun, .inr ⟨k, rfl, h.pending hp⟩⟩, rfl⟩
    | none =>
      have hnew : name ∉ news := fun hm => h.pending_of_mem hm hp
      rw [call_free named hg hp] at coherent ⊢
      exact ⟨news ++ [name], h.schedule (by rw [← h.grammars, hg]) hnew coherent, rfl⟩

end Gathered

theorem gathered_run (h : Coherent r) (idle : ∀ name, r.pending.get? name = none)
    (languages : List String) :
    ∃ news, Gathered r (languages.map Language.normalize) news (r.run (languages.map .call)).1 ∧
      loadsOf (r.run (languages.map .call)).2 = [] := by
  induction languages using List.reverseRecOn with
  | nil => exact ⟨[], .nil h idle, rfl⟩
  | append_singleton languages language ih =>
    obtain ⟨news, gathered, hloads⟩ := ih
    obtain ⟨news', gathered', hloads'⟩ := gathered.call (rfl : Language.normalize language = _)
    refine ⟨news', ?_, ?_⟩
    · rw [List.map_append, List.map_append, run_append_fst]
      exact gathered'
    · rw [List.map_append, run_append, loadsOf_append, hloads]
      simpa [run_cons, step] using hloads'

/-! ## All calls are over -/

/-- Only calls make attempts and calls. -/
theorem lengths_run {events : List Event} (h : ∀ e ∈ events, e.language? = none) :
    (r.run events).1.attempts.length = r.attempts.length ∧
      (r.run events).1.calls.length = r.calls.length := by
  induction events generalizing r with
  | nil => exact ⟨rfl, rfl⟩
  | cons e events ih =>
    obtain ⟨hattempts, hcalls⟩ := (step_does r e).lengths (h e List.mem_cons_self)
    rw [run_cons, ← hattempts, ← hcalls]
    exact ih fun e' he => h e' (List.mem_cons_of_mem e he)

theorem Grows.finished (h : Grows r r') {k : Nat} {name : String}
    {outcome : Except LoadFault Grammar} (hk : r.attempts[k]? = some ⟨name, .finished outcome⟩) :
    r'.attempts[k]? = some ⟨name, .finished outcome⟩ := by
  obtain ⟨p, hp⟩ := h.attempt hk
  obtain ⟨other, hk'⟩ := outcome?_eq_some_iff.mp (h.outcome (outcome?_of_getElem? hk))
  rw [hp] at hk'
  cases hk'
  exact hp

/-- Where nothing is pending all attempts have ended. -/
theorem Coherent.ended_of_idle (h : Coherent r) (idle : ∀ name, r.pending.get? name = none) {k : Nat}
    {a : Attempt} (hk : r.attempts[k]? = some a) : ∃ outcome, a = ⟨a.name, .finished outcome⟩ := by
  obtain ⟨name, p⟩ := a
  cases p with
  | finished outcome => exact ⟨outcome, rfl⟩
  | scheduled | running =>
    have hp := (h.unfinished hk rfl).1
    rw [idle] at hp
    cases hp

/-- Events that bring the calls of a batch to their ends, after they have started. -/
structure Completes (answer : String → Except LoadFault Grammar) (r : Registry) (names : List String)
    (r₁ : Registry) (later : List Event) : Prop where
  uncalled : ∀ e ∈ later, e.language? = none
  uncancelled : ∀ i, r.calls.length ≤ i → .cancel i ∉ later
  answers : ∀ {k : Nat} {outcome : Except LoadFault Grammar} {name : String} {p : Progress},
    .finish k outcome ∈ later → r.attempts.length ≤ k → r₁.attempts[k]? = some ⟨name, p⟩ →
      outcome = answer name
  allOver : ∀ i < names.length, ∃ s,
    (r₁.run later).1.status? (r.calls.length + i) = some s ∧ s.isOver = true

/-- The registry after a batch: each new attempt has ended with what the loader answers, the calls have
answers, and nothing is pending. -/
structure Ended (answer : String → Except LoadFault Grammar) (r : Registry) (names news : List String)
    (r' : Registry) : Prop where
  coherent : Coherent r'
  grows : Grows r r'
  mem : ∀ name, name ∈ news ↔ name ∈ names ∧ r.grammars.get? name = none
  attempts : r'.attempts = r.attempts ++ news.map fun name => ⟨name, .finished (answer name)⟩
  call : ∀ {i : Nat} {name : String}, names[i]? = some name →
    ∃ c, r'.calls[r.calls.length + i]? = some c ∧ c.name = name ∧ c.status.isAnswer = true ∧
      ((c.attempt = none ∧ ∃ g, r.grammars.get? name = some g) ∨
        ∃ k, c.attempt = some k ∧ r.attempts.length ≤ k)
  idle : ∀ name, r'.pending.get? name = none

namespace Gathered

variable {names news : List String} {r₁ : Registry} {later : List Event}
  {answer : String → Except LoadFault Grammar} (h : Gathered r names news r₁)

include h

theorem grows (later : List Event) : Grows r (r₁.run later).1 := by
  have old : ∀ {k : Nat} {a : Attempt}, r.attempts[k]? = some a → r₁.attempts[k]? = some a := by
    intro k a hk
    rw [h.attempts, List.getElem?_append_left (List.getElem?_eq_some_iff.mp hk).1, hk]
  have first : Grows r r₁ := by
    refine ⟨fun hg => ?_, fun hk => ⟨_, old hk⟩, fun ho => ?_, fun ho _ hp => ?_⟩
    · rw [h.grammars]
      exact hg
    · obtain ⟨name, hk⟩ := outcome?_eq_some_iff.mp ho
      exact outcome?_of_getElem? (old hk)
    · obtain ⟨o, ho⟩ := Option.isSome_iff_exists.mp ho
      obtain ⟨name, hk⟩ := outcome?_eq_some_iff.mp ho
      have hlt := (List.getElem?_eq_some_iff.mp hk).1
      have hge := h.pending hp
      omega
  exact first.trans (h.coherent.grows_run later)

/-- Before a new attempt its name has been tried as often as before the batch. -/
theorem tries_take {j : Nat} {name : String} (hj : news[j]? = some name) :
    tries (r₁.attempts.take (r.attempts.length + j)) name = tries r.attempts name := by
  have new : name ∉ news.take j := by
    intro hm
    obtain ⟨i, hi⟩ := List.mem_iff_getElem?.mp hm
    rw [List.getElem?_take] at hi
    split at hi
    · rename_i hlt
      have heq := (List.getElem?_inj (List.getElem?_eq_some_iff.mp hi).1 h.nodup).mp (hi.trans hj.symm)
      omega
    · cases hi
  have hmap : (news.map fun name => Attempt.mk name .scheduled).take j =
      (news.take j).map fun name => Attempt.mk name .scheduled := List.map_take.symm
  have hzero : ((news.take j).map fun name => Attempt.mk name .scheduled).countP
      (fun a => a.name == name) = 0 := by
    rw [List.countP_map]
    exact List.count_eq_zero.mpr new
  unfold tries
  rw [h.attempts, List.take_length_add_append, hmap, List.countP_append, hzero, Nat.add_zero]

/-- A call that serves a new attempt is one of the batch. -/
theorem le_of_serves (coherent : Coherent r) {i k : Nat} {c : LoadCall}
    (hi : (r₁.run later).1.calls[i]? = some c) (serves : c.attempt = some k)
    (new : r.attempts.length ≤ k) : r.calls.length ≤ i := by
  by_contra hn
  obtain ⟨added, hcalls, -⟩ := h.calls
  obtain ⟨c₀, hc₀⟩ : ∃ c₀, r.calls[i]? = some c₀ :=
    ⟨_, List.getElem?_eq_getElem (Nat.lt_of_not_le hn)⟩
  have hi₁ : r₁.calls[i]? = some c₀ := by
    rw [hcalls, List.getElem?_append_left (Nat.lt_of_not_le hn), hc₀]
  obtain ⟨s, hs, -⟩ := call_run hi₁ later
  rw [hi] at hs
  cases hs
  obtain ⟨p, hp⟩ := (coherent.call c₀ (List.mem_of_getElem? hc₀)).attempt serves
  have hlt := (List.getElem?_eq_some_iff.mp hp).1
  omega

variable (done : Completes answer r names r₁ later)

include done

theorem call_over {i : Nat} {name : String} (hi : names[i]? = some name) :
    ∃ c, (r₁.run later).1.calls[r.calls.length + i]? = some c ∧ c.name = name ∧
      c.status.isAnswer = true ∧ ((c.attempt = none ∧ ∃ g, r.grammars.get? name = some g) ∨
        ∃ k, c.attempt = some k ∧ r.attempts.length ≤ k) := by
  obtain ⟨s', hs', hover⟩ := done.allOver i (List.getElem?_eq_some_iff.mp hi).1
  obtain ⟨added, hcalls, hnames, hadded⟩ := h.calls
  rw [← hnames, List.getElem?_map, Option.map_eq_some_iff] at hi
  obtain ⟨c, hc, rfl⟩ := hi
  obtain ⟨hun, -, hattempt⟩ := hadded c (List.mem_of_getElem? hc)
  have hi₁ : r₁.calls[r.calls.length + i]? = some c := by
    rw [hcalls, List.getElem?_append_right (Nat.le_add_right _ _), Nat.add_sub_cancel_left, hc]
  obtain ⟨s, hs, next⟩ := call_run hi₁ later
  rw [status?, hs] at hs'
  cases hs'
  have hun' := next.uncancelled hun (done.uncancelled _ (Nat.le_add_right _ _))
  exact ⟨_, hs, rfl, CallStatus.isAnswer_of_isOver hover hun', hattempt⟩

variable (coherent : Coherent r)

include coherent

/-- Every new attempt has ended, since the calls for it have answers. -/
theorem answered_of_new {k : Nat} {a : Attempt} (hk : (r₁.run later).1.attempts[k]? = some a)
    (new : r.attempts.length ≤ k) :
    ∃ c ∈ (r₁.run later).1.calls, c.attempt = some k ∧ c.status.isAnswer = true := by
  obtain ⟨added, hcalls, hnames, -⟩ := h.calls
  obtain ⟨c, hc, serves⟩ := (h.coherent.run later).caller hk
  obtain ⟨i, hi⟩ := List.mem_iff_getElem?.mp hc
  have hge := h.le_of_serves coherent hi serves new
  have hlt := (List.getElem?_eq_some_iff.mp hi).1
  have hlength : added.length = names.length := by rw [← hnames, List.length_map]
  rw [(lengths_run done.uncalled).2, hcalls, List.length_append, hlength] at hlt
  obtain ⟨c', hc', -, hanswer, -⟩ := h.call_over done
    (List.getElem?_eq_getElem (by omega : i - r.calls.length < names.length))
  rw [Nat.add_sub_cancel' hge, hi] at hc'
  cases hc'
  exact ⟨c, hc, serves, hanswer⟩

/-- A new attempt has ended with what the loader answers for its name. -/
theorem getElem?_new {j : Nat} {name : String} (hj : news[j]? = some name) :
    (r₁.run later).1.attempts[r.attempts.length + j]? = some ⟨name, .finished (answer name)⟩ := by
  have hk₁ : r₁.attempts[r.attempts.length + j]? = some ⟨name, .scheduled⟩ := by
    rw [h.attempts, List.getElem?_append_right (Nat.le_add_right _ _), Nat.add_sub_cancel_left,
      List.getElem?_map, hj]
    rfl
  obtain ⟨p, hk⟩ := (h.coherent.grows_run later).attempt hk₁
  obtain ⟨c, hc, serves, hs⟩ := h.answered_of_new done coherent hk (Nat.le_add_right _ _)
  obtain ⟨outcome, ho, -⟩ := ((h.coherent.run later).call c hc).answer serves hs
  have houtcome : outcome = answer name := by
    rcases finish_mem_of_outcome? ho with ho₁ | hm
    · rw [outcome?_of_getElem? hk₁] at ho₁
      cases ho₁
    · exact done.answers hm (Nat.le_add_right _ _) hk₁
  obtain ⟨other, hk'⟩ := outcome?_eq_some_iff.mp ho
  rw [hk] at hk'
  cases hk'
  rw [hk, houtcome]

variable (idle : ∀ name, r.pending.get? name = none)

include idle

theorem attempts_run : (r₁.run later).1.attempts =
    r.attempts ++ news.map fun name => ⟨name, .finished (answer name)⟩ := by
  apply List.ext_getElem?
  intro k
  by_cases hlt : k < r.attempts.length
  · have hk := List.getElem?_eq_getElem hlt
    obtain ⟨outcome, ha⟩ := coherent.ended_of_idle idle hk
    rw [List.getElem?_append_left hlt, hk]
    rw [ha] at hk ⊢
    exact (h.grows later).finished hk
  · obtain ⟨j, rfl⟩ := Nat.exists_eq_add_of_le (Nat.le_of_not_lt hlt)
    rw [List.getElem?_append_right (Nat.le_add_right _ _), Nat.add_sub_cancel_left,
      List.getElem?_map]
    cases hj : news[j]? with
    | some name => exact h.getElem?_new done coherent hj
    | none =>
      have hlength : (r₁.run later).1.attempts.length = r.attempts.length + news.length := by
        rw [(lengths_run done.uncalled).1, h.attempts, List.length_append, List.length_map]
      have hle := List.getElem?_eq_none_iff.mp hj
      exact List.getElem?_eq_none (by omega)

theorem idle_run (name : String) : (r₁.run later).1.pending.get? name = none := by
  by_contra hp
  obtain ⟨k, hk⟩ := Option.ne_none_iff_exists'.mp hp
  obtain ⟨p, hattempt⟩ := (h.coherent.run later).pending hk
  by_cases hlt : k < r.attempts.length
  · have hold := List.getElem?_eq_getElem hlt
    obtain ⟨outcome, ha⟩ := coherent.ended_of_idle idle hold
    rw [ha] at hold
    refine (h.grows later).released ?_ ?_ hk
    · rw [outcome?_of_getElem? hold]
      rfl
    · rw [idle]
      exact nofun
  · obtain ⟨c, hc, serves, hs⟩ := h.answered_of_new done coherent hattempt (Nat.le_of_not_lt hlt)
    have hfits := (h.coherent.run later).call c hc
    obtain ⟨p', hp'⟩ := hfits.attempt serves
    rw [hattempt] at hp'
    cases hp'
    exact hfits.released serves hs hk

theorem ended : Ended answer r names news (r₁.run later).1 where
  coherent := h.coherent.run later
  grows := h.grows later
  mem := h.mem
  attempts := h.attempts_run done coherent idle
  call := h.call_over done
  idle := h.idle_run done coherent idle

/-- The loader has been called once for each new name. -/
theorem loads_run : (loadsOf (r₁.run later).2).Perm news := by
  rw [List.perm_iff_count]
  intro name
  have hbegun := begun_run r₁ later name
  unfold begun at hbegun
  rw [h.attempts_run done coherent idle, h.attempts, List.countP_append, List.countP_append,
    List.countP_map, List.countP_map] at hbegun
  have hzero : news.countP ((fun a : Attempt => a.name == name && a.progress.hasBegun) ∘
      fun name => ⟨name, .scheduled⟩) = 0 := by
    simp [Progress.hasBegun]
  have hcount : news.countP ((fun a : Attempt => a.name == name && a.progress.hasBegun) ∘
      fun name => ⟨name, .finished (answer name)⟩) = news.count name := by
    apply List.countP_congr
    simp [Progress.hasBegun]
  omega

end Gathered

end Registry
end CodeIndex
