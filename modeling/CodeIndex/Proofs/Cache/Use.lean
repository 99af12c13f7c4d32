import CodeIndex.Proofs.Cache.Parsing

/-!
# CodeIndex.Proofs.Cache.Use

What steps ask of the cache, whichever way they come in: directly, as a request, or as a function of
the server.

* `Step.use`: the lookup, the parse or the removal that a step consists in, if it consists in one.
* `leads_step`: the index after a step is the one after its use alone.
* `Answers`: the lookups of a path, answered from a document that is there.
* `hits_step`: a step whose lookup finds an entry touches the vocabularies only. `FromEntry` says what
  this means for its effects and its result.
-/

namespace CodeIndex

inductive Use where
  | lookup (path : String) (language content : Option String)
  | parse (path : String) (language content : Option String)
  | forget (path : String)
  | forgetAll
  | other

def Request.use : Request → Use
  | .loadLanguages _ => .other
  | .reparse path language content => .parse path language content
  | .captures path _ | .elements path _ | .enclosing path _ => .lookup path none none
  | .comparison path language content => .lookup path (some language) content

/-- The use of a request by name; one that is refused has none. -/
def Use.ofRequest (name : String) (arguments : Table Value) : Use :=
  match Tool.named? name with
  | none => .other
  | some tool =>
    match tool.request arguments with
    | .ok request => request.use
    | .error _ => .other

def Step.use : Step → Use
  | .request name arguments _ => .ofRequest name arguments
  | .function tool given => .ofRequest tool.name (Function.arguments tool given)
  | .document path language content => .lookup path language content
  | .captures path _ | .elements path _ | .enclosing path _ => .lookup path none none
  | .comparison path language content => .lookup path language content
  | .reparse path language content => .parse path language content
  | .forget path => .forget path
  | .forgetAll => .forgetAll
  | .entry _ | .isCached _ | .load _ | .loadEach _ | .loadCancelled _ | .isLoaded _ | .grammar _
  | .write _ _ | .delete _ | .describe _ | .commandLine _ => .other

namespace Action

variable {α β : Type} {setup : Setup} {s : State}

/-! ## The index after a step -/

/-- The index after a use. Without one, the documents stay and the registry moves by events. -/
def Leads (setup : Setup) (s : State) (i : Index) : Use → Prop
  | .lookup path language content => i = (document path language content setup s).state.index
  | .parse path language content => i = (reparse path language content setup s).state.index
  | .forget path => i = (Action.forget path setup s).state.index
  | .forgetAll => i = (Action.forgetAll setup s).state.index
  | .other => i.cache = s.index.cache ∧ i.made = s.index.made ∧
    ∃ events, i.registry = (s.index.registry.run events).1

theorem Apart.leads {x : Action α} (h : Apart x) : Leads setup s (x setup s).state.index .other :=
  ⟨h.cache setup s, h.made setup s, (h.may_run setup s).1⟩

theorem Still.leads {x : Action α} (h : Still x) : Leads setup s (x setup s).state.index .other := by
  rw [h setup s]
  exact ⟨rfl, rfl, [], rfl⟩

theorem Leads.bind {x : Action α} {f : α → Action β} {use : Use}
    (h : Leads setup s (x setup s).state.index use) (hf : ∀ a, Still (f a)) :
    Leads setup s ((x >>= f) setup s).state.index use := by
  rw [index_bind hf]
  exact h

theorem leads_lookup (path : String) (language content : Option String) :
    Leads setup s (document path language content setup s).state.index
      (.lookup path language content) := rfl

theorem leads_captures (path query : String) :
    Leads setup s (captures path query setup s).state.index (.lookup path none none) :=
  (leads_lookup path none none).bind fun _ => .bind still_setup fun _ => still_ofExcept _

theorem leads_elements (path kind : String) :
    Leads setup s (elements path kind setup s).state.index (.lookup path none none) :=
  (leads_lookup path none none).bind fun _ => still_pure _

theorem leads_enclosing (path : String) (p : Point) :
    Leads setup s (enclosing path p setup s).state.index (.lookup path none none) :=
  (leads_lookup path none none).bind fun _ => .bind still_setup fun _ => still_pure _

theorem leads_comparison (path : String) (language content : Option String) :
    Leads setup s (comparison path language content setup s).state.index
      (.lookup path language content) :=
  (leads_lookup path language content).bind fun _ => (aside_comparison _ _ _).still

theorem leads_request_run (request : Request) :
    Leads setup s (request.run setup s).state.index request.use := by
  cases request with
  | loadLanguages languages => exact (apart_loadTogether languages).leads.bind fun _ => still_pure _
  | reparse path language content => exact Leads.bind rfl fun _ => still_pure _
  | captures path query => exact (leads_captures path query).bind fun _ => still_pure _
  | elements path kind => exact (leads_elements path kind).bind fun _ => still_pure _
  | enclosing path point => exact (leads_enclosing path point).bind fun _ => still_pure _
  | comparison path language content =>
    exact (leads_comparison path (some language) content).bind fun _ => still_pure _

theorem leads_request (name : String) (arguments : Table Value) (seconds : Float) :
    Leads setup s (request name arguments seconds setup s).state.index
      (.ofRequest name arguments) := by
  refine Leads.bind ?_ fun answer => .bind (aside_answerTokens answer.parts).still fun _ =>
    .bind (aside_report _).still fun _ => still_pure answer
  unfold answer Use.ofRequest
  cases Tool.named? name with
  | none => exact (still_pure _).leads
  | some tool =>
    dsimp only
    refine Leads.bind (x := attempt (handle tool arguments)) ?_ fun result => ?_
    · show Leads setup s (handle tool arguments setup s).state.index _
      unfold handle
      cases tool.request arguments with
      | ok request => exact leads_request_run request
      | error e => exact (still_fail _).leads
    · split
      · exact still_pure _
      · exact .bind (still_emit _) fun _ => still_pure _
      · exact still_fail _

theorem still_checkLevel : Still checkLevel := by
  refine .bind still_setup fun setup => ?_
  dsimp only
  split
  · exact still_pure _
  · exact still_fail _

theorem still_drawAll (outputs : List Output) : Still (drawAll outputs) := by
  induction outputs with
  | nil => exact still_pure _
  | cons output outputs ih =>
    refine .bind still_setup fun setup => ?_
    split
    · exact .bind (still_emit _) fun _ => ih
    · exact still_fail _

/-- A command works on an index of its own. -/
theorem still_commandLine (arguments : List String) : Still (commandLine arguments) := by
  unfold commandLine
  split
  · exact still_pure _
  · refine .bind still_checkLevel fun _ => ?_
    split
    · exact still_pure _
    · exact .bind (still_onFreshIndex _) fun _ => .bind (still_drawAll _) fun _ => still_pure _

theorem leads_step (step : Step) : Leads setup s (step.run setup s).state.index step.use := by
  cases step with
  | request name arguments seconds =>
    exact (leads_request name arguments seconds).bind fun _ => still_pure _
  | function tool given =>
    exact Leads.bind ((leads_request _ _ _).bind fun _ => still_pure _) fun _ => still_pure _
  | document path language content =>
    exact (leads_lookup path language content).bind fun _ => still_pure _
  | reparse path language content => exact Leads.bind rfl fun _ => still_pure _
  | entry path =>
    refine (still_entry path).leads.bind fun d => ?_
    cases d <;> exact still_pure _
  | isCached path => exact (still_isCached path).leads.bind fun _ => still_pure _
  | forget path => exact Leads.bind rfl fun _ => still_pure _
  | forgetAll => exact Leads.bind rfl fun _ => still_pure _
  | captures path query => exact (leads_captures path query).bind fun _ => still_pure _
  | elements path kind => exact (leads_elements path kind).bind fun _ => still_pure _
  | enclosing path point => exact (leads_enclosing path point).bind fun _ => still_pure _
  | comparison path language content =>
    exact (leads_comparison path language content).bind fun _ => still_pure _
  | load language => exact (apart_load language).leads.bind fun _ => still_pure _
  | loadEach languages => exact (apart_loadEach languages).leads.bind fun _ => still_pure _
  | loadCancelled language => exact (apart_loadCancelled language).leads.bind fun _ => still_pure _
  | isLoaded language => exact (apart_isLoaded language).leads.bind fun _ => still_pure _
  | grammar language => exact (apart_grammar language).leads.bind fun _ => still_pure _
  | write path entry =>
    exact still_setup.leads.bind fun _ => .bind (still_modifyWorld _) fun _ => still_pure _
  | delete path =>
    exact still_setup.leads.bind fun _ => .bind (still_modifyWorld _) fun _ => still_pure _
  | describe tool => exact (still_pure _).leads
  | commandLine arguments => exact (still_commandLine arguments).leads.bind fun _ => still_pure _

/-! ## Lookups that find an entry -/

/-- The lookups of a path when its entry is `d`: they use this document, whatever language and content
they are given, and leave the state alone. -/
structure Answers (setup : Setup) (s : State) (path file : String) (d : Document) : Prop where
  document : ∀ language content,
    document path language content setup s = ⟨.ok d, s, [.log (.cacheHit file)]⟩
  captures : ∀ query, captures path query setup s =
    ⟨(Capture.list setup.engine.queryFault? d query).mapError .error, s, [.log (.cacheHit file)]⟩
  elements : ∀ kind, elements path kind setup s =
    ⟨.ok (Element.list d kind), s, [.log (.cacheHit file)]⟩
  enclosing : ∀ p, enclosing path p setup s =
    ⟨.ok (Enclosing.text? d (Language.blocks setup.blocks d.language) p), s, [.log (.cacheHit file)]⟩
  comparison : ∀ language content, comparison path language content setup s =
    (log (.cacheHit file) >>= fun _ => Comparison.ofNode d.textOf d.tree.root d.text) setup s
  request : ∀ language other content content',
    (Request.comparison path language content).run setup s =
      (Request.comparison path other content').run setup s

variable {file path : String} {d : Document}

theorem comparison_run_hit (hf : fileOf? setup path = some file)
    (hd : s.index.cache.get? file = some d) (language content : Option String) :
    comparison path language content setup s =
      (log (.cacheHit file) >>= fun _ => Comparison.ofNode d.textOf d.tree.root d.text) setup s := by
  unfold comparison
  rw [bind_run, document_run_hit hf hd]
  rfl

theorem answers_of_hit (hf : fileOf? setup path = some file)
    (hd : s.index.cache.get? file = some d) : Answers setup s path file d where
  document language content := document_run_hit hf hd
  captures query := by
    unfold captures
    rw [bind_run, document_run_hit hf hd]
    dsimp only
    rw [bind_run_ok (a := setup) rfl]
    dsimp only [Action.setup]
    cases Capture.list setup.engine.queryFault? d query <;> rfl
  elements kind := by
    unfold elements
    rw [bind_run, document_run_hit hf hd]
    rfl
  enclosing p := by
    unfold enclosing
    rw [bind_run, document_run_hit hf hd]
    rfl
  comparison := comparison_run_hit hf hd
  request language other content content' :=
    bind_congr_run ((comparison_run_hit hf hd (some language) content).trans
      (comparison_run_hit hf hd (some other) content').symm) _

/-- Wherever `d` is the entry of the file, the operation is one that touches the vocabularies only. -/
def Hits (setup : Setup) (file : String) (d : Document) (x : Action α) : Prop :=
  ∃ y : Action α, Aside y ∧ ∀ s, s.index.cache.get? file = some d → x setup s = y setup s

theorem Hits.bind {x : Action α} {f : α → Action β} (h : Hits setup file d x)
    (hf : ∀ a, Aside (f a)) : Hits setup file d (x >>= f) := by
  obtain ⟨y, aside, same⟩ := h
  exact ⟨y >>= f, .bind aside hf, fun s hs => bind_congr_run (same s hs) f⟩

theorem Hits.attempt {x : Action α} (h : Hits setup file d x) : Hits setup file d (attempt x) := by
  obtain ⟨y, aside, same⟩ := h
  exact ⟨Action.attempt y, Within.attempt aside, fun s hs => by simp only [Action.attempt, same s hs]⟩

theorem hits_document (hf : fileOf? setup path = some file) (language content : Option String) :
    Hits setup file d (document path language content) :=
  ⟨log (.cacheHit file) >>= fun _ => Pure.pure d, .bind (aside_log _) fun _ => .pure d,
    fun _ hd => document_run_hit hf hd⟩

theorem hits_captures (hf : fileOf? setup path = some file) (query : String) :
    Hits setup file d (captures path query) :=
  (hits_document hf none none).bind fun _ => .bind .setup fun _ => .ofExcept _

theorem hits_elements (hf : fileOf? setup path = some file) (kind : String) :
    Hits setup file d (elements path kind) :=
  (hits_document hf none none).bind fun _ => .pure _

theorem hits_enclosing (hf : fileOf? setup path = some file) (p : Point) :
    Hits setup file d (enclosing path p) :=
  (hits_document hf none none).bind fun _ => .bind .setup fun _ => .pure _

theorem hits_comparison (hf : fileOf? setup path = some file) (language content : Option String) :
    Hits setup file d (comparison path language content) :=
  (hits_document hf language content).bind fun _ => aside_comparison _ _ _

section Hits

variable {language content : Option String} (hf : fileOf? setup path = some file)

include hf

theorem hits_request_run {request : Request} (hu : request.use = .lookup path language content) :
    Hits setup file d request.run := by
  cases request with
  | loadLanguages languages => cases hu
  | reparse path language content => cases hu
  | captures path query =>
    cases hu
    exact (hits_captures hf query).bind fun _ => .pure _
  | elements path kind =>
    cases hu
    exact (hits_elements hf kind).bind fun _ => .pure _
  | enclosing path point =>
    cases hu
    exact (hits_enclosing hf point).bind fun _ => .pure _
  | comparison path language content =>
    cases hu
    exact (hits_comparison hf (some language) content).bind fun _ => .pure _

theorem hits_request {name : String} {arguments : Table Value}
    (hu : Use.ofRequest name arguments = .lookup path language content) (seconds : Float) :
    Hits setup file d (request name arguments seconds) := by
  refine Hits.bind ?_ fun answer => .bind (aside_answerTokens answer.parts) fun _ =>
    .bind (aside_report _) fun _ => .pure answer
  unfold Use.ofRequest at hu
  unfold answer
  cases hn : Tool.named? name with
  | none =>
    rw [hn] at hu
    cases hu
  | some tool =>
    rw [hn] at hu
    dsimp only at hu ⊢
    refine Hits.bind (x := attempt (handle tool arguments)) (.attempt ?_) fun result => ?_
    · unfold handle
      cases hr : tool.request arguments with
      | ok request =>
        rw [hr] at hu
        exact hits_request_run hf hu
      | error e =>
        rw [hr] at hu
        cases hu
    · split
      · exact .pure _
      · exact .bind (aside_log _) fun _ => .pure _
      · exact .fail _

theorem hits_step {step : Step} (hu : step.use = .lookup path language content) :
    Hits setup file d step.run := by
  cases step with
  | request name arguments seconds => exact (hits_request hf hu seconds).bind fun _ => .pure _
  | function tool given =>
    exact Hits.bind ((hits_request hf hu _).bind fun _ => .pure _) fun _ => .pure _
  | document path language content =>
    cases hu
    exact (hits_document hf language content).bind fun _ => .pure _
  | captures path query =>
    cases hu
    exact (hits_captures hf query).bind fun _ => .pure _
  | elements path kind =>
    cases hu
    exact (hits_elements hf kind).bind fun _ => .pure _
  | enclosing path point =>
    cases hu
    exact (hits_enclosing hf point).bind fun _ => .pure _
  | comparison path language content =>
    cases hu
    exact (hits_comparison hf language content).bind fun _ => .pure _
  | _ => cases hu

end Hits

/-- An operation that answers from the entry: in any two states with this entry and the same
vocabularies it has the same result and effects, it reads no file, calls no loader, and leaves the
index, the disk and the record of loads as they are. -/
structure FromEntry (setup : Setup) (file : String) (d : Document) (s : State) (x : Action α) :
    Prop where
  quiet : ∀ effect ∈ (x setup s).effects, effect.isQuiet
  index : (x setup s).state.index = s.index
  disk : (x setup s).state.world.disk = s.world.disk
  loads : (x setup s).state.world.loads = s.world.loads
  same : ∀ t : State, t.index.cache.get? file = some d →
    t.world.vocabularies = s.world.vocabularies →
      (x setup t).result = (x setup s).result ∧ (x setup t).effects = (x setup s).effects

theorem Hits.fromEntry {x : Action α} (h : Hits setup file d x)
    (hd : s.index.cache.get? file = some d) : FromEntry setup file d s x := by
  obtain ⟨y, aside, same⟩ := h
  refine ⟨?_, ?_, ?_, ?_, fun t ht hv => ?_⟩
  · rw [same s hd]
    exact aside.may_run setup s
  · rw [same s hd]
    exact aside.still setup s
  · rw [same s hd]
    exact Within.outside aside (fun s => s.world.disk) (fun _ _ => rfl) setup s
  · rw [same s hd]
    exact Within.outside aside (fun s => s.world.loads) (fun _ _ => rfl) setup s
  · rw [same s hd, same t ht]
    obtain ⟨hresult, heffects, -⟩ := Within.agree aside hv setup
    exact ⟨hresult, heffects⟩

end Action
end CodeIndex
