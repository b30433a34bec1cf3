import FlowEngine.Engine
import FlowEngine.Proofs.Run.Conservation
import FlowEngine.Proofs.Run.Outcomes
import Mathlib.Logic.Relation

/-!
# Runs that share a workspace

The executions of a run work on one workspace, and while one of them waits for a reply the others go
on, and so does whatever else uses the workspace. `SharedRun` keeps both in view: what is left of every
execution, and the workspace that it will find. Any execution may be the next to go on, any reply may
come, and in between the workspace may change in any way that `later` allows.

What a run keeps at all times is then a contract between its nodes and the workspace. A node may rely
on what is kept of the workspace whenever it goes on, and on what is known of the envelope that it was
given, and owes the same to the others: what it leaves in the workspace, what it emits, what it asks
for and how it fails. `Turn.Keeps` says this of an activity, by recursion on the activity itself, so it
is proved of sequences piece by piece. That a run keeps the contract if its nodes do is proved once.

## Main definitions

* `Turn.Keeps`, `Activity.Keeps`: what an activity may rely on and what it owes.
* `Execution`, `SharedRun`: an execution that has not finished, and a run with its workspace.
* `SharedRun.Reaches`: the states of a run under any schedule.
* `RunContract`, `SharedRun.Kept`: a contract, and that it has been kept so far.

## Main results

* `Activity.Keeps.bind`, `Activity.keeps_ask`, `Activity.keeps_use`: activities piece by piece.
* `Registry.keeps_execute`: an execution keeps what its node keeps.
* `SharedRun.Reaches.kept`: a run keeps the contract that its nodes keep.
-/

namespace FlowEngine

/-! ## Activities -/

/-- Whenever the activity goes on it finds a workspace with the property `G`, whatever it is replied.
It leaves such a workspace whenever it stops, asks only for what `A` allows, and ends as `Q` says. -/
def Turn.Keeps {α : Type} (G : Workspace → Prop) (A : Request → Prop) (Q : α → Prop) :
    Turn α → Prop
  | .finished state a => G state ∧ Q a
  | .waiting state request resume =>
    G state ∧ A request ∧ ∀ reply later, G later → (resume reply later).Keeps G A Q

/-- The same of an activity that has not begun. -/
def Activity.Keeps {α : Type} (G : Workspace → Prop) (A : Request → Prop) (Q : α → Prop)
    (activity : Activity α) : Prop :=
  ∀ state, G state → (activity state).Keeps G A Q

section Keeps

variable {α β : Type} {G : Workspace → Prop} {A : Request → Prop} {P : α → Prop} {Q : β → Prop}

theorem Turn.Keeps.andThen {t : Turn α} {next : α → Activity β} (h : t.Keeps G A P)
    (hnext : ∀ a, P a → (next a).Keeps G A Q) : (t.andThen next).Keeps G A Q := by
  induction t with
  | finished state a => exact hnext a h.2 state h.1
  | waiting state request resume ih =>
    obtain ⟨hstate, hrequest, hresume⟩ := h
    exact ⟨hstate, hrequest, fun reply later hlater => ih reply later (hresume reply later hlater)⟩

theorem Activity.Keeps.bind {activity : Activity α} {next : α → Activity β}
    (h : activity.Keeps G A P) (hnext : ∀ a, P a → (next a).Keeps G A Q) :
    (activity >>= next).Keeps G A Q :=
  fun state hstate => (h state hstate).andThen hnext

theorem Activity.keeps_pure {a : α} (h : P a) : (pure a : Activity α).Keeps G A P :=
  fun _ hstate => ⟨hstate, h⟩

theorem Activity.keeps_ask {request : Request} (h : A request) :
    (Activity.ask request).Keeps G A fun _ => True :=
  fun _ hstate => ⟨hstate, h, fun _ _ hlater => ⟨hlater, trivial⟩⟩

theorem Activity.keeps_use {f : Workspace → α × Workspace}
    (h : ∀ state, G state → G (f state).2 ∧ P (f state).1) : (Activity.use f).Keeps G A P :=
  h

/-- Drawing on the supply is no matter, if nothing that is kept is about the supply. -/
theorem Activity.keeps_issue {work : Issuing α}
    (hsupply : ∀ state supply, G state → G { state with supply }) (h : ∀ supply, P (work supply).1) :
    (Activity.issue work).Keeps G A P :=
  fun state hstate => ⟨hsupply state _ hstate, h state.supply⟩

theorem Activity.keeps_attempt {ε : Type} {checked : Except ε (Issuing α)} {P : Except ε α → Prop}
    (hsupply : ∀ state supply, G state → G { state with supply })
    (herror : ∀ error, checked = .error error → P (.error error))
    (h : Gives checked fun work => ∀ supply, P (.ok (work supply).1)) :
    (Activity.attempt checked).Keeps G A P := by
  cases checked with
  | error error => exact keeps_pure (herror error rfl)
  | ok work =>
    exact (keeps_issue (P := fun a => P (.ok a)) hsupply (h work rfl)).bind fun _ ha => keeps_pure ha

end Keeps

/-- An execution keeps what its node keeps. The envelope of a failure is drawn from the supply. -/
theorem Registry.keeps_execute {registry : Registry} {context : NodeContext} {node : NodeConfig}
    {input : Envelope Value} {G : Workspace → Prop} {A : Request → Prop}
    {P : Except NodeError NodeOutput → Prop} {Q : Outcome → Prop}
    (hsupply : ∀ state supply, G state → G { state with supply })
    (h : (registry.dispatch context node input).Keeps G A P)
    (hok : ∀ output, P (.ok output) → Q (.ok output))
    (herror : ∀ error supply, P (.error error) →
      Q (.error (NodeFailure.of node input error supply).1)) :
    (registry.execute context node input).Keeps G A Q :=
  h.bind fun answer hanswer => by
    cases answer with
    | ok output => exact Activity.keeps_pure (hok output hanswer)
    | error error =>
      refine (Activity.keeps_issue (P := fun failure => Q (.error failure)) hsupply ?_).bind
        fun failure hfailure => Activity.keeps_pure hfailure
      exact fun supply => herror error supply hanswer

/-! ## Runs -/

/-- An execution that has not finished. -/
inductive Execution where
  /-- It has not been looked at. -/
  | fresh (input : Envelope Value)
  /-- It waits for a reply. -/
  | waiting (input : Envelope Value) (request : Request)
    (resume : request.Reply → Workspace → Turn Outcome)

namespace Execution

/-- What the execution was given. -/
def input : Execution → Envelope Value
  | .fresh input | .waiting input _ _ => input

/-- How an execution may go on in a workspace. One that begins finds out whether it has been
cancelled, and one that waits gets any reply. -/
inductive GoesOn (begin : Bool → Envelope Value → Activity Outcome) :
    Execution → Workspace → Turn Outcome → Prop
  | begun (input : Envelope Value) (cancelled : Bool) (state : Workspace) :
    GoesOn begin (.fresh input) state (begin cancelled input state)
  | replied (input : Envelope Value) (request : Request)
    (resume : request.Reply → Workspace → Turn Outcome) (reply : request.Reply)
    (state : Workspace) :
    GoesOn begin (.waiting input request resume) state (resume reply state)

end Execution

/-- A run with the workspace that its executions share, and what they have done so far. -/
structure SharedRun (stages : Nat) where
  run : RunState stages Execution
  workspace : Workspace
  /-- What has been asked for, and by which stage. -/
  asked : List (Fin stages × Request) := []
  /-- The executions that have finished. -/
  finished : List (RunState.Finished stages) := []

namespace SharedRun

variable {stages : Nat}

/-- Starts executions as far as the limit allows. -/
def filled (limit : Nat) (r : RunState stages Execution) : RunState stages Execution :=
  r.fill limit fun _ e => .fresh e

/-- A run that begins. -/
def begin (limit : Nat) (workspace : Workspace) (input : Envelope Value) : SharedRun stages where
  run := filled limit (.start input)
  workspace := workspace

/-- One of the executions has gone on: it has finished, or waits. -/
def advance (s : SharedRun stages) (limit : Nat) (before after : List (Fin stages × Execution))
    (stage : Fin stages) (input : Envelope Value) : Turn Outcome → SharedRun stages
  | .finished workspace outcome =>
    { s with
      run := filled limit ({ s.run with running := before ++ after }.settle stage outcome)
      workspace
      finished := s.finished ++ [⟨stage, input, outcome⟩] }
  | .waiting workspace request resume =>
    { s with
      run.running := before ++ (stage, .waiting input request resume) :: after
      workspace
      asked := s.asked ++ [(stage, request)] }

/-- One step: the workspace has changed as `later` allows, or an execution goes on. -/
inductive Step (begin : Fin stages → Bool → Envelope Value → Activity Outcome) (limit : Nat)
    (later : Workspace → Workspace → Prop) : SharedRun stages → SharedRun stages → Prop
  | elsewhere {s : SharedRun stages} {workspace : Workspace} (h : later s.workspace workspace) :
    Step begin limit later s { s with workspace }
  | goesOn {s : SharedRun stages} {before after : List (Fin stages × Execution)}
    {stage : Fin stages} {x : Execution} {t : Turn Outcome}
    (hx : s.run.running = before ++ (stage, x) :: after)
    (ht : x.GoesOn (begin stage) s.workspace t) :
    Step begin limit later s (s.advance limit before after stage x.input t)

/-- A step takes back nothing that has been asked. -/
theorem Step.asked_subset {limit : Nat} {s t : SharedRun stages}
    {begin : Fin stages → Bool → Envelope Value → Activity Outcome}
    {later : Workspace → Workspace → Prop} (h : Step begin limit later s t) : s.asked ⊆ t.asked := by
  cases h with
  | elsewhere h => exact List.Subset.refl _
  | goesOn hx ht =>
    rename_i turn
    cases turn with
    | finished workspace outcome => exact List.Subset.refl _
    | waiting workspace request resume => exact List.subset_append_left _ _

/-- A run may come from one state to another. -/
abbrev Reaches (begin : Fin stages → Bool → Envelope Value → Activity Outcome) (limit : Nat)
    (later : Workspace → Workspace → Prop) : SharedRun stages → SharedRun stages → Prop :=
  Relation.ReflTransGen (Step begin limit later)

end SharedRun

/-! ## Contracts -/

/-- What a run keeps at all times. -/
structure RunContract (stages : Nat) where
  /-- Of the workspace. -/
  shared : Workspace → Prop
  /-- Of the envelopes that come to a stage, or past the last one. -/
  arrives : Nat → Envelope Value → Prop
  /-- Of what a stage asks for. -/
  asks : Fin stages → Request → Prop
  /-- Of the failures of a stage. -/
  fails : Fin stages → NodeFailure → Prop

namespace RunContract

variable {stages : Nat} (c : RunContract stages)

/-- How an execution of a stage may end. -/
structure Ends (stage : Fin stages) (o : Outcome) : Prop where
  emits : ∀ e ∈ o.emitted, c.arrives (stage + 1) e
  fails : ∀ failure, o = .error failure → c.fails stage failure

/-- What is left of an execution keeps the contract. -/
def Holds (stage : Fin stages) (x : Execution) : Prop :=
  c.arrives stage x.input ∧
    match x with
    | .fresh _ => True
    | .waiting _ _ resume => ∀ reply state, c.shared state →
      (resume reply state).Keeps c.shared (c.asks stage) (c.Ends stage)

/-- The nodes keep the contract. -/
def KeptBy (begin : Fin stages → Bool → Envelope Value → Activity Outcome) : Prop :=
  ∀ (stage : Fin stages) (cancelled : Bool) (e : Envelope Value), c.arrives stage e →
    (begin stage cancelled e).Keeps c.shared (c.asks stage) (c.Ends stage)

end RunContract

namespace SharedRun

variable {stages limit : Nat} {c : RunContract stages} {s t : SharedRun stages}
  {begin : Fin stages → Bool → Envelope Value → Activity Outcome}
  {later : Workspace → Workspace → Prop}

/-- The contract has been kept so far. -/
structure Kept (c : RunContract stages) (s : SharedRun stages) : Prop where
  shared : c.shared s.workspace
  queue : ∀ x ∈ s.run.queue, x.1 ≤ stages ∧ c.arrives x.1 x.2
  running : ∀ x ∈ s.run.running, c.Holds x.1 x.2
  outputs : ∀ e ∈ s.run.result.outputs, c.arrives stages e
  failures : s.run.result.failures = s.finished.filterMap fun f => f.outcome.failure?
  asked : ∀ x ∈ s.asked, c.asks x.1 x.2
  finished : ∀ f ∈ s.finished, c.arrives f.stage f.input ∧ c.Ends f.stage f.outcome

theorem mem_started {begin : Fin stages → Envelope Value → Execution}
    {queue : List (Nat × Envelope Value)} {x : Fin stages × Execution}
    (h : x ∈ RunState.started begin queue) :
    ∃ e, (x.1.val, e) ∈ queue ∧ x.2 = begin x.1 e := by
  obtain ⟨y, hy, hx⟩ := List.mem_filterMap.mp h
  split at hx
  · obtain rfl := Option.some.inj hx
    exact ⟨y.2, hy, rfl⟩
  · cases hx

/-- Starting executions. -/
theorem Kept.filled {r : RunState stages Execution} (h : Kept c { s with run := r }) (limit : Nat) :
    Kept c { s with run := filled limit r } := by
  obtain ⟨taken, rest, hqueue, hfill⟩ := @RunState.fill_eq stages Execution (fun _ e => .fresh e) limit r
  have htaken : ∀ x ∈ taken, x.1 ≤ stages ∧ c.arrives x.1 x.2 :=
    fun x hx => h.queue x (hqueue ▸ List.mem_append_left rest hx)
  rw [SharedRun.filled, hfill]
  constructor
  case shared => exact h.shared
  case queue => exact fun x hx => h.queue x (hqueue ▸ List.mem_append_right taken hx)
  case running =>
    intro x hx
    rcases List.mem_append.mp hx with hx | hx
    · exact h.running x hx
    · obtain ⟨e, he, hfresh⟩ := mem_started hx
      rw [hfresh]
      exact ⟨(htaken _ he).2, trivial⟩
  case outputs =>
    intro e he
    rcases List.mem_append.mp he with he | he
    · exact h.outputs e he
    · obtain ⟨x, hx, rfl⟩ := List.mem_map.mp he
      obtain ⟨hx, hle⟩ := List.mem_filter.mp hx
      obtain ⟨hge, harrives⟩ := htaken x hx
      rwa [Nat.le_antisymm hge (of_decide_eq_true hle)] at harrives
  case failures =>
    rw [← h.failures]
    exact List.append_nil _
  case asked => exact h.asked
  case finished => exact h.finished

/-- A run that begins. -/
theorem kept_begin {workspace : Workspace} {input : Envelope Value} (hshared : c.shared workspace)
    (hinput : c.arrives 0 input) : Kept c (SharedRun.begin limit workspace input) := by
  refine Kept.filled (s := ⟨.start input, workspace, [], []⟩) ?_ limit
  constructor
  case shared => exact hshared
  case queue =>
    intro x hx
    rw [List.mem_singleton.mp hx]
    exact ⟨Nat.zero_le _, hinput⟩
  all_goals simp [RunState.start]

/-- An execution has gone on. -/
theorem Kept.advance (h : Kept c s) {before after : List (Fin stages × Execution)}
    {stage : Fin stages} {x : Execution} (hx : s.run.running = before ++ (stage, x) :: after)
    {t : Turn Outcome} (ht : t.Keeps c.shared (c.asks stage) (c.Ends stage)) :
    Kept c (s.advance limit before after stage x.input t) := by
  have hrest : ∀ y ∈ before ++ after, c.Holds y.1 y.2 := by
    intro y hy
    refine h.running y ?_
    rw [hx]
    simp only [List.mem_append, List.mem_cons] at hy ⊢
    exact hy.imp_right .inr
  have hinput : c.arrives stage x.input := (h.running (stage, x) (by simp [hx])).1
  cases t with
  | finished workspace outcome =>
    obtain ⟨hshared, hends⟩ := ht
    refine Kept.filled (s := ⟨s.run, workspace, s.asked, s.finished ++ [⟨stage, x.input, outcome⟩]⟩)
      ?_ limit
    rw [RunState.settle_eq]
    constructor
    case shared => exact hshared
    case queue =>
      intro y hy
      rcases List.mem_append.mp hy with hy | hy
      · exact h.queue y hy
      · obtain ⟨e, he, rfl⟩ := List.mem_map.mp hy
        exact ⟨stage.isLt, hends.emits e he⟩
    case running => exact hrest
    case outputs =>
      intro e he
      refine h.outputs e ?_
      simpa using he
    case failures =>
      rw [List.filterMap_append, ← h.failures]
      rcases outcome with failure | (e | es | _) <;> rfl
    case asked => exact h.asked
    case finished =>
      intro f hf
      rcases List.mem_append.mp hf with hf | hf
      · exact h.finished f hf
      · rw [List.mem_singleton.mp hf]
        exact ⟨hinput, hends⟩
  | waiting workspace request resume =>
    obtain ⟨hshared, hrequest, hresume⟩ := ht
    constructor
    case shared => exact hshared
    case queue => exact h.queue
    case running =>
      intro y hy
      simp only [SharedRun.advance, List.mem_append, List.mem_cons] at hy
      rcases hy with hy | rfl | hy
      · exact hrest y (by simp [hy])
      · exact ⟨hinput, hresume⟩
      · exact hrest y (by simp [hy])
    case outputs => exact h.outputs
    case failures => exact h.failures
    case asked =>
      intro y hy
      rcases List.mem_append.mp hy with hy | hy
      · exact h.asked y hy
      · rw [List.mem_singleton.mp hy]
        exact hrequest
    case finished => exact h.finished

/-- One step. -/
theorem Step.kept (hstep : Step begin limit later s t)
    (hbegin : c.KeptBy begin)
    (hlater : ∀ state state', c.shared state → later state state' → c.shared state')
    (h : Kept c s) : Kept c t := by
  cases hstep with
  | elsewhere hw => exact { h with shared := hlater _ _ h.shared hw }
  | @goesOn before after stage x t hx ht =>
    obtain ⟨hinput, hleft⟩ := h.running (stage, x) (by simp [hx])
    refine h.advance hx ?_
    cases ht with
    | begun input cancelled => exact hbegin stage cancelled input hinput s.workspace h.shared
    | replied input request resume reply => exact hleft reply s.workspace h.shared

/-- **A run keeps the contract that its nodes keep**, under any schedule. -/
theorem Reaches.kept (hreach : Reaches begin limit later s t)
    (hbegin : c.KeptBy begin)
    (hlater : ∀ state state', c.shared state → later state state' → c.shared state')
    (h : Kept c s) : Kept c t := by
  induction hreach with
  | refl => exact h
  | tail _ hstep ih => exact hstep.kept hbegin hlater ih

/-! ## Replies that come at once -/

variable (begin limit later) in
/-- An execution whose requests are answered at once goes on until it has finished, and nothing else
happens meanwhile. -/
theorem exists_reaches_settle {σ : Type} (reply : (request : Request) → σ → request.Reply × σ)
    {before after : List (Fin stages × Execution)} {stage : Fin stages} {x : Execution}
    (hx : s.run.running = before ++ (stage, x) :: after) {t : Turn Outcome}
    (ht : x.GoesOn (begin stage) s.workspace t) (a : σ) :
    ∃ asked, Reaches begin limit later s
      ({ s with asked }.advance limit before after stage x.input
        (.finished (t.settle reply a).2.1 (t.settle reply a).1)) := by
  induction t generalizing s x a with
  | finished state outcome => exact ⟨s.asked, .single (.goesOn hx ht)⟩
  | waiting state request resume ih =>
    obtain ⟨asked, hreach⟩ := ih (reply request a).1 state
      (s := s.advance limit before after stage x.input (.waiting state request resume)) rfl
      (.replied x.input request resume (reply request a).1 state) (reply request a).2
    exact ⟨asked, .head (.goesOn hx ht) hreach⟩

/-- An execution that has not been looked at. -/
def asFresh (x : Fin stages × Envelope Value) : Fin stages × Execution := (x.1, .fresh x.2)

/-- A run none of whose executions has been looked at. -/
def ofFresh (r : RunState stages (Envelope Value)) : RunState stages Execution where
  queue := r.queue
  running := r.running.map asFresh
  result := r.result

theorem filled_ofFresh (limit : Nat) (r : RunState stages (Envelope Value)) :
    filled limit (ofFresh r) = ofFresh (r.filled limit) := by
  have fillFrom (limit : Nat) (queue : List (Nat × Envelope Value))
      (running : List (Fin stages × Envelope Value)) (result : RunResult) :
      RunState.fillFrom limit (fun _ e => .fresh e) queue
          (running.map asFresh) result =
        ofFresh (RunState.fillFrom limit (fun _ e => e) queue running result) := by
    induction queue generalizing running result with
    | nil => rfl
    | cons y queue ih =>
      obtain ⟨stage, e⟩ := y
      simp only [RunState.fillFrom, List.length_map]
      split
      · split
        · rw [← ih, List.map_append]
          rfl
        · exact ih running _
      · rfl
  exact fillFrom _ r.queue r.running r.result

/-- It stays one when an outcome is taken in and executions start. -/
theorem filled_settle_ofFresh (limit : Nat) (r : RunState stages (Envelope Value))
    (rest : List (Fin stages × Envelope Value)) (stage : Nat) (outcome : Outcome) :
    filled limit ({ ofFresh r with running := rest.map asFresh }.settle stage outcome) =
      ofFresh (({ r with running := rest }.settle stage outcome).filled limit) := by
  rw [← filled_ofFresh, RunState.settle_eq, RunState.settle_eq]
  rfl

/-- **A run whose requests are answered at once is one of these**: it ends with nothing under way. -/
theorem exists_reaches_runReady {σ : Type} {r : RunState stages (Envelope Value)}
    (reply : (request : Request) → σ → request.Reply × σ) (cancelled : Bool)
    (hs : s.run = ofFresh (r.filled limit)) (a : σ) :
    let (result, workspace, _) := r.runReady limit
      (fun stage e state => (begin stage cancelled e state.1).settle reply state.2) (s.workspace, a)
    ∃ t, Reaches begin limit later s t ∧ t.run.running = [] ∧ t.run.queue = [] ∧
      t.run.result = result ∧ t.workspace = workspace := by
  induction r using (RunState.wellFounded_next limit).induction generalizing s a with
  | _ r ih =>
    cases hr : (r.filled limit).running with
    | nil =>
      rw [RunState.runReady_of_nil hr]
      refine ⟨s, .refl, ?_, ?_, ?_, rfl⟩
      · rw [hs, ofFresh, hr, List.map_nil]
      · rw [hs]
        exact RunState.queue_fill_eq_nil r hr
      · rw [hs]
        rfl
    | cons x rest =>
      obtain ⟨stage, e⟩ := x
      have hrunning : s.run.running = [] ++ (stage, .fresh e) :: rest.map asFresh := by
        rw [hs, ofFresh, hr]
        rfl
      obtain ⟨asked, hreach⟩ := exists_reaches_settle limit begin later reply hrunning
        (.begun e cancelled s.workspace) a
      let outcome := ((begin stage cancelled e s.workspace).settle reply a).1
      have hnext : RunState.Next limit r ⟨stage, e, outcome⟩
          ({ r.filled limit with running := rest }.settle stage outcome) := ⟨[], rest, hr, rfl⟩
      have hrun : filled limit
          ({ s.run with running := [] ++ rest.map asFresh }.settle stage outcome) =
          ofFresh (({ r.filled limit with running := rest }.settle stage outcome).filled limit) := by
        rw [hs]
        exact filled_settle_ofFresh limit (r.filled limit) rest stage outcome
      obtain ⟨t, ht, h⟩ := ih _ ⟨_, hnext⟩ (s := { s with asked }.advance limit [] _ stage e
        (.finished ((begin stage cancelled e s.workspace).settle reply a).2.1 outcome)) hrun
        ((begin stage cancelled e s.workspace).settle reply a).2.2
      rw [RunState.runReady_of_cons hr]
      exact ⟨t, hreach.trans ht, h⟩

end SharedRun

/-- The executions of a pipeline, each of which finds out at its beginning whether it has been
cancelled. -/
def Registry.begin (registry : Registry) (context : NodeContext) (pipeline : List NodeConfig)
    (stage : Fin pipeline.length) (cancelled : Bool) (e : Envelope Value) : Activity Outcome :=
  registry.execute { context with cancelled } (pipeline.get stage) e

/-- The runs of an engine whose requests are answered at once are among these. -/
theorem Engine.exists_reaches {σ : Type} (engine : Engine) (context : NodeContext)
    (reply : (request : Request) → σ → request.Reply × σ) (pipeline : List NodeConfig)
    (input : Envelope Value) (later : Workspace → Workspace → Prop) (a : σ) :
    let (result, after, _) := engine.run context reply pipeline input a
    ∃ t, SharedRun.Reaches (engine.registry.begin context pipeline) engine.settings.maxParallel later
        (.begin engine.settings.maxParallel engine.workspace input) t ∧
      t.run.running = [] ∧ t.run.queue = [] ∧ t.run.result = result ∧
      t.workspace = after.workspace := by
  have hstart : (SharedRun.begin engine.settings.maxParallel engine.workspace input :
      SharedRun pipeline.length).run =
        SharedRun.ofFresh ((RunState.start input).filled engine.settings.maxParallel) :=
    SharedRun.filled_ofFresh _ (.start input)
  exact SharedRun.exists_reaches_runReady reply context.cancelled hstart a

end FlowEngine
