import FlowEngine.Proofs.Run.Meaning
import FlowEngine.Simulation.Schedule
import Mathlib.Data.List.Forall2

/-!
# Simulated runs are runs

In a simulation the executions of a run begin, wait for replies, are woken and go on, in an order that
the clock and the scripts decide. Seen from the run, all that happens is that executions finish, one
after the other, in some order, each with an outcome that its node may end with. So whatever holds of
all of these runs holds of the simulated ones.

The executions of a simulated run carry what is left of them, and those of `Reaches` carry the envelope
that they were given. `Mirrors` relates the two, and `Work.Executes` says why: what is left of an
execution can only end in a way in which the node may end.

A node finds out at the beginning of its execution whether it has been cancelled. The predicate `P`
says which answers are possible: any, or that it never is.

## Main definitions

* `World.fixed`: what an activity cannot change.
* `Work.Executes`: what is left of an execution.
* `RunState.Mirrors`: the same run, with other data on its executions.
* `Follows`: a simulated run has come to a state that a run may come to.
* `World.GoesOn`: what it means for it to go on.

## Main results

* `World.fixed_poll`, `World.mayEnd_of_poll`: looking at an execution.
* `World.follows_newRun`, `World.goesOn_pollRun`: a run from its beginning on, and as it goes on.
* `Follows.length_running_le`, `World.yield_pollRun`: what this means for the limit and for the yield.
-/

namespace FlowEngine

/-! ## What stays -/

namespace World

/-- What an activity cannot change as it goes on, whatever it does. -/
def fixed (w : World) : EngineSettings × Registry × Bool × List Nat :=
  (w.engine.settings, w.engine.registry, w.engine.isShutDown, w.cancelled)

variable {α β : Type}

theorem fixed_foldl {f : World → β → World} (h : ∀ w b, (f w b).fixed = w.fixed) (bs : List β)
    (w : World) : (bs.foldl f w).fixed = w.fixed := by
  induction bs generalizing w with
  | nil => rfl
  | cons b bs ih => exact (ih (f w b)).trans (h w b)

theorem fixed_dispatch (w : World) (target : String) (request : TriggerRequest) :
    (w.dispatch target request).2.fixed = w.fixed := by
  simp only [dispatch]
  rw [fixed_foldl, fixed_foldl]
  · rfl
  · intro w a
    rfl
  · rintro w ⟨span, a⟩
    cases a <;> rfl

theorem fixed_pollWaiting (w : World) (c : OpenCall) : (w.pollWaiting c).2.fixed = w.fixed := by
  simp only [pollWaiting]
  split <;> rfl

theorem fixed_pollCall (w : World) (c : OpenCall) : (w.pollCall c).2.fixed = w.fixed := by
  simp only [pollCall]
  split
  · exact fixed_pollWaiting w c
  · split <;> rfl
  · split
    · exact fixed_pollWaiting w c
    · split
      · rfl
      · exact fixed_pollWaiting _ c

theorem fixed_beginCall (w : World) (token : Nat) (request : CallRequest) :
    (w.beginCall token request).2.fixed = w.fixed := by
  simp only [beginCall]
  split
  · rfl
  · cases request.mode <;> simp only <;> split
    all_goals
      first
      | exact fixed_pollWaiting _ _
      | exact (fixed_pollCall _ _).trans (fixed_dispatch _ _ _)

theorem fixed_drive (token : Nat) (t : Turn α) (w : World) :
    (drive token t w).2.fixed = w.fixed := by
  induction t generalizing w with
  | finished state a => rfl
  | waiting state request resume ih =>
    cases request with
    | http request => exact ih _ _ w
    | answer callId data status => exact ih _ _ _
    | pause span =>
      simp only [drive]
      split
      · exact ih _ _ _
      · rfl
    | call request =>
      have h := fixed_beginCall (w.withWorkspace state) token request
      simp only [drive]
      split
      · rename_i outcome w' hb
        rw [hb] at h
        exact (ih _ _ _).trans h
      · rename_i c w' hb
        rw [hb] at h
        exact h

theorem fixed_poll (w : World) (token : Nat) (work : Work α) :
    (w.poll token work).2.fixed = w.fixed := by
  cases work with
  | fresh begin => exact fixed_drive token _ w
  | parked p =>
    cases p with
    | pause due resume =>
      simp only [poll]
      split
      · exact fixed_drive token _ _
      · rfl
    | call c resume =>
      have h := fixed_pollCall w c
      simp only [poll]
      split
      · rename_i outcome w' hc
        rw [hc] at h
        exact (fixed_drive token _ w').trans h
      · rename_i c' w' hc
        rw [hc] at h
        exact h

theorem isCancelled_of_fixed {w w' : World} (h : w'.fixed = w.fixed) (token : Nat) :
    w'.isCancelled token = w.isCancelled token := by
  obtain ⟨-, -, hshut, hcancelled⟩ := by simpa [fixed] using h
  rw [isCancelled, isCancelled, hshut, hcancelled]

end World

/-! ## What is left of an execution -/

/-- What waits may end with this outcome. -/
def Parked.MayFinish {α : Type} (a : α) : Parked α → Prop
  | .pause _ resume => ∃ state, (resume () state).MayFinish a
  | .call _ resume => ∃ reply state, (resume reply state).MayFinish a

/-- What has gone on as far as it can has ended with this outcome, or may end with it. -/
def MayComeTo {α : Type} (a : α) : α ⊕ Parked α → Prop
  | .inl b => a = b
  | .inr p => p.MayFinish a

/-- What comes of an activity that goes on as far as it can is among what may come of it. -/
theorem World.mayFinish_of_drive {α : Type} {a : α} (token : Nat) (t : Turn α) (w : World)
    (h : MayComeTo a (drive token t w).1) : t.MayFinish a := by
  induction t generalizing w with
  | finished state b => exact Turn.mayFinish_finished_iff.mpr h
  | waiting state request resume ih =>
    cases request with
    | http request => exact .resumed _ _ (ih _ _ w h)
    | answer callId data status => exact .resumed _ _ (ih _ _ _ h)
    | pause span =>
      simp only [drive] at h
      split at h
      · exact .resumed _ _ (ih _ _ _ h)
      · obtain ⟨later, h⟩ := h
        exact .resumed () later h
    | call request =>
      simp only [drive] at h
      split at h
      · exact .resumed _ _ (ih _ _ _ h)
      · obtain ⟨reply, later, h⟩ := h
        exact .resumed reply later h

section Executes

variable (P : Bool → Prop) (registry : Registry) (agentId runId : String)

/-- An outcome that a node may end with, in a run that may have been cancelled. -/
def MayEnd (node : NodeConfig) (e : Envelope Value) (o : Outcome) : Prop :=
  ∃ cancelled, P cancelled ∧
    ∃ state, (registry.execute ⟨agentId, runId, cancelled⟩ node e state).MayFinish o

/-- This is what is left of an execution of a node on an envelope. -/
def Work.Executes (node : NodeConfig) (e : Envelope Value) : Work Outcome → Prop
  | .fresh begin => ∀ cancelled, begin cancelled = registry.execute ⟨agentId, runId, cancelled⟩ node e
  | .parked p => ∀ o, p.MayFinish o → MayEnd P registry agentId runId node e o

variable {P registry agentId runId}

/-- **An execution that is looked at** ends as its node may, or may go on to. -/
theorem World.mayEnd_of_poll {w : World} {token : Nat} (hP : P (w.isCancelled token))
    {node : NodeConfig} {e : Envelope Value} {work : Work Outcome}
    (h : work.Executes P registry agentId runId node e) {o : Outcome}
    (ho : MayComeTo o (w.poll token work).1) : MayEnd P registry agentId runId node e o := by
  cases work with
  | fresh begin =>
    refine ⟨w.isCancelled token, hP, w.engine.workspace, ?_⟩
    rw [← h]
    exact mayFinish_of_drive token _ w ho
  | parked p =>
    cases p with
    | pause due resume =>
      simp only [poll] at ho
      split at ho
      · exact h o ⟨_, mayFinish_of_drive token _ _ ho⟩
      · exact h o ho
    | call c resume =>
      simp only [poll] at ho
      split at ho
      · exact h o ⟨_, _, mayFinish_of_drive token _ _ ho⟩
      · exact h o ho

end Executes

/-! ## The same run with other data -/

namespace RunState

variable {stages limit : Nat} {φ : Type} {Q : Fin stages → φ → Envelope Value → Prop}

/-- Two runs are alike but for the data on their executions, which are related by `Q`. -/
structure Mirrors (Q : Fin stages → φ → Envelope Value → Prop) (r : RunState stages φ)
    (s : RunState stages (Envelope Value)) : Prop where
  queue : r.queue = s.queue
  running : List.Forall₂ (fun x y => x.1 = y.1 ∧ Q x.1 x.2 y.2) r.running s.running
  result : r.result = s.result

variable {r : RunState stages φ} {s : RunState stages (Envelope Value)}

theorem Mirrors.fillFrom {begin : Fin stages → Envelope Value → φ}
    (hbegin : ∀ stage e, Q stage (begin stage e) e) (queue : List (Nat × Envelope Value))
    {xs : List (Fin stages × φ)} {ys : List (Fin stages × Envelope Value)}
    (h : List.Forall₂ (fun x y => x.1 = y.1 ∧ Q x.1 x.2 y.2) xs ys) (result : RunResult) :
    Mirrors Q (fillFrom limit begin queue xs result)
      (fillFrom limit (fun _ e => e) queue ys result) := by
  induction queue generalizing xs ys result with
  | nil => exact ⟨rfl, h, rfl⟩
  | cons x queue ih =>
    obtain ⟨stage, e⟩ := x
    unfold RunState.fillFrom
    rw [h.length_eq]
    split
    · split
      · rename_i hs
        exact ih (List.rel_append h (.cons ⟨rfl, hbegin ⟨stage, hs⟩ e⟩ .nil)) result
      · exact ih h _
    · exact ⟨rfl, h, rfl⟩

/-- Both start the same executions. -/
theorem Mirrors.fill (h : Mirrors Q r s) {begin : Fin stages → Envelope Value → φ}
    (hbegin : ∀ stage e, Q stage (begin stage e) e) :
    Mirrors Q (r.fill limit begin) (s.filled limit) := by
  rw [RunState.fill, filled, RunState.fill, h.queue, h.result]
  exact Mirrors.fillFrom hbegin s.queue h.running s.result

theorem Mirrors.settle (h : Mirrors Q r s) (stage : Nat) (o : Outcome) :
    Mirrors Q (r.settle stage o) (s.settle stage o) := by
  rw [settle_eq, settle_eq, h.queue, h.result]
  exact ⟨rfl, h.running, rfl⟩

/-- The executions at one place of both runs. -/
theorem forall₂_split {α β : Type} {R : α → β → Prop} {xs : List α} {ys : List β}
    (h : List.Forall₂ R xs ys) {i : Nat} {x : α} (hx : xs[i]? = some x) :
    ∃ before y after, ys = before ++ y :: after ∧ R x y ∧
      List.Forall₂ R (xs.eraseIdx i) (before ++ after) ∧
      ∀ x', R x' y → List.Forall₂ R (xs.set i x') ys := by
  induction h generalizing i with
  | nil => simp at hx
  | @cons x' y xs ys hxy h ih =>
    cases i with
    | zero =>
      obtain rfl := Option.some.inj hx
      exact ⟨[], y, ys, rfl, hxy, h, fun x' hx' => .cons hx' h⟩
    | succ i =>
      obtain ⟨before, z, after, rfl, hz, herase, hset⟩ := ih hx
      exact ⟨y :: before, z, after, rfl, hz, .cons hxy herase, fun x' hx' => .cons hxy (hset x' hx')⟩

/-- A run that waits has nothing more to start. -/
theorem filled_filled (limit : Nat) (s : RunState stages (Envelope Value)) :
    (s.filled limit).filled limit = s.filled limit := by
  have hstop {queue : List (Nat × Envelope Value)} {running : List (Fin stages × Envelope Value)}
      {result : RunResult} (h : queue = [] ∨ max 1 limit ≤ running.length) :
      RunState.fillFrom (max 1 limit) (fun _ e => e) queue running result =
        ⟨queue, running, result⟩ := by
    cases queue with
    | nil => rfl
    | cons x queue =>
      have hlen := h.resolve_left nofun
      rw [RunState.fillFrom, if_neg (Nat.not_lt.mpr hlen)]
  exact hstop s.fill_exhausts

end RunState

/-! ## Simulated runs -/

/-- The execution of a stage, with what is left of it. -/
def Flight.Executes (P : Bool → Prop) (registry : Registry) (agentId runId : String)
    (pipeline : List NodeConfig) (stage : Fin pipeline.length) (f : Flight) (e : Envelope Value) :
    Prop :=
  f.work.Executes P registry agentId runId (pipeline.get stage) e

open RunState in
/-- A simulated run has come to a state that a run may come to when executions have finished in this
order, each as its node may. It may have started more executions already. -/
structure Follows (P : Bool → Prop) (registry : Registry) (agentId runId : String) (limit : Nat)
    {pipeline : List NodeConfig} (input : Envelope Value) (log : List (Finished pipeline.length))
    (s : RunState pipeline.length (Envelope Value)) (state : RunState pipeline.length Flight) :
    Prop where
  reaches : Reaches limit input log s
  mayEnd : ∀ c ∈ log, MayEnd P registry agentId runId (pipeline.get c.stage) c.input c.outcome
  mirrored : ∃ s', s'.filled limit = s.filled limit ∧
    Mirrors (Flight.Executes P registry agentId runId pipeline) state s'

section Follows

open RunState

variable {P : Bool → Prop} {registry : Registry} {agentId runId : String} {limit : Nat}
  {pipeline : List NodeConfig} {input : Envelope Value} {log : List (Finished pipeline.length)}
  {s : RunState pipeline.length (Envelope Value)} {state : RunState pipeline.length Flight}

theorem Follows.fill (h : Follows P registry agentId runId limit input log s state)
    {begin : Fin pipeline.length → Envelope Value → Flight}
    (hbegin : ∀ stage e, Flight.Executes P registry agentId runId pipeline stage (begin stage e) e) :
    Mirrors (Flight.Executes P registry agentId runId pipeline) (state.fill limit begin)
      (s.filled limit) := by
  obtain ⟨s', hs', hmirrors⟩ := h.mirrored
  rw [← hs']
  exact hmirrors.fill hbegin

theorem Follows.waiting (h : Follows P registry agentId runId limit input log s state)
    {state' : RunState pipeline.length Flight}
    (hm : Mirrors (Flight.Executes P registry agentId runId pipeline) state' (s.filled limit)) :
    Follows P registry agentId runId limit input log s state' :=
  ⟨h.reaches, h.mayEnd, _, filled_filled limit s, hm⟩

/-- One of the executions under way may end, and then the run goes on as runs do, or something may be
left of it, and then the run is where it was. -/
theorem Follows.exists_input (h : Follows P registry agentId runId limit input log s state)
    (hm : Mirrors (Flight.Executes P registry agentId runId pipeline) state (s.filled limit))
    {i : Nat} {stage : Fin pipeline.length} {f : Flight}
    (hi : state.running[i]? = some (stage, f)) :
    ∃ e, f.Executes P registry agentId runId pipeline stage e ∧
      (∀ o, MayEnd P registry agentId runId (pipeline.get stage) e o →
        ∃ s', Follows P registry agentId runId limit input (log ++ [⟨stage, e, o⟩]) s'
          ({ state with running := state.running.eraseIdx i }.settle stage o)) ∧
      ∀ f' : Flight, f'.Executes P registry agentId runId pipeline stage e →
        Follows P registry agentId runId limit input log s
          { state with running := state.running.set i (stage, f') } := by
  obtain ⟨before, ⟨stage', e⟩, after, hrunning, ⟨hstage, hexec⟩, herase, hset⟩ :=
    forall₂_split hm.running hi
  obtain rfl : stage = stage' := hstage
  refine ⟨e, hexec, fun o ho => ?_, fun f' hf' => ?_⟩
  · let s' := { s.filled limit with running := before ++ after }.settle stage.val o
    have hnext : Next limit s ⟨stage, e, o⟩ s' := ⟨before, after, hrunning, rfl⟩
    have hmirrors : Mirrors (Flight.Executes P registry agentId runId pipeline)
        { state with running := state.running.eraseIdx i }
        { s.filled limit with running := before ++ after } := ⟨hm.queue, herase, hm.result⟩
    refine ⟨s', h.reaches.next hnext, fun c hc => ?_, s', rfl, hmirrors.settle stage o⟩
    rcases List.mem_append.mp hc with hc | hc
    · exact h.mayEnd c hc
    · obtain rfl := List.mem_singleton.mp hc
      exact ho
  · exact h.waiting ⟨hm.queue, hset (stage, f') ⟨rfl, hf'⟩, hm.result⟩

/-- At no time are more executions under way in a simulation than allowed. -/
theorem Follows.length_running_le (h : Follows P registry agentId runId limit input log s state)
    {begin : Fin pipeline.length → Envelope Value → Flight}
    (hbegin : ∀ stage e, Flight.Executes P registry agentId runId pipeline stage (begin stage e) e) :
    (state.fill limit begin).running.length ≤ max 1 limit := by
  rw [(h.fill hbegin).running.length_eq]
  exact h.reaches.length_running_le

/-- What is over in a simulation is over. -/
theorem Follows.result_eq (hm : Mirrors (Flight.Executes P registry agentId runId pipeline) state
    (s.filled limit)) (hend : state.running = []) :
    (s.filled limit).running = [] ∧ (s.filled limit).result = state.result := by
  have hrunning := hm.running
  rw [hend] at hrunning
  exact ⟨List.forall₂_nil_left_iff.mp hrunning, hm.result.symm⟩

end Follows

namespace World

variable {P : Bool → Prop} {input : Envelope Value}

/-- Waking changes nothing about the executions. -/
theorem mirrors_rouseWith {registry : Registry} {r : Running}
    {s : RunState r.pipeline.length (Envelope Value)} (w : World)
    (h : RunState.Mirrors (Flight.Executes P registry r.agentId r.runId r.pipeline) r.state s) :
    ∃ w' state, w.rouseWith r = (w', { r with state }) ∧ w'.fixed = w.fixed ∧
      RunState.Mirrors (Flight.Executes P registry r.agentId r.runId r.pipeline) state s := by
  have hflights (next : Nat) {xs : List (Fin r.pipeline.length × Flight)}
      {ys : List (Fin r.pipeline.length × Envelope Value)}
      (h : List.Forall₂ (fun x y => x.1 = y.1 ∧
        Flight.Executes P registry r.agentId r.runId r.pipeline x.1 x.2 y.2) xs ys) :
      List.Forall₂ (fun x y => x.1 = y.1 ∧
        Flight.Executes P registry r.agentId r.runId r.pipeline x.1 x.2 y.2)
          (w.rouseFlights next xs).1 ys := by
    induction h generalizing next with
    | nil => exact .nil
    | @cons x y xs ys hxy h ih =>
      obtain ⟨stage, f⟩ := x
      simp only [rouseFlights]
      refine .cons ?_ (ih _)
      split <;> exact hxy
  exact ⟨_, { r.state with running := (w.rouseFlights w.nextWake r.state.running).1 }, rfl, rfl,
    h.queue, hflights w.nextWake h.running, h.result⟩

theorem follows_newRun (registry : Registry) (token : Nat) (agentId runId : String) (limit : Nat)
    (pipeline : List NodeConfig) (input : Envelope Value) :
    Follows P registry agentId runId limit input [] (.start input)
      (newRun token agentId runId pipeline input).state where
  reaches := .start
  mayEnd _ hc := nomatch hc
  mirrored := ⟨.start input, rfl, rfl, .nil, rfl⟩

/-- A run has gone on for some executions, and everything else is as it was. If it has gone on to the
end, its result is the one of a run that has ended. -/
def GoesOn (P : Bool → Prop) (registry : Registry) (limit : Nat) (input : Envelope Value) (w : World)
    (r : Running) (log : List (RunState.Finished r.pipeline.length))
    (x : Option RunResult × World × Running) : Prop :=
  ∃ more s state, x.2.2 = { r with state } ∧ x.2.1.fixed = w.fixed ∧
    Follows P registry r.agentId r.runId limit input (log ++ more) s state ∧
    ∀ result, x.1 = some result →
      (s.filled limit).running = [] ∧ (s.filled limit).result = result

section GoesOn

variable {registry : Registry} {limit : Nat} {w w' : World} {r : Running}
  {log more : List (RunState.Finished r.pipeline.length)}
  {s : RunState r.pipeline.length (Envelope Value)} {x : Option RunResult × World × Running}

/-- A run that waits. -/
theorem GoesOn.of_follows {state : RunState r.pipeline.length Flight} (hw : w'.fixed = w.fixed)
    (h : Follows P registry r.agentId r.runId limit input log s state) :
    GoesOn P registry limit input w r log (none, w', { r with state }) :=
  ⟨[], s, state, rfl, hw, by rwa [List.append_nil], nofun⟩

/-- A run that has gone on before. -/
theorem GoesOn.after {state : RunState r.pipeline.length Flight} (hw : w'.fixed = w.fixed)
    (h : GoesOn P registry limit input w' { r with state } (log ++ more) x) :
    GoesOn P registry limit input w r log x := by
  obtain ⟨more', s', state', hstate, hfixed, hfollows, hresult⟩ := h
  exact ⟨more ++ more', s', state', hstate, hfixed.trans hw,
    List.append_assoc log more more' ▸ hfollows, hresult⟩

end GoesOn

/-- **A simulated run stays a run as it goes on.** -/
theorem goesOn_pollRun {registry : Registry} {limit : Nat} (fuel : Nat) (w : World) (r : Running)
    {log : List (RunState.Finished r.pipeline.length)}
    {s : RunState r.pipeline.length (Envelope Value)} (hP : P (w.isCancelled r.token))
    (hregistry : w.engine.registry = registry) (hlimit : w.engine.settings.maxParallel = limit)
    (h : Follows P registry r.agentId r.runId limit input log s r.state) :
    GoesOn P registry limit input w r log (w.pollRun fuel r) := by
  induction fuel generalizing w r log s with
  | zero => exact .of_follows rfl h
  | succ fuel ih =>
    subst hregistry hlimit
    obtain ⟨w₁, state₁, hrouse, hw₁, hm⟩ := @mirrors_rouseWith P w.engine.registry
      { r with state := r.state.fill w.engine.settings.maxParallel (w.work r) } _ w
      (h.fill fun _ _ _ => rfl)
    have hwaits := h.waiting hm
    rw [pollRun]
    simp only
    generalize w.rouseWith { r with state := r.state.fill w.engine.settings.maxParallel (w.work r) } =
      roused at hrouse ⊢
    subst hrouse
    simp only
    split
    · split
      · rename_i hend
        refine ⟨[], s, state₁, rfl, hw₁, by rwa [List.append_nil], fun result hresult => ?_⟩
        obtain rfl := Option.some.inj hresult
        exact Follows.result_eq hm (List.isEmpty_iff.mp hend)
      · exact .of_follows hw₁ hwaits
    · split
      · exact .of_follows hw₁ hwaits
      · rename_i stage flight hflight
        obtain ⟨e, hexec, hended, hleft⟩ := hwaits.exists_input hm hflight
        have hw₂ := (fixed_poll w₁ r.token flight.work).trans hw₁
        have hpoll := fun o => @mayEnd_of_poll P w.engine.registry r.agentId r.runId w₁ r.token
          (by rwa [isCancelled_of_fixed hw₁]) _ e flight.work hexec o
        generalize w₁.poll r.token flight.work = polled at hw₂ hpoll ⊢
        obtain ⟨outcome, w₂⟩ := polled
        -- Whatever the execution has come to, what can go on is woken and the run goes on.
        have go (more : List (RunState.Finished r.pipeline.length))
            (s₂ : RunState r.pipeline.length (Envelope Value))
            (state₂ : RunState r.pipeline.length Flight)
            (h₂ : Follows P w.engine.registry r.agentId r.runId w.engine.settings.maxParallel input
              (log ++ more) s₂ state₂) :
            let roused := w₂.rouseWith { r with state := state₂ }
            GoesOn P w.engine.registry w.engine.settings.maxParallel input w r log
              (roused.1.pollRun fuel roused.2) := by
          obtain ⟨s₃, hs₃, hm₂⟩ := h₂.mirrored
          obtain ⟨w₃, state₃, hrouse₃, hw₃, hm₃⟩ :=
            @mirrors_rouseWith P w.engine.registry { r with state := state₂ } _ w₂ hm₂
          have hfixed := hw₃.trans hw₂
          simp only [hrouse₃]
          exact .after hfixed (ih w₃ { r with state := state₃ } (by rwa [isCancelled_of_fixed hfixed])
            (congrArg (fun x => x.2.1) hfixed) (congrArg (fun x => x.1.maxParallel) hfixed)
            ⟨h₂.reaches, h₂.mayEnd, s₃, hs₃, hm₃⟩)
        cases outcome with
        | inl o =>
          obtain ⟨s₂, h₂⟩ := hended o (hpoll o rfl)
          exact go [_] s₂ _ h₂
        | inr p => exact go [] s _ (by simpa using hleft ⟨none, .parked p⟩ hpoll)

/-- **A simulated run that ends without having been cancelled yields the meaning of its pipeline**,
whatever the scripts, the clock and other runs have done meanwhile. -/
theorem yield_pollRun {w : World} {r : Running} {log : List (RunState.Finished r.pipeline.length)}
    {s : RunState r.pipeline.length (Envelope Value)}
    {outcome : NodeConfig → Message Value → Except NodeError Said}
    (hm : Determined w.engine.registry ⟨r.agentId, r.runId, false⟩ r.pipeline outcome)
    (hcancelled : w.isCancelled r.token = false)
    (h : Follows (· = false) w.engine.registry r.agentId r.runId w.engine.settings.maxParallel input
      log s r.state)
    {fuel : Nat} {result : RunResult} (hresult : (w.pollRun fuel r).1 = some result) :
    result.yield = meaning outcome r.pipeline input.content := by
  obtain ⟨more, s', state, -, -, hfollows, hend⟩ := goesOn_pollRun fuel w r hcancelled rfl rfl h
  obtain ⟨hrunning, rfl⟩ := hend result hresult
  refine RunState.yield_of_ended hm hfollows.reaches (fun c hc => ?_) hrunning
  obtain ⟨_, rfl, hpossible⟩ := hfollows.mayEnd c hc
  exact hpossible

end World

end FlowEngine
