import FlowEngine.Engine
import FlowEngine.Proofs.Run.Conservation

/-!
# Work that is ready at once keeps its order

Executions may finish as soon as they are looked at, and be looked at in the order in which they were
started. Then a run executes a pipeline level by level: the first node on the input, the second one on
all that the first has emitted, from left to right, and so on. How many may be under way at once makes
no difference, not even to nodes that keep state.

The run itself knows no levels. Envelopes of two stages stand in its line, what has passed the last
stage leaves the queue without ever being under way, and what is emitted goes to the back. The line is
what keeps the order: whatever is under way stands before whatever waits, so it is one queue that is
only ever taken from at the front and added to at the back. At any time it holds what is left of one
level, followed by what has been emitted of the next one; `wave` says what comes of such a line.

## Main definitions

* `runLevel`, `runLevels`: the execution of a level, and of all levels one after the other.
* `wave`: the same from the middle of a level on.

## Main results

* `runLevels_append`: levels after levels.
* `RunState.line_filled`: starting executions keeps the order of the line.
* `RunState.runReady_of_line`, `RunState.runReady_of_level`: a run from the middle or from the
  beginning of a level on.
* `RunState.runReady_start`: a run is what its levels are.
* `Engine.run_eq`: the same for an engine.
-/

namespace FlowEngine

variable {σ : Type}

/-! ## Level by level -/

/-- Executes a node on envelopes from left to right, each in the state that the one before has left. -/
def runLevel (execute : Envelope Value → σ → Outcome × σ) :
    List (Envelope Value) → σ → List Outcome × σ
  | [], s => ([], s)
  | e :: es, s =>
    let (o, s) := execute e s
    let (os, s) := runLevel execute es s
    (o :: os, s)

/-- What a run has come to, apart from its outputs. -/
def RunResult.withoutOutputs (r : RunResult) : RunResult := { r with outputs := [] }

/-- What a level adds to the result, apart from what it emits. -/
def levelResult (os : List Outcome) : RunResult where
  failures := os.filterMap Outcome.failure?
  pending := os.countP Outcome.isPending
  executions := os.length

/-- Executes the nodes of a pipeline one after the other, each on all that the one before has emitted.
What the last one emits are the outputs. -/
def runLevels : List (Envelope Value → σ → Outcome × σ) → List (Envelope Value) → σ → RunResult × σ
  | [], es, s => (.ofOutputs es, s)
  | execute :: rest, es, s =>
    let (os, s) := runLevel execute es s
    let (result, s) := runLevels rest (os.flatMap Outcome.emitted) s
    (levelResult os ++ result, s)

/-- Goes on in the middle of a level: `current` is what is left of it, and `following` is what has been
emitted so far. -/
def wave : List (Envelope Value → σ → Outcome × σ) → List (Envelope Value) → List (Envelope Value) →
    σ → RunResult × σ
  | [], current, _, s => (.ofOutputs current, s)
  | execute :: rest, current, following, s =>
    let (os, s) := runLevel execute current s
    let (result, s) := runLevels rest (following ++ os.flatMap Outcome.emitted) s
    (levelResult os ++ result, s)

section Wave

variable (execute : Envelope Value → σ → Outcome × σ)
  (rest : List (Envelope Value → σ → Outcome × σ)) (e : Envelope Value)
  (current following : List (Envelope Value)) (s : σ)

theorem levelResult_cons (o : Outcome) (os : List Outcome) :
    levelResult (o :: os) = .ofOutcome o ++ levelResult os := by
  simp only [levelResult, List.filterMap_cons, List.countP_cons, List.length_cons]
  rcases o with failure | (e | es | _) <;>
    exact RunResult.ext_fields rfl rfl (Nat.add_comm ..) (Nat.add_comm ..)

theorem levelResult_append_ofOutputs (os : List Outcome) (done later : List (Envelope Value)) :
    levelResult os ++ .ofOutputs (done ++ later) =
      .ofOutputs done ++ (levelResult os ++ .ofOutputs later) :=
  RunResult.ext_fields rfl (by simp [levelResult, RunResult.ofOutputs])
    (by simp [levelResult, RunResult.ofOutputs]) (by simp [levelResult, RunResult.ofOutputs])

theorem runLevels_nil (stages : List (Envelope Value → σ → Outcome × σ)) :
    runLevels stages [] s = ({}, s) := by
  induction stages with
  | nil => rfl
  | cons execute rest ih =>
    simp only [runLevels, runLevel, List.flatMap_nil, ih]
    rfl

theorem runLevel_append (es es' : List (Envelope Value)) (s : σ) :
    runLevel execute (es ++ es') s =
      ((runLevel execute es s).1 ++ (runLevel execute es' (runLevel execute es s).2).1,
        (runLevel execute es' (runLevel execute es s).2).2) := by
  induction es generalizing s with
  | nil => rfl
  | cons e es ih => simp only [List.cons_append, runLevel, ih]

/-- **Levels after levels.** The outputs of the first ones are what the others begin with. -/
theorem runLevels_append (before after : List (Envelope Value → σ → Outcome × σ))
    (es : List (Envelope Value)) (s : σ) :
    runLevels (before ++ after) es s =
      ((runLevels before es s).1.withoutOutputs ++
          (runLevels after (runLevels before es s).1.outputs (runLevels before es s).2).1,
        (runLevels after (runLevels before es s).1.outputs (runLevels before es s).2).2) := by
  induction before generalizing es s with
  | nil => exact Prod.ext (RunResult.nil_append _).symm rfl
  | cons execute before ih =>
    simp only [List.cons_append, runLevels, ih]
    exact Prod.ext (RunResult.append_assoc _ _ _).symm rfl

/-- A level that is about to begin. -/
theorem wave_nil_right (stages : List (Envelope Value → σ → Outcome × σ)) :
    wave stages current [] s = runLevels stages current s := by
  cases stages <;> simp [wave, runLevels]

/-- A level that is over. -/
theorem wave_nil_left :
    wave (execute :: rest) [] following s = runLevels rest following s := by
  simp only [wave, runLevel, List.flatMap_nil, List.append_nil]
  exact Prod.ext (RunResult.nil_append _) rfl

/-- One execution. -/
theorem wave_cons :
    wave (execute :: rest) (e :: current) following s =
      (.ofOutcome (execute e s).1 ++ (wave (execute :: rest) current
          (following ++ (execute e s).1.emitted) (execute e s).2).1,
        (wave (execute :: rest) current (following ++ (execute e s).1.emitted) (execute e s).2).2) := by
  simp only [wave, runLevel, List.flatMap_cons, levelResult_cons, RunResult.append_assoc,
    List.append_assoc]

/-- What the last node has emitted are outputs, whether they leave the line now or later. -/
theorem wave_outputs (done : List (Envelope Value)) :
    wave [execute] current (done ++ following) s =
      (.ofOutputs done ++ (wave [execute] current following s).1,
        (wave [execute] current following s).2) := by
  simp only [wave, runLevels, List.append_assoc, levelResult_append_ofOutputs]

end Wave

/-! ## The line -/

namespace RunState

variable {stages limit : Nat} {r : RunState stages (Envelope Value)}

/-- Where the executions stand that are started. -/
theorem map_started (queue : List (Nat × Envelope Value)) :
    (@started stages _ (fun _ e => e) queue).map (fun x => (x.1.val, x.2)) =
      queue.filter fun x => x.1 < stages := by
  induction queue with
  | nil => rfl
  | cons x queue ih =>
    obtain ⟨stage, e⟩ := x
    by_cases hs : stage < stages
    · rw [started_cons_of_lt hs, List.map_cons, ih, List.filter_cons_of_pos (by simpa using hs)]
    · rw [started_cons_of_le (Nat.not_lt.mp hs), ih, List.filter_cons_of_neg (by simpa using hs)]

/-- **Starting executions keeps the order of the line.** Only what has passed the last stage leaves
it. -/
theorem line_filled (limit : Nat) (r : RunState stages (Envelope Value)) :
    ∃ front rest, r.line = front ++ rest ∧
      (r.filled limit).line = front.filter (fun x => x.1 < stages) ++ rest ∧
      (r.filled limit).result = r.result ++ .ofOutputs (passed stages front) := by
  obtain ⟨taken, rest, hq, hf⟩ := r.filled_eq limit
  let running := r.running.map fun x => (x.1.val, x.2)
  have hrunning : ∀ x ∈ running, x.1 < stages := by
    intro x hx
    obtain ⟨y, -, rfl⟩ := List.mem_map.mp hx
    exact y.1.isLt
  refine ⟨running ++ taken, rest, ?_, ?_, ?_⟩
  · rw [line, hq, List.append_assoc]
  · rw [hf, line, List.map_append, map_started, List.filter_append,
      List.filter_eq_self.mpr fun x hx => decide_eq_true (hrunning x hx)]
  · have hpassed : running.filter (fun x => stages ≤ x.1) = [] :=
      List.filter_eq_nil_iff.mpr fun x hx => by simpa using hrunning x hx
    rw [hf, passed, passed, List.filter_append, hpassed, List.nil_append]

/-- The line holds what is left of a level and what has been emitted of the next one. Starting
executions takes outputs off the second part, if the level is the last one. -/
theorem line_filled_of_levels {k : Nat} (hk : k < stages) {current following : List (Envelope Value)}
    (h : r.line = current.map (fun e => (k, e)) ++ following.map fun e => (k + 1, e)) (limit : Nat) :
    ∃ done later, following = done ++ later ∧ (k + 1 < stages → done = []) ∧
      (r.filled limit).line = current.map (fun e => (k, e)) ++ later.map (fun e => (k + 1, e)) ∧
      (r.filled limit).result = r.result ++ .ofOutputs done := by
  obtain ⟨front, rest, hline, hfilled, hresult⟩ := r.line_filled limit
  have hcurrent : ∀ x ∈ current.map fun e => (k, e), x.1 < stages := by
    intro x hx
    obtain ⟨e, -, rfl⟩ := List.mem_map.mp hx
    exact hk
  have keep (hfront : ∀ x ∈ front, x.1 < stages) :
      (r.filled limit).line = r.line ∧ (r.filled limit).result = r.result ++ .ofOutputs [] := by
    have hpassed : front.filter (fun x => stages ≤ x.1) = [] :=
      List.filter_eq_nil_iff.mpr fun x hx => by simpa using hfront x hx
    constructor
    · rw [hfilled, List.filter_eq_self.mpr fun x hx => decide_eq_true (hfront x hx), ← hline]
    · rw [hresult, passed, hpassed]
      rfl
  by_cases hlast : k + 1 < stages
  · obtain ⟨hl, hr⟩ := keep fun x hx => by
      have hx : x ∈ r.line := hline ▸ List.mem_append_left rest hx
      rw [h] at hx
      rcases List.mem_append.mp hx with hx | hx
      · exact hcurrent x hx
      · obtain ⟨e, -, rfl⟩ := List.mem_map.mp hx
        exact hlast
    exact ⟨[], following, rfl, fun _ => rfl, hl.trans h, hr⟩
  · rw [h] at hline
    rcases List.append_eq_append_iff.mp hline with ⟨more, hfront, hmore⟩ | ⟨more, hmore, -⟩
    · -- All that is left of the level has been started, and some of what follows is output.
      obtain ⟨done, later, rfl, rfl, rfl⟩ := List.map_eq_append_iff.mp hmore
      have hdone : (done.map fun e => (k + 1, e)).filter (fun x => x.1 < stages) = [] := by
        simp [List.filter_map, Function.comp_def, hlast]
      have hpassed : passed stages (current.map fun e => (k, e)) = [] := by
        simp [passed, List.filter_map, Function.comp_def, hk]
      refine ⟨done, later, rfl, fun hlt => absurd hlt hlast, ?_, ?_⟩
      · rw [hfilled, hfront, List.filter_append, hdone, List.append_nil,
          List.filter_eq_self.mpr fun x hx => decide_eq_true (hcurrent x hx)]
      · rw [hresult, hfront]
        simp only [passed, List.filter_append, List.map_append] at hpassed ⊢
        rw [hpassed, List.nil_append]
        simp [List.filter_map, Function.comp_def, Nat.not_lt.mp hlast]
    · obtain ⟨hl, hr⟩ := keep fun x hx => hcurrent x (hmore ▸ List.mem_append_left more hx)
      exact ⟨[], following, rfl, fun _ => rfl, hl.trans h, hr⟩

/-- The head of the line is the execution that finishes first. What it emits goes to the end. -/
theorem line_settle {k : Nat} {e : Envelope Value} {current following : List (Envelope Value)}
    (h : r.line = (e :: current).map (fun e => (k, e)) ++ following.map fun e => (k + 1, e))
    {stage : Fin stages} {e' : Envelope Value} {rest : List (Fin stages × Envelope Value)}
    (hr : r.running = (stage, e') :: rest) (o : Outcome) :
    stage.val = k ∧ e' = e ∧
      ({ r with running := rest }.settle stage o).line =
        current.map (fun e => (k, e)) ++ (following ++ o.emitted).map fun e => (k + 1, e) := by
  rw [line, hr, List.map_cons, List.map_cons, List.cons_append, List.cons_append] at h
  obtain ⟨hhead, htail⟩ := List.cons.inj h
  obtain ⟨hk, he⟩ := Prod.mk.inj hhead
  refine ⟨hk, he, ?_⟩
  rw [settle_eq, line, ← List.append_assoc, htail, List.map_append, List.append_assoc, hk]

/-! ## The run -/

variable {execute : Fin stages → Envelope Value → σ → Outcome × σ}

/-- What the stages from `k` on do. -/
def stagesFrom (execute : Fin stages → Envelope Value → σ → Outcome × σ) (k : Nat) :
    List (Envelope Value → σ → Outcome × σ) := (List.ofFn execute).drop k

theorem stagesFrom_of_lt {k : Nat} (hk : k < stages) :
    stagesFrom execute k = execute ⟨k, hk⟩ :: stagesFrom execute (k + 1) := by
  rw [stagesFrom, List.drop_eq_getElem_cons (by simpa using hk), List.getElem_ofFn]
  rfl

theorem stagesFrom_of_le {k : Nat} (hk : stages ≤ k) : stagesFrom execute k = [] :=
  List.drop_eq_nil_of_le (by simpa using hk)

/-- **A run from the middle of a level on.** -/
theorem runReady_of_line {k : Nat} (hk : k < stages) {current following : List (Envelope Value)}
    (h : r.line = current.map (fun e => (k, e)) ++ following.map fun e => (k + 1, e)) (s : σ) :
    r.runReady limit execute s =
      (r.result ++ (wave (stagesFrom execute k) current following s).1,
        (wave (stagesFrom execute k) current following s).2) := by
  induction r using (wellFounded_next limit).induction generalizing k current following s with
  | _ r ih =>
    -- The first execution under way finishes, and what is left of its level is shorter.
    have step {k : Nat} (hk : k < stages) {e : Envelope Value}
        {current following : List (Envelope Value)}
        (h : (r.filled limit).line =
          (e :: current).map (fun e => (k, e)) ++ following.map fun e => (k + 1, e))
        {stage : Fin stages} {e' : Envelope Value} {rest : List (Fin stages × Envelope Value)}
        (hr : (r.filled limit).running = (stage, e') :: rest) :
        r.runReady limit execute s =
          ((r.filled limit).result ++ (wave (stagesFrom execute k) (e :: current) following s).1,
            (wave (stagesFrom execute k) (e :: current) following s).2) := by
      obtain ⟨rfl, rfl, hline⟩ := line_settle h hr (execute stage e' s).1
      have hnext : Next limit r ⟨stage, e', (execute stage e' s).1⟩
          ({ r.filled limit with running := rest }.settle stage (execute stage e' s).1) :=
        ⟨[], rest, hr, rfl⟩
      rw [runReady_of_cons hr, ih _ ⟨_, hnext⟩ hk hline, stagesFrom_of_lt hk, wave_cons, settle_eq,
        RunResult.append_assoc]
    obtain ⟨done, later, rfl, hdone, hline, hresult⟩ := line_filled_of_levels hk h limit
    have houtputs : wave (stagesFrom execute k) current (done ++ later) s =
        (.ofOutputs done ++ (wave (stagesFrom execute k) current later s).1,
          (wave (stagesFrom execute k) current later s).2) := by
      by_cases hlast : k + 1 < stages
      · rw [hdone hlast]
        exact Prod.ext (RunResult.nil_append _).symm rfl
      · rw [stagesFrom_of_lt hk, stagesFrom_of_le (Nat.not_lt.mp hlast)]
        exact wave_outputs _ _ _ _ _
    rw [houtputs, ← RunResult.append_assoc, ← hresult]
    cases hr : (r.filled limit).running with
    | nil =>
      have hempty : (r.filled limit).line = [] := by simp [line, hr, queue_fill_eq_nil r hr]
      rw [hempty] at hline
      obtain ⟨hcurrent, hlater⟩ := List.append_eq_nil_iff.mp hline.symm
      obtain rfl := List.map_eq_nil_iff.mp hcurrent
      obtain rfl := List.map_eq_nil_iff.mp hlater
      rw [runReady_of_nil hr, stagesFrom_of_lt hk, wave_nil_left, runLevels_nil]
      exact Prod.ext (RunResult.append_nil _).symm rfl
    | cons x rest =>
      obtain ⟨stage, e'⟩ := x
      cases current with
      | cons e current => exact step hk hline hr
      | nil =>
        -- Nothing is left of the level, so the next one begins.
        cases later with
        | nil => simp [line, hr] at hline
        | cons e later =>
          have hline' : (r.filled limit).line =
              (e :: later).map (fun e => (k + 1, e)) ++ [].map fun e => (k + 1 + 1, e) := by
            rw [hline, List.map_nil, List.map_nil, List.nil_append, List.append_nil]
          have hk' : k + 1 < stages := by
            have := (line_settle hline' hr (.ok .pending)).1
            omega
          rw [step hk' hline' hr, stagesFrom_of_lt hk, wave_nil_left, wave_nil_right]

/-- A run at the beginning of a level, or after the last one. -/
theorem runReady_of_level {k : Nat} (hk : k ≤ stages) {current : List (Envelope Value)}
    (h : r.line = current.map fun e => (k, e)) (s : σ) :
    r.runReady limit execute s =
      (r.result ++ (runLevels (stagesFrom execute k) current s).1,
        (runLevels (stagesFrom execute k) current s).2) := by
  rcases hk.lt_or_eq with hk | rfl
  · rw [runReady_of_line hk (by simpa using h : r.line = _ ++ [].map fun e => (k + 1, e)),
      wave_nil_right]
  · obtain ⟨front, rest, hline, hfilled, hresult⟩ := r.line_filled limit
    have hdone : ∀ x ∈ front ++ rest, k ≤ x.1 := by
      rw [← hline, h]
      simp
    have hfront : front.filter (fun x => x.1 < k) = [] :=
      List.filter_eq_nil_iff.mpr fun x hx => by simpa using hdone x (List.mem_append_left rest hx)
    rw [hfront, List.nil_append] at hfilled
    have hrunning : (r.filled limit).running = [] := by
      refine List.eq_nil_iff_forall_not_mem.mpr fun x hx => ?_
      have hx : (x.1.val, x.2) ∈ rest :=
        hfilled ▸ List.mem_append_left _ (List.mem_map_of_mem hx)
      exact absurd (hdone _ (List.mem_append_right front hx)) (Nat.not_le.mpr x.1.isLt)
    have hrest : rest = [] := by
      rw [← hfilled, line, hrunning, queue_fill_eq_nil r hrunning]
      rfl
    have hpassed : passed k front = current := by
      rw [passed, List.filter_eq_self.mpr fun x hx =>
        decide_eq_true (hdone x (List.mem_append_left rest hx)), ← List.append_nil front, ← hrest,
        ← hline, h]
      simp
    rw [runReady_of_nil hrunning, hresult, hpassed, stagesFrom_of_le le_rfl, runLevels]

/-- **A run is what its levels are**, for every limit: its outputs and failures in their order, its
numbers, and the state that its nodes leave. -/
theorem runReady_start (stages limit : Nat)
    (execute : Fin stages → Envelope Value → σ → Outcome × σ) (input : Envelope Value) (s : σ) :
    (start input).runReady limit execute s = runLevels (List.ofFn execute) [input] s := by
  rw [runReady_of_level (Nat.zero_le stages) (show (start input).line = [input].map _ from rfl)]
  exact Prod.ext (RunResult.nil_append _) rfl

end RunState

/-- A run of an engine whose requests are answered at once. Its nodes share a workspace, and the
answers may depend on the questions before. -/
theorem Engine.run_eq (engine : Engine) (context : NodeContext)
    (reply : (request : Request) → σ → request.Reply × σ) (pipeline : List NodeConfig)
    (input : Envelope Value) (s : σ) :
    engine.run context reply pipeline input s =
      let (result, workspace, s) :=
        runLevels (pipeline.map (engine.execute context reply)) [input] (engine.workspace, s)
      (result, { engine with workspace }, s) := by
  have hstages : RunState.stagesFrom
      (fun stage : Fin pipeline.length => engine.execute context reply pipeline[stage]) 0 =
        pipeline.map (engine.execute context reply) := by
    refine List.ext_getElem (by simp [RunState.stagesFrom]) fun i hi _ => ?_
    simp [RunState.stagesFrom]
  have hline : (.start input : RunState pipeline.length _).line = [input].map fun e => (0, e) := rfl
  rw [run, RunState.runReady_of_level (Nat.zero_le _) hline, hstages]
  simp only [RunState.start, RunResult.nil_append]

end FlowEngine
