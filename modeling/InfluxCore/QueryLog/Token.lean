import InfluxCore.QueryLog.ComputeDuration

/-! # `QueryCompletedToken`: the operations and the runs its types admit

Each operation of the token is written as the atomic stores it makes into its entry, in program
order, computed from the entry as the operation finds it; `error` is a panic (`expect` on an
unset duration, or a `Duration` overflow while collecting compute time). An operation that
consumes the token (`Received::fail`, `Permit::success`, `Permit::fail`) ends with the token's
`Drop`, which still holds the entry, so a run composes the two with `andThen`.

`TokenRun state` is the type of the operation sequences the type state admits from a token in
`state`: the run may stop while the token is alive, or end with the token dropped. Every
operation carries the readings it takes from the `TimeProvider`.
-/

namespace InfluxCore.IoxQuery

/-- The type state of a `QueryCompletedToken`, with the plan `StatePlanned` and `StatePermit`
hold. -/
inductive TokenState
  | received
  | planned (plan : ExecutionPlan)
  | permit (plan : ExecutionPlan)

/-- `State::plan`. -/
def TokenState.plan : TokenState → Option ExecutionPlan
  | .received => none
  | .planned plan | .permit plan => some plan

/-- `first`, then `second` on the entry `first`'s stores leave. -/
def andThen (first second : QueryLogEntry → Except String (List Store)) (entry : QueryLogEntry) :
    Except String (List Store) := do
  let before ← first entry
  let after ← second (applyStores entry before)
  pure (before ++ after)

/-- `QueryCompletedToken::collect_compute_time`. -/
def collectComputeTime (state : TokenState) (entry : QueryLogEntry) : Except String (List Store) :=
  match state.plan with
  | none => .ok []
  | some plan => do
    let nanos ← collectComputeDuration plan
    pure [.computeDuration (entry.computeDuration.setAbsolute nanos)]

/-- `collect_compute_time` stores the plan's compute time, the sum of `elapsed_compute` over every
node when it fits in a `Duration` (the walk panics otherwise); the stored word reads back as that
sum below `2^64 - 1` ns, and as its low 64 bits in general. -/
theorem collectComputeTime_reads_back (plan : ExecutionPlan) (entry : QueryLogEntry) :
    collectComputeDuration plan =
        (if plan.computeSum ≤ durationMax then .ok plan.computeSum
          else .error "overflow when adding durations") ∧
      (collectComputeTime (.permit plan) entry).map
          (fun stores => (applyStores entry stores).computeDuration.get) =
        (if plan.computeSum ≤ durationMax then
          .ok (if plan.computeSum % 2 ^ 64 = 2 ^ 64 - 1 then none else some (plan.computeSum % 2 ^ 64))
        else .error "overflow when adding durations") ∧
      (plan.computeSum < 2 ^ 64 - 1 →
        (collectComputeTime (.permit plan) entry).map
          (fun stores => (applyStores entry stores).computeDuration.get) = .ok (some plan.computeSum)) := by
  have stored : (collectComputeTime (.permit plan) entry).map
      (fun stores => (applyStores entry stores).computeDuration.get) =
        (if plan.computeSum ≤ durationMax then
          .ok (if plan.computeSum % 2 ^ 64 = 2 ^ 64 - 1 then none else some (plan.computeSum % 2 ^ 64))
        else .error "overflow when adding durations") := by
    simp only [collectComputeTime, TokenState.plan, collectComputeDuration_eq]
    split <;> simp [Store.apply, AtomicDuration.get_setAbsolute, Except.map, bind, Except.bind, pure,
      Except.pure]
  refine ⟨collectComputeDuration_eq plan, stored, fun small => ?_⟩
  rw [stored, if_pos (by unfold durationMax; omega), Nat.mod_eq_of_lt (by omega),
    if_neg (by omega)]

theorem collectComputeTime_reads_back_of_small_plan :
    (ExecutionPlan.node (some ⟨some 5⟩) [.node (some ⟨some 7⟩) []]).computeSum < 2 ^ 64 - 1 ∧
      (collectComputeTime (.permit (.node (some ⟨some 5⟩) [.node (some ⟨some 7⟩) []]))
          (.new 0)).map (fun stores => (applyStores (.new 0) stores).computeDuration.get) =
        .ok (some 12) :=
  ⟨by decide, (collectComputeTime_reads_back _ (.new 0)).2.2 (by decide)⟩

/-- Two nodes of `2^63` ns each: the walk returns their sum `2^64`, and the stored word, its low
64 bits, reads back as zero. -/
theorem compute_duration_wraps_past_u64 :
    collectComputeDuration (.node none
        [.node (some ⟨some 9223372036854775808⟩) [], .node (some ⟨some 9223372036854775808⟩) []]) =
        .ok (2 ^ 64) ∧
      (collectComputeTime (.permit (.node none
          [.node (some ⟨some 9223372036854775808⟩) [], .node (some ⟨some 9223372036854775808⟩) []]))
          (.new 0)).map (fun stores => (applyStores (.new 0) stores).computeDuration.get) =
        .ok (some 0) :=
  ⟨rfl, rfl⟩

/-- `QueryCompletedToken<StateReceived>::set_time`. -/
def setTime (now : Int) (entry : QueryLogEntry) : List Store :=
  [.planDuration (entry.planDuration.setRelative entry.issueTime now)]

/-- `QueryCompletedToken<StateReceived>::planned`. -/
def planned (now : Int) (entry : QueryLogEntry) : List Store :=
  setTime now entry ++ [.phase .planned]

/-- `QueryCompletedToken<StateReceived>::fail`, before the token is dropped. -/
def failReceived (now : Int) (entry : QueryLogEntry) : List Store :=
  setTime now entry ++ [.phase .fail]

/-- `QueryCompletedToken<StatePlanned>::permit`. -/
def permit (now : Int) (entry : QueryLogEntry) : Except String (List Store) := do
  let planDuration ← expect entry.planDuration.get "valid state"
  let origin := entry.issueTime + planDuration
  pure [.permitDuration (entry.permitDuration.setRelative origin now), .phase .permit]

/-- `QueryCompletedToken<StatePermit>::finish`. -/
def finish (plan : ExecutionPlan) (now : Int) (entry : QueryLogEntry) :
    Except String (List Store) := do
  let permitDuration ← expect entry.permitDuration.get "valid state"
  let planDuration ← expect entry.planDuration.get "valid state"
  let origin := entry.issueTime + permitDuration + planDuration
  let execute := Store.executeDuration (entry.executeDuration.setRelative origin now)
  let compute ← collectComputeTime (.permit plan) (execute.apply entry)
  pure (execute :: compute)

/-- `QueryCompletedToken<StatePermit>::success`, before the token is dropped. -/
def success (plan : ExecutionPlan) (now : Int) : QueryLogEntry → Except String (List Store) :=
  andThen (fun _ => .ok [.success true, .phase .success]) (finish plan now)

/-- `QueryCompletedToken<StatePermit>::fail`, before the token is dropped. -/
def failPermit (plan : ExecutionPlan) (now : Int) : QueryLogEntry → Except String (List Store) :=
  andThen (fun _ => .ok [.phase .fail]) (finish plan now)

/-- `Drop for QueryCompletedToken`, on a token that still holds its entry. -/
def drop (state : TokenState) (now : Int) (entry : QueryLogEntry) :
    Except String (List Store) := do
  let cancel ←
    if entry.phase ≠ .fail ∧ entry.executeDuration.get = none then do
      let compute ←
        if entry.permitDuration.get.isSome then collectComputeTime state entry else pure []
      pure (Store.phase .cancel :: compute)
    else pure []
  pure (cancel ++
    [.end2endDuration (entry.end2endDuration.setRelative entry.issueTime now), .running false])

/-- The operation sequences the token's types admit from a token in `state`, each operation with
the clock readings it takes: the run stops while the token is `alive`, or ends with it gone. -/
inductive TokenRun : TokenState → Type
  | alive {state : TokenState} : TokenRun state
  | drop {state : TokenState} (now : Int) : TokenRun state
  | planned (plan : ExecutionPlan) (now : Int) (rest : TokenRun (.planned plan)) :
      TokenRun .received
  | failReceived (now dropNow : Int) : TokenRun .received
  | permit {plan : ExecutionPlan} (now : Int) (rest : TokenRun (.permit plan)) :
      TokenRun (.planned plan)
  | success {plan : ExecutionPlan} (now dropNow : Int) : TokenRun (.permit plan)
  | failPermit {plan : ExecutionPlan} (now dropNow : Int) : TokenRun (.permit plan)

namespace TokenRun

/-- Every store of a run, in program order; `error` at the first panic. -/
def stores : {state : TokenState} → TokenRun state → QueryLogEntry → Except String (List Store)
  | _, .alive, _ => .ok []
  | state, .drop now, entry => IoxQuery.drop state now entry
  | _, .planned _ now rest, entry =>
    andThen (fun entry => .ok (IoxQuery.planned now entry)) rest.stores entry
  | _, .failReceived now dropNow, entry =>
    andThen (fun entry => .ok (IoxQuery.failReceived now entry)) (IoxQuery.drop .received dropNow)
      entry
  | _, .permit now rest, entry => andThen (IoxQuery.permit now) rest.stores entry
  | _, @success plan now dropNow, entry =>
    andThen (IoxQuery.success plan now) (IoxQuery.drop (.permit plan) dropNow) entry
  | _, @failPermit plan now dropNow, entry =>
    andThen (IoxQuery.failPermit plan now) (IoxQuery.drop (.permit plan) dropNow) entry

/-- Whether the run ends with the token gone. -/
def dropsToken : {state : TokenState} → TokenRun state → Bool
  | _, .alive => false
  | _, .planned _ _ rest => rest.dropsToken
  | _, .permit _ rest => rest.dropsToken
  | _, _ => true

/-- The clock readings of a run, in the order the operations take them. -/
def readings : {state : TokenState} → TokenRun state → List Int
  | _, .alive => []
  | _, .drop now => [now]
  | _, .planned _ now rest => now :: rest.readings
  | _, .failReceived now dropNow => [now, dropNow]
  | _, .permit now rest => now :: rest.readings
  | _, .success now dropNow => [now, dropNow]
  | _, .failPermit now dropNow => [now, dropNow]

end TokenRun

/-! ## What a run leaves when it panics

A panic unwinds the thread. `permit` takes the entry out of the token before its `expect`, so
nothing more is stored; `success` and `fail` on a permitted token still hold it, so the token's
`Drop` runs during the unwinding, as it does when they return. A panic inside `Drop` aborts the
process or ends the unwinding, so the drop stores nothing after it. -/

/-- The stores `finish` makes up to a panic: none when a duration it expects is unset, and
`execute_duration` alone when collecting the compute time overflows. -/
def finishMade (plan : ExecutionPlan) (now : Int) (entry : QueryLogEntry) : List Store :=
  match entry.permitDuration.get, entry.planDuration.get with
  | some permitDuration, some planDuration =>
    let execute := Store.executeDuration
      (entry.executeDuration.setRelative (entry.issueTime + permitDuration + planDuration) now)
    match collectComputeTime (.permit plan) (execute.apply entry) with
    | .ok compute => execute :: compute
    | .error _ => [execute]
  | _, _ => []

/-- The stores `Drop` makes up to a panic: the `Cancel` phase alone when collecting the compute
time overflows. -/
def dropMade (state : TokenState) (now : Int) (entry : QueryLogEntry) : List Store :=
  let ended := [Store.end2endDuration (entry.end2endDuration.setRelative entry.issueTime now),
    .running false]
  if entry.phase ≠ .fail ∧ entry.executeDuration.get = none then
    match (if entry.permitDuration.get.isSome then collectComputeTime state entry else .ok []) with
    | .ok compute => Store.phase .cancel :: compute ++ ended
    | .error _ => [.phase .cancel]
  else ended

/-- The stores a run makes, in program order, up to its first panic and the `Drop` the unwinding
runs. -/
def TokenRun.made : {state : TokenState} → TokenRun state → QueryLogEntry → List Store
  | _, .alive, _ => []
  | state, .drop now, entry => dropMade state now entry
  | _, .planned _ now rest, entry =>
    IoxQuery.planned now entry ++ rest.made (applyStores entry (IoxQuery.planned now entry))
  | _, .failReceived now dropNow, entry =>
    IoxQuery.failReceived now entry ++
      dropMade .received dropNow (applyStores entry (IoxQuery.failReceived now entry))
  | _, .permit now rest, entry =>
    match IoxQuery.permit now entry with
    | .ok stores => stores ++ rest.made (applyStores entry stores)
    | .error _ => []
  | _, @success plan now dropNow, entry =>
    let finished := [.success true, .phase .success] ++
      finishMade plan now (applyStores entry [.success true, .phase .success])
    finished ++ dropMade (.permit plan) dropNow (applyStores entry finished)
  | _, @failPermit plan now dropNow, entry =>
    let finished := [.phase .fail] ++ finishMade plan now (applyStores entry [.phase .fail])
    finished ++ dropMade (.permit plan) dropNow (applyStores entry finished)

theorem andThen_eq_ok {first second : QueryLogEntry → Except String (List Store)}
    {entry : QueryLogEntry} {stores : List Store} :
    andThen first second entry = .ok stores ↔ ∃ before after, first entry = .ok before ∧
      second (applyStores entry before) = .ok after ∧ stores = before ++ after := by
  simp only [andThen, bind, Except.bind, pure, Except.pure]
  generalize first entry = firstResult
  cases firstResult with
  | error => simp
  | ok before =>
    dsimp only
    split
    · next failed => simp [failed]
    · next after ran => simp [ran, eq_comm]

theorem finishMade_of_ok {plan : ExecutionPlan} {now : Int} {entry : QueryLogEntry}
    {stores : List Store} (runs : finish plan now entry = .ok stores) :
    finishMade plan now entry = stores := by
  unfold finish at runs
  unfold finishMade
  cases permitDuration : entry.permitDuration.get <;> cases planDuration : entry.planDuration.get <;>
    simp only [permitDuration, planDuration, expect, bind, Except.bind, pure, Except.pure] at runs ⊢
  all_goals first | cases runs | skip
  generalize collectComputeTime _ _ = compute at runs ⊢
  cases compute <;> cases runs
  rfl

theorem dropMade_of_ok {state : TokenState} {now : Int} {entry : QueryLogEntry}
    {stores : List Store} (runs : drop state now entry = .ok stores) :
    dropMade state now entry = stores := by
  unfold drop at runs
  unfold dropMade
  simp only [bind, Except.bind, pure, Except.pure] at runs
  split_ifs at runs ⊢
  · generalize collectComputeTime state entry = compute at runs ⊢
    cases compute <;> cases runs
    rfl
  all_goals
    cases runs
    rfl

/-- A run that does not panic makes exactly its stores. -/
theorem TokenRun.made_of_stores {state : TokenState} (run : TokenRun state) (entry : QueryLogEntry)
    {stores : List Store} (runs : run.stores entry = .ok stores) : run.made entry = stores := by
  induction run generalizing entry stores with
  | alive => cases runs; rfl
  | drop now => exact dropMade_of_ok runs
  | planned plan now rest inductionHypothesis =>
    obtain ⟨before, after, ⟨⟩, restRuns, rfl⟩ := andThen_eq_ok.mp runs
    rw [made, inductionHypothesis _ restRuns]
  | failReceived now dropNow =>
    obtain ⟨before, after, ⟨⟩, dropRuns, rfl⟩ := andThen_eq_ok.mp runs
    rw [made, dropMade_of_ok dropRuns]
  | permit now rest inductionHypothesis =>
    obtain ⟨before, after, permitted, restRuns, rfl⟩ := andThen_eq_ok.mp runs
    simp only [made, permitted, inductionHypothesis _ restRuns]
  | success now dropNow =>
    obtain ⟨before, after, succeeded, dropRuns, rfl⟩ := andThen_eq_ok.mp runs
    obtain ⟨marked, finished, ⟨⟩, finishRuns, rfl⟩ := andThen_eq_ok.mp succeeded
    rw [made, finishMade_of_ok finishRuns, dropMade_of_ok dropRuns]
  | failPermit now dropNow =>
    obtain ⟨before, after, failed, dropRuns, rfl⟩ := andThen_eq_ok.mp runs
    obtain ⟨marked, finished, ⟨⟩, finishRuns, rfl⟩ := andThen_eq_ok.mp failed
    rw [made, finishMade_of_ok finishRuns, dropMade_of_ok dropRuns]

end InfluxCore.IoxQuery
