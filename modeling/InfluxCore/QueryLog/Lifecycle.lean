import InfluxCore.QueryLog.Token

/-! # The lifecycle of one query's entry

A reader holding the entry (through the log, or another `Arc`) may look at it between any two
stores of the token's operations: `observe entry stores count` is what it sees after the first
`count` stores. Two properties of observations are carried through every run:

* `EveryStep QueryPhase.Moves`: between two consecutive observations the phase stays or follows
  one arrow of the `QueryPhase` diagram;
* `EveryObservation Published`: a phase is never seen before the durations written ahead of it.

`Spec op pre post` is a Hoare triple over an operation's stores: from an entry satisfying `pre`,
the operation does not panic, every observation along it is good, and `post` holds after it.
Each operation gets one such triple (`planned_spec`, `permit_spec`, ...), and
`TokenRun.stores_spec` chains them along every run the token's types admit, for every clock that
does not run backwards.
-/

namespace InfluxCore.IoxQuery

/-- A duration that reads back as set. -/
def AtomicDuration.IsSet (cell : AtomicDuration) : Prop := cell.get.isSome

/-- What a reader sees after the first `count` stores. -/
def observe (entry : QueryLogEntry) (stores : List Store) (count : Nat) : QueryLogEntry :=
  applyStores entry (stores.take count)

/-- `property` holds at every point between two stores. -/
def EveryObservation (property : QueryLogEntry → Prop) (entry : QueryLogEntry)
    (stores : List Store) : Prop :=
  ∀ count, property (observe entry stores count)

/-- `relation` holds between every two consecutive observations. -/
def EveryStep (relation : QueryLogEntry → QueryLogEntry → Prop) (entry : QueryLogEntry)
    (stores : List Store) : Prop :=
  ∀ count, relation (observe entry stores count) (observe entry stores (count + 1))

section Observations

variable {property : QueryLogEntry → Prop} {relation : QueryLogEntry → QueryLogEntry → Prop}

@[simp] theorem everyObservation_nil (entry : QueryLogEntry) :
    EveryObservation property entry [] ↔ property entry := by
  simp [EveryObservation, observe]

@[simp] theorem everyObservation_cons (entry : QueryLogEntry) (store : Store) (stores : List Store) :
    EveryObservation property entry (store :: stores) ↔
      property entry ∧ EveryObservation property (store.apply entry) stores := by
  constructor
  · intro every
    exact ⟨every 0, fun count => every (count + 1)⟩
  · rintro ⟨first, rest⟩ (_ | count)
    · exact first
    · exact rest count

theorem everyObservation_append (entry : QueryLogEntry) (first second : List Store) :
    EveryObservation property entry (first ++ second) ↔
      EveryObservation property entry first ∧
        EveryObservation property (applyStores entry first) second := by
  induction first generalizing entry with
  | nil =>
    simp only [List.nil_append, everyObservation_nil, applyStores_nil]
    exact ⟨fun every => ⟨every 0, every⟩, And.right⟩
  | cons store first inductionHypothesis =>
    simp only [List.cons_append, everyObservation_cons, inductionHypothesis, applyStores_cons,
      and_assoc]

@[simp] theorem everyStep_nil (entry : QueryLogEntry) :
    EveryStep relation entry [] ↔ relation entry entry := by
  simp [EveryStep, observe]

@[simp] theorem everyStep_cons (entry : QueryLogEntry) (store : Store) (stores : List Store) :
    EveryStep relation entry (store :: stores) ↔
      relation entry (store.apply entry) ∧ EveryStep relation (store.apply entry) stores := by
  constructor
  · intro every
    exact ⟨every 0, fun count => every (count + 1)⟩
  · rintro ⟨first, rest⟩ (_ | count)
    · exact first
    · exact rest count

theorem everyStep_append (reflexive : ∀ entry, relation entry entry) (entry : QueryLogEntry)
    (first second : List Store) :
    EveryStep relation entry (first ++ second) ↔
      EveryStep relation entry first ∧ EveryStep relation (applyStores entry first) second := by
  induction first generalizing entry with
  | nil => simp [reflexive]
  | cons store first inductionHypothesis =>
    simp only [List.cons_append, everyStep_cons, inductionHypothesis, applyStores_cons, and_assoc]

end Observations

/-- What a reader may rely on at each phase: the durations stored before that phase was. -/
def Published (entry : QueryLogEntry) : Prop :=
  (entry.phase = .planned → entry.planDuration.IsSet) ∧
  (entry.phase = .permit → entry.planDuration.IsSet ∧ entry.permitDuration.IsSet) ∧
  (entry.phase = .success →
    entry.success = true ∧ entry.planDuration.IsSet ∧ entry.permitDuration.IsSet) ∧
  (entry.phase = .fail → entry.planDuration.IsSet) ∧
  (entry.running = false → entry.end2endDuration.IsSet ∧ entry.phase.IsTerminal)

/-- The phase of one observation to the next stays, or follows one arrow of the diagram. -/
def PhaseMoves (before after : QueryLogEntry) : Prop := QueryPhase.Moves before.phase after.phase

/-- The observations along some stores are good: the phase follows the diagram and is never
seen before what it publishes. -/
def GoodObservations (entry : QueryLogEntry) (stores : List Store) : Prop :=
  EveryStep PhaseMoves entry stores ∧ EveryObservation Published entry stores

theorem goodObservations_append (entry : QueryLogEntry) (first second : List Store) :
    GoodObservations entry (first ++ second) ↔
      GoodObservations entry first ∧ GoodObservations (applyStores entry first) second := by
  have reflexive : ∀ entry : QueryLogEntry, PhaseMoves entry entry := fun _ => Or.inl rfl
  simp only [GoodObservations, everyStep_append reflexive, everyObservation_append]
  tauto

/-- A Hoare triple over the stores of an operation: from `pre`, no panic, good observations
throughout, and `post` after the last store. -/
def Spec (operation : QueryLogEntry → Except String (List Store))
    (pre post : QueryLogEntry → Prop) : Prop :=
  ∀ entry, pre entry → ∃ stores, operation entry = .ok stores ∧
    GoodObservations entry stores ∧ post (applyStores entry stores)

theorem andThen_spec {first second : QueryLogEntry → Except String (List Store)}
    {pre middle post : QueryLogEntry → Prop}
    (firstSpec : Spec first pre middle) (secondSpec : Spec second middle post) :
    Spec (andThen first second) pre post := by
  intro entry before
  obtain ⟨firstStores, firstRuns, firstGood, reached⟩ := firstSpec entry before
  obtain ⟨secondStores, secondRuns, secondGood, after⟩ := secondSpec _ reached
  refine ⟨firstStores ++ secondStores, ?_, (goodObservations_append _ _ _).mpr
    ⟨firstGood, secondGood⟩, by rwa [applyStores_append]⟩
  simp only [andThen, firstRuns, bind, Except.bind, secondRuns, pure, Except.pure]

theorem Spec.weaken {operation : QueryLogEntry → Except String (List Store)}
    {pre pre' post post' : QueryLogEntry → Prop} (spec : Spec operation pre post)
    (strengthen : ∀ entry, pre' entry → pre entry) (weaken : ∀ entry, post entry → post' entry) :
    Spec operation pre' post' := by
  intro entry before
  obtain ⟨stores, runs, good, after⟩ := spec entry (strengthen entry before)
  exact ⟨stores, runs, good, weaken _ after⟩

/-! ## The entry at each stage of the token -/

/-- The entry while the token is live in `state`, the clock having last been read at `clock`. -/
def Holds (issueTime : Int) : TokenState → Int → QueryLogEntry → Prop
  | .received, clock, entry =>
    entry.issueTime = issueTime ∧ clock = issueTime ∧ entry.phase = .received ∧
      entry.permitDuration.get = none ∧ entry.executeDuration.get = none ∧
      entry.success = false ∧ entry.running = true
  | .planned plan, clock, entry =>
    entry.issueTime = issueTime ∧ issueTime ≤ clock ∧ entry.phase = .planned ∧
      entry.planDuration.get = some (clock - issueTime).toNat ∧
      entry.permitDuration.get = none ∧ entry.executeDuration.get = none ∧
      entry.success = false ∧ entry.running = true ∧ plan.computeSum ≤ durationMax
  | .permit plan, clock, entry =>
    entry.issueTime = issueTime ∧ issueTime ≤ clock ∧ entry.phase = .permit ∧
      (∃ planNanos permitNanos : Nat, entry.planDuration.get = some planNanos ∧
        entry.permitDuration.get = some permitNanos ∧ issueTime + permitNanos + planNanos = clock) ∧
      entry.executeDuration.get = none ∧ entry.success = false ∧ entry.running = true ∧
      plan.computeSum ≤ durationMax

/-- The entry after `success` or `fail` stored its terminal phase, before the token's drop. -/
def Ended (issueTime clock : Int) (entry : QueryLogEntry) : Prop :=
  entry.issueTime = issueTime ∧ issueTime ≤ clock ∧ entry.running = true ∧ Published entry ∧
    (entry.phase = .success ∧ entry.success = true ∧ entry.executeDuration.IsSet ∨
      entry.phase = .fail ∧ entry.success = false)

/-- The entry inside `success` or `fail` of a permitted token, once its terminal phase is stored
and before `finish` runs. -/
def Finishing (issueTime clock : Int) (plan : ExecutionPlan) (entry : QueryLogEntry) : Prop :=
  entry.issueTime = issueTime ∧ issueTime ≤ clock ∧ entry.running = true ∧ Published entry ∧
    (∃ planNanos permitNanos : Nat, entry.planDuration.get = some planNanos ∧
      entry.permitDuration.get = some permitNanos ∧ issueTime + permitNanos + planNanos = clock) ∧
    (entry.phase = .success ∧ entry.success = true ∨ entry.phase = .fail ∧ entry.success = false) ∧
    plan.computeSum ≤ durationMax

/-- The entry once the token is gone. -/
def Finished (entry : QueryLogEntry) : Prop :=
  entry.running = false ∧ (entry.success = true ↔ entry.phase = .success) ∧
    entry.phase.IsTerminal

/-- A reading the token may take next: not before `clock`, and less than `2^64 - 1` ns after
the issue time, so that every duration fits its word. -/
def NextReading (issueTime clock now : Int) : Prop :=
  clock ≤ now ∧ now < issueTime + (2 ^ 64 - 1)

theorem Holds.published {issueTime clock : Int} {state : TokenState} {entry : QueryLogEntry}
    (holds : Holds issueTime state clock entry) : Published entry := by
  cases state with
  | received =>
    obtain ⟨-, -, phase, -, -, -, running⟩ := holds
    simp [Published, phase, running]
  | planned plan =>
    obtain ⟨-, -, phase, plan, -, -, -, running, -⟩ := holds
    simp [Published, phase, running, AtomicDuration.IsSet, plan]
  | permit plan =>
    obtain ⟨-, -, phase, ⟨_, _, plan, permit, -⟩, -, -, running, -⟩ := holds
    simp [Published, phase, running, AtomicDuration.IsSet, plan, permit]

@[simp] theorem published_executeDuration (entry : QueryLogEntry) (cell : AtomicDuration) :
    Published (Store.apply entry (.executeDuration cell)) ↔ Published entry := Iff.rfl

@[simp] theorem published_computeDuration (entry : QueryLogEntry) (cell : AtomicDuration) :
    Published (Store.apply entry (.computeDuration cell)) ↔ Published entry := Iff.rfl

theorem collectComputeTime_of_fits {plan : ExecutionPlan} (fits : plan.computeSum ≤ durationMax)
    (state : TokenState) (holdsPlan : state.plan = some plan) (entry : QueryLogEntry) :
    collectComputeTime state entry =
      .ok [.computeDuration (entry.computeDuration.setAbsolute plan.computeSum)] := by
  simp [collectComputeTime, holdsPlan, collectComputeDuration_eq, fits]

/-! ## One triple per operation -/

section Operations

variable {issueTime clock now : Int} {plan : ExecutionPlan}

theorem planned_spec (fits : plan.computeSum ≤ durationMax)
    (next : NextReading issueTime clock now) :
    Spec (fun entry => .ok (planned now entry)) (Holds issueTime .received clock)
      (Holds issueTime (.planned plan) now) := by
  rintro entry ⟨issued, rfl, phase, permit, execute, success, running⟩
  have planSet : (entry.planDuration.setRelative clock now).get = some (now - clock).toNat :=
    AtomicDuration.get_setRelative_of_le next.1 (by unfold NextReading at next; omega)
  refine ⟨_, rfl, ?_, ?_⟩
  · simp [GoodObservations, planned, setTime, Store.apply, PhaseMoves, QueryPhase.Moves,
      QueryPhase.Edge.plan, Published, phase, running, AtomicDuration.IsSet, issued, planSet]
  · simp [planned, setTime, Store.apply, Holds, issued, planSet, permit, execute, success, running,
      fits, next.1]

theorem failReceived_spec (next : NextReading issueTime clock now) :
    Spec (fun entry => .ok (failReceived now entry)) (Holds issueTime .received clock)
      (Ended issueTime now) := by
  rintro entry ⟨issued, rfl, phase, permit, execute, success, running⟩
  have planSet : (entry.planDuration.setRelative clock now).get = some (now - clock).toNat :=
    AtomicDuration.get_setRelative_of_le next.1 (by unfold NextReading at next; omega)
  refine ⟨_, rfl, ?_, ?_⟩
  · simp [GoodObservations, failReceived, setTime, Store.apply, PhaseMoves, QueryPhase.Moves,
      QueryPhase.Edge.failPlanning, Published, phase, running, AtomicDuration.IsSet, issued,
      planSet]
  · simp [failReceived, setTime, Store.apply, Ended, Published, issued, success, running,
      AtomicDuration.IsSet, planSet, next.1]

theorem permit_spec (next : NextReading issueTime clock now) :
    Spec (permit now) (Holds issueTime (.planned plan) clock)
      (Holds issueTime (.permit plan) now) := by
  rintro entry ⟨issued, before, phase, planSet, permitUnset, execute, success, running, fits⟩
  have origin : entry.issueTime + ((clock - issueTime).toNat : Int) = clock := by omega
  have permitSet : (entry.permitDuration.setRelative clock now).get =
      some (now - clock).toNat :=
    AtomicDuration.get_setRelative_of_le next.1 (by unfold NextReading at next; omega)
  have reads : permit now entry =
      .ok [.permitDuration (entry.permitDuration.setRelative clock now), .phase .permit] := by
    simp only [permit, planSet, expect_some, bind, Except.bind, pure, Except.pure, origin]
  refine ⟨_, reads, ?_, ?_⟩
  · simp [GoodObservations, Store.apply, PhaseMoves, QueryPhase.Moves, QueryPhase.Edge.grant,
      Published, phase, running, AtomicDuration.IsSet, planSet, permitSet]
  · refine ⟨issued, by unfold NextReading at next; omega, rfl,
      ⟨_, _, planSet, permitSet, by unfold NextReading at next; omega⟩,
      execute, success, running, fits⟩

theorem finish_spec (next : NextReading issueTime clock now) :
    Spec (finish plan now) (Finishing issueTime clock plan) (Ended issueTime now) := by
  rintro entry ⟨issued, before, running, published,
    ⟨planNanos, permitNanos, planSet, permitSet, origin⟩, terminal, fits⟩
  have executeSet : (entry.executeDuration.setRelative clock now).get =
      some (now - clock).toNat :=
    AtomicDuration.get_setRelative_of_le next.1 (by unfold NextReading at next; omega)
  have reads : finish plan now entry =
      .ok [.executeDuration (entry.executeDuration.setRelative clock now),
        .computeDuration (entry.computeDuration.setAbsolute plan.computeSum)] := by
    simp only [finish, planSet, permitSet, issued, origin, expect_some, bind, Except.bind, pure,
      Except.pure, collectComputeTime_of_fits fits (.permit plan) rfl, Store.apply]
  refine ⟨_, reads, ?_, ?_⟩
  · simp [GoodObservations, Store.apply, PhaseMoves, QueryPhase.Moves]
    exact ⟨published, published, published⟩
  · refine ⟨issued, by unfold NextReading at next; omega, running, published, ?_⟩
    simpa [Store.apply, AtomicDuration.IsSet, executeSet] using terminal

theorem success_spec (next : NextReading issueTime clock now) :
    Spec (success plan now) (Holds issueTime (.permit plan) clock) (Ended issueTime now) := by
  refine andThen_spec ?_ (finish_spec next)
  rintro entry ⟨issued, before, phase, durations, execute, success, running, fits⟩
  have ⟨planNanos, permitNanos, planSet, permitSet, _⟩ := durations
  refine ⟨_, rfl, ?_, ⟨issued, before, running, ?_, durations, by simp [Store.apply], fits⟩⟩
  · simp [GoodObservations, Store.apply, PhaseMoves, QueryPhase.Moves, QueryPhase.Edge.succeed,
      Published, phase, running, AtomicDuration.IsSet, planSet, permitSet]
  · simp [Store.apply, Published, running, AtomicDuration.IsSet, planSet, permitSet]

theorem failPermit_spec (next : NextReading issueTime clock now) :
    Spec (failPermit plan now) (Holds issueTime (.permit plan) clock) (Ended issueTime now) := by
  refine andThen_spec ?_ (finish_spec next)
  rintro entry ⟨issued, before, phase, durations, execute, success, running, fits⟩
  have ⟨planNanos, permitNanos, planSet, permitSet, _⟩ := durations
  refine ⟨_, rfl, ?_, ⟨issued, before, running, ?_, durations, by simp [Store.apply, success],
    fits⟩⟩
  · simp [GoodObservations, Store.apply, PhaseMoves, QueryPhase.Moves,
      QueryPhase.Edge.failExecution, Published, phase, running, AtomicDuration.IsSet, planSet,
      permitSet]
  · simp [Store.apply, Published, running, AtomicDuration.IsSet, planSet]

theorem drop_spec_of_ended {state : TokenState} (next : NextReading issueTime clock now) :
    Spec (drop state now) (Ended issueTime clock) Finished := by
  rintro entry ⟨issued, before, running, published, terminal⟩
  have end2endSet : (entry.end2endDuration.setRelative issueTime now).get =
      some (now - issueTime).toNat :=
    AtomicDuration.get_setRelative_of_le (by unfold NextReading at next; omega)
      (by unfold NextReading at next; omega)
  have settled : ¬(entry.phase ≠ .fail ∧ entry.executeDuration.get = none) := by
    rcases terminal with ⟨-, -, executeSet⟩ | ⟨failed, -⟩
    · simp_all [AtomicDuration.IsSet, Option.isSome_iff_ne_none]
    · simp [failed]
  have reads : drop state now entry =
      .ok [.end2endDuration (entry.end2endDuration.setRelative issueTime now), .running false] := by
    simp only [drop, if_neg settled, issued]
    rfl
  refine ⟨_, reads, ?_, ?_⟩
  · refine ⟨by simp [Store.apply, PhaseMoves, QueryPhase.Moves], ?_⟩
    rcases terminal with ⟨phase, success, -⟩ | ⟨phase, success⟩ <;>
      simp_all [Published, Store.apply, AtomicDuration.IsSet, QueryPhase.IsTerminal]
  · rcases terminal with ⟨phase, success, -⟩ | ⟨phase, success⟩ <;>
      simp [Finished, Store.apply, phase, success, QueryPhase.IsTerminal]

theorem drop_spec_of_holds {state : TokenState} (next : NextReading issueTime clock now) :
    Spec (drop state now) (Holds issueTime state clock) Finished := by
  intro entry holds
  have before : issueTime ≤ clock := by
    cases state <;> [exact holds.2.1.ge; exact holds.2.1; exact holds.2.1]
  have end2endSet : (entry.end2endDuration.setRelative issueTime now).get =
      some (now - issueTime).toNat :=
    AtomicDuration.get_setRelative_of_le (by unfold NextReading at next; omega)
      (by unfold NextReading at next; omega)
  cases state with
  | received =>
    obtain ⟨issued, -, phase, permit, execute, success, running⟩ := holds
    refine ⟨_, by simp only [drop, phase, execute, permit, issued]; rfl, ?_, ?_⟩
    · simp [GoodObservations, Store.apply, PhaseMoves, QueryPhase.Moves,
        QueryPhase.Edge.cancelReceived, Published, phase, running, AtomicDuration.IsSet,
        end2endSet, QueryPhase.IsTerminal]
    · simp [Finished, Store.apply, success, QueryPhase.IsTerminal]
  | planned plan =>
    obtain ⟨issued, -, phase, planSet, permit, execute, success, running, -⟩ := holds
    refine ⟨_, by simp only [drop, phase, execute, permit, issued]; rfl, ?_, ?_⟩
    · simp [GoodObservations, Store.apply, PhaseMoves, QueryPhase.Moves,
        QueryPhase.Edge.cancelPlanned, Published, phase, running, AtomicDuration.IsSet,
        end2endSet, QueryPhase.IsTerminal, planSet]
    · simp [Finished, Store.apply, success, QueryPhase.IsTerminal]
  | permit plan =>
    obtain ⟨issued, -, phase, ⟨_, _, planSet, permitSet, -⟩, execute, success, running, fits⟩ :=
      holds
    refine ⟨_, by simp only [drop, phase, execute, permitSet, issued,
      collectComputeTime_of_fits fits (.permit plan) rfl]; rfl, ?_, ?_⟩
    · simp [GoodObservations, Store.apply, PhaseMoves, QueryPhase.Moves,
        QueryPhase.Edge.cancelPermit, Published, phase, running, AtomicDuration.IsSet,
        end2endSet, QueryPhase.IsTerminal, planSet, permitSet]
    · simp [Finished, Store.apply, success, QueryPhase.IsTerminal]

end Operations

/-! ## Every run -/

/-- The plans a run hands to its token. -/
def TokenRun.plans : {state : TokenState} → TokenRun state → List ExecutionPlan
  | _, .planned plan _ rest => plan :: rest.plans
  | _, .permit _ rest => rest.plans
  | _, _ => []

instance (issueTime clock now : Int) : Decidable (NextReading issueTime clock now) :=
  inferInstanceAs (Decidable (_ ∧ _))

/-- Clock readings each of which may be taken after the one before it, the first after
`clock`. -/
def ForwardClock (issueTime : Int) : Int → List Int → Prop
  | _, [] => True
  | clock, now :: rest => NextReading issueTime clock now ∧ ForwardClock issueTime now rest

instance forwardClockDecidable (issueTime : Int) :
    (clock : Int) → (readings : List Int) → Decidable (ForwardClock issueTime clock readings)
  | _, [] => isTrue trivial
  | _, now :: rest =>
    @instDecidableAnd _ _ inferInstance (forwardClockDecidable issueTime now rest)

theorem ForwardClock.second {issueTime clock now dropNow : Int}
    (forward : ForwardClock issueTime clock [now, dropNow]) : NextReading issueTime now dropNow :=
  forward.2.1

/-- Along every run the token's types admit, with a clock that does not run backwards, the
token never panics and every observation is good; once the token is gone the entry is
finished. -/
theorem TokenRun.stores_spec {state : TokenState} (run : TokenRun state) {issueTime clock : Int}
    (forward : ForwardClock issueTime clock run.readings)
    (plansFit : ∀ plan ∈ run.plans, plan.computeSum ≤ durationMax) :
    Spec run.stores (Holds issueTime state clock)
      (fun entry => run.dropsToken = true → Finished entry) := by
  induction run generalizing clock with
  | alive =>
    intro entry holds
    exact ⟨[], rfl, ⟨(everyStep_nil _).mpr (Or.inl rfl), (everyObservation_nil _).mpr
      holds.published⟩, fun dropped => absurd dropped (by simp [dropsToken])⟩
  | drop now =>
    exact (drop_spec_of_holds forward.1).weaken (fun _ => id) (fun _ finished _ => finished)
  | planned plan now rest inductionHypothesis =>
    exact andThen_spec (planned_spec (plansFit plan (List.mem_cons_self _ _)) forward.1)
      (inductionHypothesis forward.2 (fun other mem => plansFit other (List.mem_cons_of_mem _ mem)))
  | failReceived now dropNow =>
    exact (andThen_spec (failReceived_spec forward.1) (drop_spec_of_ended forward.second)).weaken
      (fun _ => id) (fun _ finished _ => finished)
  | permit now rest inductionHypothesis =>
    exact andThen_spec (permit_spec forward.1) (inductionHypothesis forward.2 plansFit)
  | success now dropNow =>
    exact (andThen_spec (success_spec forward.1) (drop_spec_of_ended forward.second)).weaken
      (fun _ => id) (fun _ finished _ => finished)
  | failPermit now dropNow =>
    exact (andThen_spec (failPermit_spec forward.1) (drop_spec_of_ended forward.second)).weaken
      (fun _ => id) (fun _ finished _ => finished)

/-- Once an observed phase is terminal, every later observation shows the same phase. -/
theorem terminal_phase_stays {entry : QueryLogEntry} {stores : List Store}
    (moves : EveryStep PhaseMoves entry stores) {count : Nat}
    (terminal : (observe entry stores count).phase.IsTerminal) :
    ∀ later, count ≤ later → (observe entry stores later).phase = (observe entry stores count).phase := by
  intro later ordered
  induction later, ordered using Nat.le_induction with
  | base => rfl
  | succ later _ inductionHypothesis =>
    rcases moves later with same | edge
    · rw [← same, inductionHypothesis]
    · exact absurd (inductionHypothesis ▸ terminal) edge.not_terminal

theorem holds_new (issueTime : Int) : Holds issueTime .received issueTime (.new issueTime) := by
  simp [Holds, QueryLogEntry.new]

/-- Every run of a fresh token, with a clock that never goes back and stays less than
`2^64 - 1` ns after the issue time, and plans whose compute time fits in a `Duration`: no token
operation panics, every phase store follows an arrow of the `QueryPhase` diagram, a terminal
phase never changes again, and once the token is gone the entry is not running and reports
success exactly in phase `Success`. -/
theorem token_lifecycle (issueTime : Int) (run : TokenRun .received)
    (forward : ForwardClock issueTime issueTime run.readings)
    (plansFit : ∀ plan ∈ run.plans, plan.computeSum ≤ durationMax) :
    ∃ stores, run.stores (.new issueTime) = .ok stores ∧
      EveryStep PhaseMoves (.new issueTime) stores ∧
      (∀ count later, count ≤ later → (observe (.new issueTime) stores count).phase.IsTerminal →
        (observe (.new issueTime) stores later).phase =
          (observe (.new issueTime) stores count).phase) ∧
      (run.dropsToken = true → Finished (applyStores (.new issueTime) stores)) := by
  obtain ⟨stores, runs, ⟨moves, -⟩, finished⟩ :=
    run.stores_spec forward plansFit _ (holds_new issueTime)
  exact ⟨stores, runs, moves,
    fun _ later ordered terminal => terminal_phase_stays moves terminal later ordered, finished⟩

theorem token_lifecycle_of_successful_query :
    ∃ stores, (TokenRun.planned (.node none []) 1 (.permit 2 (.success 3 4))).stores (.new 0) =
        .ok stores ∧ Finished (applyStores (.new 0) stores) :=
  let ⟨stores, runs, _, _, finished⟩ := token_lifecycle 0
    (.planned (.node none []) 1 (.permit 2 (.success 3 4))) (by decide) (by decide)
  ⟨stores, runs, finished rfl⟩

/-- Without the forward clock the lifecycle breaks. A reading at `planned` earlier than the issue
time leaves `plan_duration` unset and `permit` panics on its `expect`; a reading at `success`
earlier than the permit leaves `execute_duration` unset, so the drop that ends `success` stores
`Cancel` over `Success`, leaving `success = true` in phase `Cancel`. -/
theorem token_breaks_after_clock_regression :
    (TokenRun.planned (.node none []) 99 (.permit 200 .alive)).stores (.new 100) =
        .error "valid state" ∧
      ∃ stores, (TokenRun.planned (.node none []) 101 (.permit 102 (.success 50 110))).stores
          (.new 100) = .ok stores ∧
        (observe (.new 100) stores 6).phase = .success ∧
        (applyStores (.new 100) stores).phase = .cancel ∧
        (applyStores (.new 100) stores).success = true ∧
        (applyStores (.new 100) stores).running = false :=
  ⟨rfl, _, rfl, rfl, rfl, rfl, rfl⟩

end InfluxCore.IoxQuery
