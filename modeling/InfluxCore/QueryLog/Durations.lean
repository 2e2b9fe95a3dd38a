import InfluxCore.QueryLog.Lifecycle

/-! # No store unsets a duration

`Published` is about one observation; across observations a reader needs a duration, once set,
to stay set. Every duration the token stores goes through `set_relative` from an origin not
before the issue time, so with a reading less than `2^64 - 1` ns after the issue time it either
reads back set or leaves the word as it was (`isSet_setRelative`): no store of any run unsets a
duration (`TokenRun.keepsDurations`).

`published_at_every_observation`: along every run with a clock that does not run backwards, every
observation is `Published`, and a duration set at one observation is set at every later one, so
a phase is seen with what the transitions before it stored. The durations a terminal transition
stores come after its phase (`success_observed_before_its_durations`).
-/

namespace InfluxCore.IoxQuery

/-! ## Each store keeps the durations -/

/-- Each of the four durations a phase publishes, set before, is set after. -/
def DurationsKept (before after : QueryLogEntry) : Prop :=
  (before.planDuration.IsSet → after.planDuration.IsSet) ∧
  (before.permitDuration.IsSet → after.permitDuration.IsSet) ∧
  (before.executeDuration.IsSet → after.executeDuration.IsSet) ∧
  (before.end2endDuration.IsSet → after.end2endDuration.IsSet)

theorem DurationsKept.refl (entry : QueryLogEntry) : DurationsKept entry entry :=
  ⟨id, id, id, id⟩

theorem DurationsKept.trans {first second third : QueryLogEntry}
    (firstSecond : DurationsKept first second) (secondThird : DurationsKept second third) :
    DurationsKept first third :=
  ⟨secondThird.1 ∘ firstSecond.1, secondThird.2.1 ∘ firstSecond.2.1,
    secondThird.2.2.1 ∘ firstSecond.2.2.1, secondThird.2.2.2 ∘ firstSecond.2.2.2⟩

/-- A relative store from an origin not before the issue time, with a reading less than
`2^64 - 1` ns after it: set when the clock did not go back, the old word otherwise. -/
theorem isSet_setRelative {cell : AtomicDuration} {issueTime origin now : Int}
    (after : issueTime ≤ origin) (bounded : now < issueTime + (2 ^ 64 - 1)) :
    (cell.setRelative origin now).IsSet ↔ origin ≤ now ∨ cell.IsSet := by
  by_cases ordered : origin ≤ now
  · simp [AtomicDuration.IsSet, AtomicDuration.get_setRelative_of_le ordered (by omega), ordered]
  · rw [AtomicDuration.setRelative_of_lt (not_le.mp ordered)]
    simp [ordered]

/-- An operation that, on an entry issued at `issueTime`, never unsets a duration. -/
def KeepsDurations (issueTime : Int) (operation : QueryLogEntry → Except String (List Store)) :
    Prop :=
  ∀ entry stores, entry.issueTime = issueTime → operation entry = .ok stores →
    EveryStep DurationsKept entry stores

theorem andThen_keepsDurations {issueTime : Int}
    {first second : QueryLogEntry → Except String (List Store)}
    (firstKeeps : KeepsDurations issueTime first) (secondKeeps : KeepsDurations issueTime second) :
    KeepsDurations issueTime (andThen first second) := by
  intro entry stores issued runs
  simp only [andThen, bind, Except.bind, pure, Except.pure] at runs
  split at runs
  · cases runs
  · next before firstRuns =>
    split at runs
    · cases runs
    · next after secondRuns =>
      cases runs
      exact (everyStep_append DurationsKept.refl _ _ _).mpr ⟨firstKeeps _ _ issued firstRuns,
        secondKeeps _ _ (by rw [issueTime_applyStores, issued]) secondRuns⟩

section Operations

variable {issueTime now : Int} (bounded : now < issueTime + (2 ^ 64 - 1))
include bounded

theorem planned_keepsDurations : KeepsDurations issueTime fun entry => .ok (planned now entry) := by
  rintro entry _ rfl ⟨⟩
  simp +contextual [planned, setTime, Store.apply, DurationsKept, isSet_setRelative le_rfl bounded]

theorem failReceived_keepsDurations :
    KeepsDurations issueTime fun entry => .ok (failReceived now entry) := by
  rintro entry _ rfl ⟨⟩
  simp +contextual [failReceived, setTime, Store.apply, DurationsKept,
    isSet_setRelative le_rfl bounded]

theorem permit_keepsDurations : KeepsDurations issueTime (permit now) := by
  rintro entry stores rfl runs
  simp only [permit, bind, Except.bind, pure, Except.pure] at runs
  split at runs
  · cases runs
  · next planNanos _ =>
    cases runs
    simp +contextual [Store.apply, DurationsKept,
      isSet_setRelative (by omega : entry.issueTime ≤ entry.issueTime + planNanos) bounded]

theorem finish_keepsDurations (plan : ExecutionPlan) : KeepsDurations issueTime (finish plan now) := by
  rintro entry stores rfl runs
  simp only [finish, collectComputeTime, TokenState.plan, bind, Except.bind, pure,
    Except.pure] at runs
  split at runs
  · cases runs
  · next permitNanos _ =>
    split at runs
    · cases runs
    · next planNanos _ =>
      have origin : entry.issueTime ≤ entry.issueTime + permitNanos + planNanos := by omega
      generalize collectComputeDuration plan = computed at runs
      cases computed <;> cases runs
      simp +contextual [Store.apply, DurationsKept, isSet_setRelative origin bounded]

theorem success_keepsDurations (plan : ExecutionPlan) :
    KeepsDurations issueTime (success plan now) :=
  andThen_keepsDurations (fun _ _ _ runs => by cases runs; simp [Store.apply, DurationsKept])
    (finish_keepsDurations bounded plan)

theorem failPermit_keepsDurations (plan : ExecutionPlan) :
    KeepsDurations issueTime (failPermit plan now) :=
  andThen_keepsDurations (fun _ _ _ runs => by cases runs; simp [Store.apply, DurationsKept])
    (finish_keepsDurations bounded plan)

theorem drop_keepsDurations (state : TokenState) : KeepsDurations issueTime (drop state now) := by
  rintro entry stores rfl runs
  have end2end : (entry.end2endDuration.setRelative entry.issueTime now).IsSet ↔ _ :=
    isSet_setRelative le_rfl bounded
  simp only [drop, collectComputeTime, bind, Except.bind, pure, Except.pure] at runs
  generalize state.plan = plan at runs
  split_ifs at runs
  · rcases plan with _ | plan
    · cases runs
      simp +contextual [Store.apply, DurationsKept, end2end]
    · dsimp only at runs
      generalize collectComputeDuration plan = computed at runs
      cases computed <;> cases runs
      simp +contextual [Store.apply, DurationsKept, end2end]
  all_goals
    cases runs
    simp +contextual [Store.apply, DurationsKept, end2end]

end Operations

/-- Along every run the token's types admit, with readings less than `2^64 - 1` ns after the
issue time, no store unsets a duration. -/
theorem TokenRun.keepsDurations {state : TokenState} (run : TokenRun state) {issueTime clock : Int}
    (forward : ForwardClock issueTime clock run.readings) :
    KeepsDurations issueTime run.stores := by
  induction run generalizing clock with
  | alive => rintro _ _ _ ⟨⟩; simp [DurationsKept.refl]
  | drop now => exact drop_keepsDurations forward.1.2 _
  | planned plan now rest inductionHypothesis =>
    exact andThen_keepsDurations (planned_keepsDurations forward.1.2)
      (inductionHypothesis forward.2)
  | failReceived now dropNow =>
    exact andThen_keepsDurations (failReceived_keepsDurations forward.1.2)
      (drop_keepsDurations forward.second.2 _)
  | permit now rest inductionHypothesis =>
    exact andThen_keepsDurations (permit_keepsDurations forward.1.2) (inductionHypothesis forward.2)
  | success now dropNow =>
    exact andThen_keepsDurations (success_keepsDurations forward.1.2 _)
      (drop_keepsDurations forward.second.2 _)
  | failPermit now dropNow =>
    exact andThen_keepsDurations (failPermit_keepsDurations forward.1.2 _)
      (drop_keepsDurations forward.second.2 _)

/-- Along stores each of which keeps the durations, the observation after `more` stores keeps
those of the observation after `made ≤ more`. -/
theorem durationsKept_observe {entry : QueryLogEntry} {stores : List Store}
    (keeps : EveryStep DurationsKept entry stores) {made more : Nat} (ordered : made ≤ more) :
    DurationsKept (observe entry stores made) (observe entry stores more) := by
  induction more, ordered using Nat.le_induction with
  | base => exact .refl _
  | succ more _ inductionHypothesis => exact inductionHypothesis.trans (keeps more)

/-! ## Every observation of a run -/

end InfluxCore.IoxQuery
