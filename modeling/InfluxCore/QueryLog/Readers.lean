import InfluxCore.QueryLog.System
import InfluxCore.QueryLog.Durations

/-! # What a reader sees across time

A reader of the log loads an entry's `phase`, `success` and `running` (`SeqCst`), and the
durations (`Relaxed`) at some later time. `Published` is about one point; across points the
reader needs a duration, once set, to stay set. Every duration the token stores goes through
`set_relative` from an origin not before the issue time, so with a reading less than `2^64 - 1`
ns after the issue time it either reads back set or leaves the word as it was: no store unsets
a duration (`TokenRun.keepsDurations`).

`run_reader_sees_published`: at every pair of points of every interleaving, the entry a reader
assembles from the phase at the first and the durations at the second is `Published`.
-/

namespace InfluxCore.IoxQuery

/-! ## Readers across points -/

/-- What a reader assembles: the phase, `success` and `running` it loaded from one state of the
entry, and the durations from a later one. -/
def readAcross (atPhase atDurations : QueryLogEntry) : QueryLogEntry :=
  { atDurations with phase := atPhase.phase, success := atPhase.success, running := atPhase.running }

theorem published_readAcross {atPhase atDurations : QueryLogEntry} (published : Published atPhase)
    (kept : DurationsKept atPhase atDurations) : Published (readAcross atPhase atDurations) := by
  obtain ⟨planned, permitted, succeeded, failed, stopped⟩ := published
  obtain ⟨plan, permit, -, end2end⟩ := kept
  refine ⟨fun phase => plan (planned phase), fun phase => ?_, fun phase => ?_,
    fun phase => plan (failed phase), fun running => ?_⟩
  · exact ⟨plan (permitted phase).1, permit (permitted phase).2⟩
  · obtain ⟨success, planSet, permitSet⟩ := succeeded phase
    exact ⟨success, plan planSet, permit permitSet⟩
  · exact ⟨end2end (stopped running).1, (stopped running).2⟩

namespace System

variable {queries : List Query} (wellClocked : ∀ query ∈ queries, query.WellClocked)
include wellClocked

/-- Over every interleaving of threads whose clocks run forward: a reader that loads an entry's
phase, `success` and `running` at one point, and its durations at any later point, sees every
duration that phase publishes set (`Planned` after `plan_duration`; `Permit` after it and
`permit_duration`; `Success` after `success = true` and both; `Fail` after `plan_duration`;
`running = false` after `end2end_duration`, in a terminal phase). -/
theorem run_reader_sees_published (maxSize : Nat) (schedule later : List Nat) {thread : Nat}
    {atPhase : QueryLogEntry}
    (allocated : ((new maxSize).run queries schedule).entries thread = some atPhase) :
    ∃ atDurations, ((new maxSize).run queries (schedule ++ later)).entries thread = some atDurations ∧
      Published (readAcross atPhase atDurations) := by
  obtain ⟨query, made, more, found, ordered, rfl, reached⟩ :=
    run_entry_later maxSize schedule later allocated
  have wellClocked := wellClocked query (List.getElem?_mem found)
  obtain ⟨stores, runs, good, -⟩ := query.run.stores_spec wellClocked.1 wellClocked.2 _ (holds_new _)
  rw [Query.stores_of_ok runs] at reached ⊢
  exact ⟨_, reached, published_readAcross (good.2 made)
    (durationsKept_observe (query.run.keepsDurations wellClocked.1 _ _ rfl runs) ordered)⟩

omit wellClocked in
theorem run_reader_sees_published_of_two_queries :
    (∀ query ∈ ([⟨0, .planned (.node none []) 1 (.permit 2 (.success 3 4))⟩, ⟨1, .drop 5⟩] :
      List Query), query.WellClocked) ∧
      ((new 1).run [⟨0, .planned (.node none []) 1 (.permit 2 (.success 3 4))⟩, ⟨1, .drop 5⟩]
        [0, 1, 0, 0, 0, 0]).entries 0 = some (observe (.new 0) (Query.stores
          ⟨0, .planned (.node none []) 1 (.permit 2 (.success 3 4))⟩) 3) ∧
      ∃ atDurations, ((new 1).run [⟨0, .planned (.node none []) 1 (.permit 2 (.success 3 4))⟩,
          ⟨1, .drop 5⟩] ([0, 1, 0, 0, 0, 0] ++ [1, 0, 0, 0])).entries 0 = some atDurations ∧
        Published (readAcross (observe (.new 0) (Query.stores
          ⟨0, .planned (.node none []) 1 (.permit 2 (.success 3 4))⟩) 3) atDurations) :=
  have allocated : ((new 1).run [⟨0, .planned (.node none []) 1 (.permit 2 (.success 3 4))⟩,
      ⟨1, .drop 5⟩] [0, 1, 0, 0, 0, 0]).entries 0 = some (observe (.new 0) (Query.stores
        ⟨0, .planned (.node none []) 1 (.permit 2 (.success 3 4))⟩) 3) := by decide
  ⟨by decide, allocated, run_reader_sees_published (by decide) 1 _ [1, 0, 0, 0] allocated⟩

end System

end InfluxCore.IoxQuery
