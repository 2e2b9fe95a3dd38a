import InfluxCore.QueryLog.Log
import InfluxCore.QueryLog.Lifecycle

/-! # Queries running concurrently against one `QueryLog`

Request threads each call `QueryLog::push` and drive the token it returns; reader threads call
`QueryLog::entries` and read the entries of the snapshot whenever they like. The model is every
interleaving of the threads' atomic actions (`System.step`):

* `push` reads the clock and allocates the entry before it takes the log's mutex, then evicts
  and appends under it: two actions, so that other threads may act between them (a log of
  `max_size` zero returns before the mutex);
* each store a token makes into its entry is one action. A thread whose token panics makes the
  stores before the panic, and those of the `Drop` its unwinding runs, then nothing more.

`entries()` holds the mutex while it copies the deque, so a snapshot is the deque of one state
of the interleaving; the entries it holds are shared, and the reader sees each of them as a
later state has it.

Only the thread that pushed an entry ever stores into it. `System.Refines` states what follows,
at every point of every interleaving (`run_refines`): each thread's entry is a fresh entry after
the first stores of that thread's own run, and the log is the pushes of the threads past its
mutex, in the order they took it. The per-token results of `TokenRun.stores_spec` then carry
over to the whole system:

* `run_snapshot`: a snapshot holds the last `max_size + 1` threads through the mutex, each
  once; every entry allocated so far is `Published`, and `Finished` once its token is gone;
* `run_phases`: from one point of an interleaving to any later one, every entry's phase follows
  the arrows of the `QueryPhase` diagram, and a terminal phase stays;
* `run_finishes`: whatever the other threads did, a thread given as many more actions as its
  token makes stores, and two for `push`, completes its run, and its entry is `Finished`.
-/

namespace InfluxCore.IoxQuery

/-- A request thread: the time its `push` reads, and the run its token makes. -/
structure Query where
  issueTime : Int
  run : TokenRun .received

namespace Query

/-- The stores the thread's token makes into its entry, in program order, up to its first
panic and the `Drop` the unwinding runs. -/
def stores (query : Query) : List Store :=
  query.run.made (.new query.issueTime)

theorem stores_of_ok {query : Query} {stores : List Store}
    (runs : query.run.stores (.new query.issueTime) = .ok stores) : query.stores = stores :=
  query.run.made_of_stores _ runs

/-- A thread whose `permit` panics, its clock having gone back before `planned`, has stored the
`Planned` phase. -/
example : (applyStores (.new 100)
    (Query.stores ⟨100, .planned (.node none []) 99 (.permit 200 .alive)⟩)).phase = .planned := by
  decide

/-- A thread the token's lifecycle holds for: its readings never run backwards and stay less than
`2^64 - 1` ns after the issue time, and its plans' compute time fits in a `Duration`. -/
def WellClocked (query : Query) : Prop :=
  ForwardClock query.issueTime query.issueTime query.run.readings ∧
    ∀ plan ∈ query.run.plans, plan.computeSum ≤ durationMax

instance : DecidablePred WellClocked := fun _ => inferInstanceAs (Decidable (_ ∧ _))

theorem stores_good {query : Query} (wellClocked : query.WellClocked) :
    GoodObservations (.new query.issueTime) query.stores ∧
      (query.run.dropsToken = true → Finished (applyStores (.new query.issueTime) query.stores)) := by
  obtain ⟨stores, runs, good, finished⟩ :=
    query.run.stores_spec wellClocked.1 wellClocked.2 _ (holds_new _)
  rw [stores_of_ok runs]
  exact ⟨good, finished⟩

end Query

/-- Where a thread is: before `push`, between the entry's allocation and the log's mutex, or
holding its token with `made` of its stores done. -/
inductive Pc
  | idle
  | issued
  | token (made : Nat)
  deriving DecidableEq, Repr

/-- The number of stores a thread has made into its entry; none before `push` allocates it. -/
def Pc.made : Pc → Option Nat
  | .idle => none
  | .issued => some 0
  | .token made => some made

/-- A thread's position at one point, and at a later one: every store made stays made. -/
def Pc.Before (earlier later : Pc) : Prop :=
  ∀ made, earlier.made = some made → ∃ more, later.made = some more ∧ made ≤ more

theorem Pc.Before.refl (pc : Pc) : pc.Before pc := fun made found => ⟨made, found, le_rfl⟩

theorem Pc.Before.trans {first second third : Pc} (firstSecond : first.Before second)
    (secondThird : second.Before third) : first.Before third := by
  intro made found
  obtain ⟨more, found, ordered⟩ := firstSecond made found
  obtain ⟨most, found, ordered'⟩ := secondThird more found
  exact ⟨most, found, ordered.trans ordered'⟩

/-- Where one more action moves a thread whose token makes `total` stores: through the two
halves of `push`, then one store at a time, and nowhere once all are made. -/
def Pc.next (total : Nat) : Pc → Pc
  | .idle => .issued
  | .issued => .token 0
  | .token made => if made < total then .token (made + 1) else .token made

/-- A thread's token has made no more stores than its run has. -/
def Pc.Within (total : Nat) : Pc → Prop
  | .token made => made ≤ total
  | _ => True

theorem Pc.within_next {total : Nat} {pc : Pc} (within : pc.Within total) :
    (pc.next total).Within total := by
  cases pc with
  | idle => trivial
  | issued => exact Nat.zero_le _
  | token made =>
    simp only [next]
    split_ifs with more
    · exact more
    · exact within

theorem Pc.next_iterate_token {total made : Nat} (within : made ≤ total) (turns : Nat) :
    (Pc.next total)^[turns] (.token made) = .token (min (made + turns) total) := by
  induction turns generalizing made with
  | zero => simp [within]
  | succ turns inductionHypothesis =>
    rw [Function.iterate_succ_apply]
    by_cases more : made < total
    · simp only [next, if_pos more]
      rw [inductionHypothesis more]
      congr 1
      omega
    · simp only [next, if_neg more]
      rw [inductionHypothesis within]
      congr 1
      omega

/-- `total + 2` actions bring a thread from anywhere it can be to the end of its token's run. -/
theorem Pc.next_iterate {total : Nat} {pc : Pc} (within : pc.Within total) :
    (Pc.next total)^[total + 2] pc = .token total := by
  cases pc with
  | idle =>
    rw [Function.iterate_succ_apply, Function.iterate_succ_apply, next, next,
      next_iterate_token (Nat.zero_le _), Nat.zero_add, min_self]
  | issued =>
    rw [Function.iterate_succ_apply, next, next_iterate_token (Nat.zero_le _)]
    congr 1
    omega
  | token made =>
    rw [next_iterate_token within]
    congr 1
    omega

/-- The thread's entry at `pc`: a fresh entry after the stores made so far. -/
def Query.entryAt (query : Query) (pc : Pc) : Option QueryLogEntry :=
  pc.made.map (observe (.new query.issueTime) query.stores)

theorem observe_succ {entry : QueryLogEntry} {stores : List Store} {made : Nat} {store : Store}
    (next : stores[made]? = some store) :
    observe entry stores (made + 1) = store.apply (observe entry stores made) := by
  simp only [observe, List.take_succ, next, Option.toList_some, applyStores_append,
    applyStores_cons, applyStores_nil]

/-- Along stores each of which follows the diagram, the phase after `more` stores is reachable
from the phase after `made ≤ more`. -/
theorem phase_reflTransGen {entry : QueryLogEntry} {stores : List Store}
    (moves : EveryStep PhaseMoves entry stores) {made more : Nat} (ordered : made ≤ more) :
    Relation.ReflTransGen QueryPhase.Edge (observe entry stores made).phase
      (observe entry stores more).phase := by
  induction more, ordered using Nat.le_induction with
  | base => exact .refl
  | succ more _ inductionHypothesis =>
    rcases moves more with same | edge
    · exact same ▸ inductionHypothesis
    · exact inductionHypothesis.tail edge

/-- The shared state: the log's deque (each entry by the index of the thread that pushed it),
every entry allocated so far (the targets of the `Arc<QueryLogEntry>`s, by thread), and where
each thread is. -/
structure System where
  queryLog : QueryLog Nat
  entries : Nat → Option QueryLogEntry
  pcs : Nat → Pc

namespace System

/-- Before any thread acts: `QueryLog::new`, and no entry. -/
def new (maxSize : Nat) : System := ⟨.new maxSize, fun _ => none, fun _ => .idle⟩

variable (queries : List Query)

/-- Thread `thread` takes its next atomic action: the first half of `push`, its second half
under the mutex, or one store of its token. A thread that is done, or not of the workload, does
nothing. -/
def step (system : System) (thread : Nat) : System :=
  match queries[thread]?, system.pcs thread with
  | none, _ => system
  | some query, .idle =>
    { system with
      entries := Function.update system.entries thread (some (.new query.issueTime))
      pcs := Function.update system.pcs thread .issued }
  | some _, .issued =>
    { system with
      queryLog := system.queryLog.push thread
      pcs := Function.update system.pcs thread (.token 0) }
  | some query, .token made =>
    match query.stores[made]? with
    | none => system
    | some store =>
      { system with
        entries := Function.update system.entries thread ((system.entries thread).map store.apply)
        pcs := Function.update system.pcs thread (.token (made + 1)) }

/-- The state after the threads act in the order `schedule` names them. -/
def run (system : System) (schedule : List Nat) : System :=
  schedule.foldl (step queries) system

theorem run_append (system : System) (first second : List Nat) :
    run queries system (first ++ second) = run queries (run queries system first) second :=
  List.foldl_append _ _ _ _

/-- What the shared state is at every point of an interleaving: each thread's entry is a fresh
entry after the stores its own token has made, and the log is the pushes of the threads past
the mutex, in the order they took it. -/
structure Refines (maxSize : Nat) (system : System) : Prop where
  entries : ∀ thread, system.entries thread = queries[thread]?.bind (·.entryAt (system.pcs thread))
  outside : ∀ thread, queries.length ≤ thread → system.pcs thread = .idle
  queryLog : ∃ inserted : List Nat, inserted.Nodup ∧
    (∀ thread, thread ∈ inserted ↔ ∃ made, system.pcs thread = .token made) ∧
    system.queryLog = (QueryLog.new maxSize).pushAll inserted

theorem refines_new (maxSize : Nat) : Refines queries maxSize (new maxSize) :=
  ⟨fun thread => by cases queries[thread]? <;> rfl, fun _ _ => rfl, [], List.nodup_nil,
    by simp [new], rfl⟩

section Update

variable {queries} {thread : Nat} {query : Query} (found : queries[thread]? = some query)
include found

/-- Moving a thread of the workload to `pc`, with its entry the one at `pc`, keeps each
thread's entry that of its position. -/
theorem entries_update {entries : Nat → Option QueryLogEntry} {pcs : Nat → Pc}
    (refines : ∀ thread, entries thread = queries[thread]?.bind (·.entryAt (pcs thread)))
    (pc : Pc) (other : Nat) :
    Function.update entries thread (query.entryAt pc) other =
      queries[other]?.bind (·.entryAt (Function.update pcs thread pc other)) := by
  by_cases same : other = thread
  · subst same
    simp [found]
  · simp only [Function.update_noteq same, refines]

theorem outside_update {pcs : Nat → Pc}
    (outside : ∀ thread, queries.length ≤ thread → pcs thread = .idle) (pc : Pc) (other : Nat)
    (beyond : queries.length ≤ other) : Function.update pcs thread pc other = .idle := by
  have : other ≠ thread := by
    rintro rfl
    simp [List.getElem?_eq_none_iff.mpr beyond] at found
  rw [Function.update_noteq this, outside other beyond]

end Update

theorem inLog_update {pcs : Nat → Pc} {inserted : List Nat}
    (inLog : ∀ thread, thread ∈ inserted ↔ ∃ made, pcs thread = .token made) {thread : Nat}
    {pc : Pc} (same : (∃ made, pcs thread = .token made) ↔ ∃ made, pc = .token made)
    (other : Nat) : other ∈ inserted ↔ ∃ made, Function.update pcs thread pc other = .token made := by
  by_cases equal : other = thread
  · subst equal
    simp only [inLog, same, Function.update_same]
  · simp only [inLog, Function.update_noteq equal]

/-- One action of any thread keeps the refinement. -/
theorem refines_step {maxSize : Nat} {system : System} (refines : Refines queries maxSize system)
    (thread : Nat) : Refines queries maxSize (step queries system thread) := by
  obtain ⟨entries, outside, inserted, nodup, inLog, queryLog⟩ := refines
  unfold step
  split
  · exact ⟨entries, outside, inserted, nodup, inLog, queryLog⟩
  · next query found idle =>
    exact ⟨entries_update found entries .issued, outside_update found outside _, inserted, nodup,
      inLog_update inLog (by simp [idle]), queryLog⟩
  · next query found issued =>
    have kept : Function.update system.entries thread (query.entryAt (.token 0)) =
        system.entries := by
      rw [Function.update_eq_iff, entries thread, found, issued]
      exact ⟨rfl, fun _ _ => rfl⟩
    have pushed (other : Nat) : other ∈ inserted ++ [thread] ↔
        ∃ made, Function.update system.pcs thread (.token 0) other = .token made := by
      by_cases same : other = thread
      · subst same
        simp
      · simp [Function.update_noteq same, inLog, same]
    refine ⟨kept ▸ entries_update found entries (.token 0), outside_update found outside _,
      inserted ++ [thread], nodup.append (List.nodup_singleton _)
        (List.disjoint_singleton.mpr (by simp [inLog, issued])), pushed, ?_⟩
    rw [queryLog, QueryLog.pushAll_append]
  · next query made found token =>
    split
    · exact ⟨entries, outside, inserted, nodup, inLog, queryLog⟩
    · next store next =>
      have stored : (system.entries thread).map store.apply = query.entryAt (.token (made + 1)) := by
        simp [entries thread, found, token, Query.entryAt, Pc.made, observe_succ next]
      exact ⟨stored ▸ entries_update found entries _, outside_update found outside _, inserted,
        nodup, inLog_update inLog (by simp [token]), queryLog⟩

theorem refines_run {maxSize : Nat} {system : System} (refines : Refines queries maxSize system)
    (schedule : List Nat) : Refines queries maxSize (run queries system schedule) := by
  induction schedule generalizing system with
  | nil => exact refines
  | cons thread schedule inductionHypothesis =>
    exact inductionHypothesis (refines_step queries refines thread)

theorem Pc.before_idle (pc : Pc) : Pc.idle.Before pc := fun _ found => nomatch found

theorem Pc.before_token_of_issued : Pc.issued.Before (.token 0) :=
  fun _ found => ⟨0, rfl, by cases found; rfl⟩

theorem Pc.before_token_succ (made : Nat) : (Pc.token made).Before (.token (made + 1)) :=
  fun _ found => ⟨made + 1, rfl, by cases found; omega⟩

/-- An action of one thread leaves every other thread where it is. -/
theorem step_pcs_of_ne (system : System) {thread other : Nat} (different : other ≠ thread) :
    (step queries system thread).pcs other = system.pcs other := by
  unfold step
  split <;> (try split) <;> simp only [Function.update_noteq different]

/-- One action moves no thread back. -/
theorem before_step (system : System) (thread other : Nat) :
    (system.pcs other).Before ((step queries system thread).pcs other) := by
  by_cases different : other = thread
  · subst different
    unfold step
    split
    · exact .refl _
    · next idle => exact idle ▸ Pc.before_idle _
    · next issued => simpa [issued] using Pc.before_token_of_issued
    · next made _ token =>
      split
      · exact .refl _
      · simpa [token] using Pc.before_token_succ made
  · rw [step_pcs_of_ne queries system different]
    exact .refl _

theorem before_run (system : System) (schedule : List Nat) (thread : Nat) :
    (system.pcs thread).Before ((run queries system schedule).pcs thread) := by
  induction schedule generalizing system with
  | nil => exact .refl _
  | cons other schedule inductionHypothesis =>
    exact (before_step queries system other thread).trans (inductionHypothesis _)

/-- The thread of the workload that acts moves on by `Pc.next`. -/
theorem step_pcs_self (system : System) {thread : Nat} {query : Query}
    (found : queries[thread]? = some query) :
    (step queries system thread).pcs thread = (system.pcs thread).next query.stores.length := by
  unfold step
  rw [found]
  cases pc : system.pcs thread with
  | idle | issued => simp [Pc.next]
  | token made =>
    simp only [Pc.next]
    cases stored : query.stores[made]? with
    | none =>
      simp [not_lt.mpr (List.getElem?_eq_none_iff.mp stored), pc]
    | some store =>
      simp [(List.getElem?_eq_some_iff.mp stored).1]

theorem run_replicate_pcs (system : System) {thread : Nat} {query : Query}
    (found : queries[thread]? = some query) (turns : Nat) :
    (run queries system (List.replicate turns thread)).pcs thread =
      (Pc.next query.stores.length)^[turns] (system.pcs thread) := by
  induction turns generalizing system with
  | zero => rfl
  | succ turns inductionHypothesis =>
    rw [List.replicate_succ, run, List.foldl_cons, ← run, inductionHypothesis,
      step_pcs_self queries system found, Function.iterate_succ_apply]

/-- No thread's token has made more stores than its run has. -/
def Within (system : System) : Prop :=
  ∀ thread query, queries[thread]? = some query → (system.pcs thread).Within query.stores.length

theorem within_new (maxSize : Nat) : Within queries (new maxSize) := fun _ _ _ => trivial

theorem within_step {system : System} (within : Within queries system) (actor : Nat) :
    Within queries (step queries system actor) := by
  intro thread query found
  by_cases same : thread = actor
  · subst same
    rw [step_pcs_self queries system found]
    exact Pc.within_next (within thread query found)
  · rw [step_pcs_of_ne queries system same]
    exact within thread query found

theorem within_run {system : System} (within : Within queries system) (schedule : List Nat) :
    Within queries (run queries system schedule) := by
  induction schedule generalizing system with
  | nil => exact within
  | cons actor schedule inductionHypothesis =>
    exact inductionHypothesis (within_step queries within actor)

/-- The log is in the order the threads take its mutex, not the order they read the clock: the
thread that read the clock first, but took the mutex second, stays after the other. -/
example : ((new 1).run [⟨100, .alive⟩, ⟨101, .alive⟩] [0, 1, 1, 0]).queryLog.log = [1, 0] := by
  decide

section Results

variable {queries}

theorem Refines.entry_eq {maxSize : Nat} {system : System} (refines : Refines queries maxSize system)
    {thread : Nat} {entry : QueryLogEntry} (allocated : system.entries thread = some entry) :
    ∃ query made, queries[thread]? = some query ∧ (system.pcs thread).made = some made ∧
      entry = observe (.new query.issueTime) query.stores made := by
  rw [refines.entries] at allocated
  cases found : queries[thread]? with
  | none => simp [found] at allocated
  | some query =>
    rw [found, Option.some_bind] at allocated
    obtain ⟨made, pc, rfl⟩ := Option.map_eq_some'.mp allocated
    exact ⟨query, made, rfl, pc, rfl⟩

/-- An entry allocated at one point of a run is, at any later point, the same fresh entry after
at least as many of its thread's stores. -/
theorem run_entry_later (maxSize : Nat) (schedule later : List Nat) {thread : Nat}
    {before : QueryLogEntry}
    (allocated : ((new maxSize).run queries schedule).entries thread = some before) :
    ∃ query made more, queries[thread]? = some query ∧ made ≤ more ∧
      before = observe (.new query.issueTime) query.stores made ∧
      ((new maxSize).run queries (schedule ++ later)).entries thread =
        some (observe (.new query.issueTime) query.stores more) := by
  have refines := refines_run queries (refines_new queries maxSize)
  obtain ⟨query, made, found, pc, rfl⟩ := (refines schedule).entry_eq allocated
  obtain ⟨more, pc', ordered⟩ := before_run queries _ later thread made pc
  rw [← run_append] at pc'
  exact ⟨query, made, more, found, ordered, rfl,
    by simp [(refines _).entries, found, pc', Query.entryAt]⟩

variable (wellClocked : ∀ query ∈ queries, query.WellClocked)
include wellClocked

/-- Over every interleaving of threads whose clocks run forward, from any point to any later
one, every entry allocated at the first keeps its allocation, and its phase follows the arrows
of the `QueryPhase` diagram; a terminal phase stays. -/
theorem run_phases (maxSize : Nat) (schedule later : List Nat) {thread : Nat}
    {before : QueryLogEntry}
    (allocated : ((new maxSize).run queries schedule).entries thread = some before) :
    ∃ after, ((new maxSize).run queries (schedule ++ later)).entries thread = some after ∧
      Relation.ReflTransGen QueryPhase.Edge before.phase after.phase ∧
      (before.phase.IsTerminal → after.phase = before.phase) := by
  obtain ⟨query, made, more, found, ordered, rfl, reached⟩ :=
    run_entry_later maxSize schedule later allocated
  have moves := (Query.stores_good (wellClocked query (List.getElem?_mem found))).1.1
  exact ⟨_, reached, phase_reflTransGen moves ordered,
    fun terminal => terminal_phase_stays moves terminal more ordered⟩

omit wellClocked in
theorem run_phases_of_two_queries :
    (∀ query ∈ ([⟨0, .planned (.node none []) 1 (.permit 2 (.success 3 4))⟩, ⟨1, .drop 5⟩] :
      List Query), query.WellClocked) ∧
      ((new 1).run [⟨0, .planned (.node none []) 1 (.permit 2 (.success 3 4))⟩, ⟨1, .drop 5⟩]
        [0, 1, 0, 1]).entries 0 = some (.new 0) ∧
      ∃ after, ((new 1).run [⟨0, .planned (.node none []) 1 (.permit 2 (.success 3 4))⟩,
          ⟨1, .drop 5⟩] ([0, 1, 0, 1] ++ [0, 0, 0, 0])).entries 0 = some after ∧
        Relation.ReflTransGen QueryPhase.Edge QueryPhase.received after.phase :=
  have allocated : ((new 1).run [⟨0, .planned (.node none []) 1 (.permit 2 (.success 3 4))⟩,
      ⟨1, .drop 5⟩] [0, 1, 0, 1]).entries 0 = some (.new 0) := by decide
  ⟨by decide, allocated,
    let ⟨after, reached, moves, _⟩ := run_phases (by decide) 1 _ [0, 0, 0, 0] allocated
    ⟨after, reached, moves⟩⟩

/-- Over every interleaving of threads whose clocks run forward: whatever the threads did
before, a thread of the workload given `stores + 2` more actions completes its `push` and every
store of its token; once its token is dropped, its entry is `Finished`. -/
theorem run_finishes (maxSize : Nat) (schedule : List Nat) {thread : Nat} {query : Query}
    (found : queries[thread]? = some query) (dropped : query.run.dropsToken = true) :
    ∃ entry, ((new maxSize).run queries
        (schedule ++ List.replicate (query.stores.length + 2) thread)).entries thread = some entry ∧
      Finished entry := by
  have done : ((new maxSize).run queries
      (schedule ++ List.replicate (query.stores.length + 2) thread)).pcs thread =
        .token query.stores.length := by
    rw [run_append, run_replicate_pcs queries _ found,
      Pc.next_iterate (within_run queries (within_new queries maxSize) schedule thread query found)]
  refine ⟨applyStores (.new query.issueTime) query.stores, ?_,
    (Query.stores_good (wellClocked query (List.getElem?_mem found))).2 dropped⟩
  simp [(refines_run queries (refines_new queries maxSize) _).entries, found, done, Query.entryAt,
    Pc.made, observe]

omit wellClocked in
theorem run_finishes_of_two_queries :
    (∀ query ∈ ([⟨0, .planned (.node none []) 1 (.permit 2 (.success 3 4))⟩, ⟨1, .drop 5⟩] :
      List Query), query.WellClocked) ∧
      ([⟨0, .planned (.node none []) 1 (.permit 2 (.success 3 4))⟩, ⟨1, .drop 5⟩] :
        List Query)[0]? = some ⟨0, .planned (.node none []) 1 (.permit 2 (.success 3 4))⟩ ∧
      TokenRun.dropsToken (.planned (.node none []) 1 (.permit 2 (.success 3 4))) = true ∧
      ∃ entry, ((new 1).run [⟨0, .planned (.node none []) 1 (.permit 2 (.success 3 4))⟩,
          ⟨1, .drop 5⟩] ([1, 0, 1] ++ List.replicate
            ((Query.stores ⟨0, .planned (.node none []) 1 (.permit 2 (.success 3 4))⟩).length + 2)
            0)).entries 0 = some entry ∧ Finished entry :=
  ⟨by decide, rfl, rfl, run_finishes (by decide) 1 [1, 0, 1] rfl rfl⟩

end Results

end System

end InfluxCore.IoxQuery
