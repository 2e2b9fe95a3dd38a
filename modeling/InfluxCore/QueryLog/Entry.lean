import InfluxCore.QueryLog.AtomicDuration

/-! # Query log entries, their phases, and the stores that change them

A `QueryLogEntry` is shared between the log, its readers and the one token that drives it; the
token changes it only through single atomic stores. `Store` is one such store and
`applyStores` the entry a sequence of them leaves, so that a reader may be placed between any
two of them.

The entry's `phase` is an `AtomicU8` written as `QueryPhase::id` and read through
`QueryPhase::from_id`; `fromId_id` shows the pair is a bijection on the phases the code stores,
so the model keeps the phase itself. The entry's fields that no token operation reads or writes
(`id`, namespace, query text, trace id) are left out.
-/

namespace InfluxCore.IoxQuery

/-- `QueryPhase`. -/
inductive QueryPhase
  | received
  | planned
  | permit
  | cancel
  | success
  | fail
  deriving DecidableEq, Repr

namespace QueryPhase

/-- `QueryPhase::id`. -/
def id : QueryPhase → UInt8
  | received => 0
  | planned => 1
  | permit => 2
  | cancel => 3
  | success => 4
  | fail => 5

/-- `QueryPhase::from_id`; `none` where the source reaches `unreachable!()`. -/
def fromId : UInt8 → Option QueryPhase
  | 0 => some received
  | 1 => some planned
  | 2 => some permit
  | 3 => some cancel
  | 4 => some success
  | 5 => some fail
  | _ => none

theorem fromId_id (phase : QueryPhase) : fromId phase.id = some phase := by
  cases phase <;> rfl

/-- The terminal phases: `Cancel`, `Success` and `Fail`. -/
def IsTerminal (phase : QueryPhase) : Prop :=
  phase = cancel ∨ phase = success ∨ phase = fail

instance : DecidablePred IsTerminal := fun _ => inferInstanceAs (Decidable (_ ∨ _))

/-- The arrows of the diagram on `QueryPhase`. -/
inductive Edge : QueryPhase → QueryPhase → Prop
  | plan : Edge received planned
  | failPlanning : Edge received fail
  | cancelReceived : Edge received cancel
  | grant : Edge planned permit
  | cancelPlanned : Edge planned cancel
  | succeed : Edge permit success
  | failExecution : Edge permit fail
  | cancelPermit : Edge permit cancel

/-- A phase change the diagram allows: staying put, or one arrow. -/
def Moves (before after : QueryPhase) : Prop := before = after ∨ Edge before after

theorem Edge.not_terminal {before after : QueryPhase} (edge : Edge before after) :
    ¬ IsTerminal before := by
  cases edge <;> simp [IsTerminal]

end QueryPhase

/-- The fields of a `QueryLogEntry` a token reads or writes. -/
structure QueryLogEntry where
  issueTime : Int
  permitDuration : AtomicDuration
  planDuration : AtomicDuration
  executeDuration : AtomicDuration
  end2endDuration : AtomicDuration
  computeDuration : AtomicDuration
  success : Bool
  running : Bool
  phase : QueryPhase
  deriving DecidableEq, Repr

namespace QueryLogEntry

/-- The entry `QueryLog::push` allocates: issued now, every duration unset, running, received. -/
def new (issueTime : Int) : QueryLogEntry where
  issueTime := issueTime
  permitDuration := default
  planDuration := default
  executeDuration := default
  end2endDuration := default
  computeDuration := default
  success := false
  running := true
  phase := .received

end QueryLogEntry

/-- One atomic store a token makes into its entry. -/
inductive Store
  | permitDuration (cell : AtomicDuration)
  | planDuration (cell : AtomicDuration)
  | executeDuration (cell : AtomicDuration)
  | end2endDuration (cell : AtomicDuration)
  | computeDuration (cell : AtomicDuration)
  | success (value : Bool)
  | running (value : Bool)
  | phase (phase : QueryPhase)
  deriving DecidableEq, Repr

/-- The entry after one store. -/
def Store.apply (entry : QueryLogEntry) : Store → QueryLogEntry
  | .permitDuration cell => { entry with permitDuration := cell }
  | .planDuration cell => { entry with planDuration := cell }
  | .executeDuration cell => { entry with executeDuration := cell }
  | .end2endDuration cell => { entry with end2endDuration := cell }
  | .computeDuration cell => { entry with computeDuration := cell }
  | .success value => { entry with success := value }
  | .running value => { entry with running := value }
  | .phase next => { entry with phase := next }

/-- The entry after a sequence of stores, in order. -/
def applyStores (entry : QueryLogEntry) (stores : List Store) : QueryLogEntry :=
  stores.foldl Store.apply entry

@[simp] theorem applyStores_nil (entry : QueryLogEntry) : applyStores entry [] = entry := rfl

@[simp] theorem applyStores_cons (entry : QueryLogEntry) (store : Store) (stores : List Store) :
    applyStores entry (store :: stores) = applyStores (store.apply entry) stores := rfl

theorem applyStores_append (entry : QueryLogEntry) (first second : List Store) :
    applyStores entry (first ++ second) = applyStores (applyStores entry first) second :=
  List.foldl_append _ _ _ _

@[simp] theorem issueTime_apply (entry : QueryLogEntry) (store : Store) :
    (store.apply entry).issueTime = entry.issueTime := by
  cases store <;> rfl

@[simp] theorem issueTime_applyStores (entry : QueryLogEntry) (stores : List Store) :
    (applyStores entry stores).issueTime = entry.issueTime := by
  induction stores generalizing entry with
  | nil => rfl
  | cons store stores inductionHypothesis => simp [inductionHypothesis]

/-- `Option::expect`: the value, or a panic with the message. -/
def expect {α : Type} (value : Option α) (message : String) : Except String α :=
  match value with
  | some value => .ok value
  | none => .error message

@[simp] theorem expect_some {α : Type} (value : α) (message : String) :
    expect (some value) message = .ok value := rfl

@[simp] theorem expect_none {α : Type} (message : String) :
    expect (none : Option α) message = .error message := rfl

end InfluxCore.IoxQuery
