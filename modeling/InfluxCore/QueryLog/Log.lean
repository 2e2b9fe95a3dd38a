import Mathlib

/-! # `QueryLog`: the bounded buffer of entries

`QueryLog::push` enforces the limit *before* appending the new entry: while the deque holds more
than `max_size` entries it pops the oldest and counts it in `evicted`. The deque therefore
settles at `max_size + 1` entries, one more than the doc of `QueryLog::new` promises ("can hold
at most `size` items. When the `size+1` item is added, item `0` is evicted").
`pushAll_entries` states what every sequence of pushes leaves: the last `max_size + 1` entries,
oldest first, and the count of the others. `push` and `entries` take the log's mutex, so
concurrent calls run as some sequence of them; the model is that sequence. Entries are kept
abstract (`α`): the log only moves its `Arc`s around.
-/

namespace InfluxCore.IoxQuery

/-- The state of a `QueryLog`: its deque, oldest first, `max_size`, and the `evicted` counter,
an `AtomicUsize` whose `fetch_add` wraps at `2^64`. -/
structure QueryLog (α : Type) where
  log : List α
  maxSize : Nat
  evicted : Nat
  deriving DecidableEq, Repr

/-- `QueryLogEntries`: the snapshot `QueryLog::entries` returns. -/
structure QueryLogEntries (α : Type) where
  entries : List α
  maxSize : Nat
  evicted : Nat
  deriving DecidableEq, Repr

namespace QueryLog

variable {α : Type}

/-- `QueryLog::new`. -/
def new (maxSize : Nat) : QueryLog α := { log := [], maxSize, evicted := 0 }

/-- The `while log.len() > self.max_size` loop of `QueryLog::push`. -/
def enforceLimit (maxSize : Nat) : List α → Nat → List α × Nat
  | [], evicted => ([], evicted)
  | entry :: rest, evicted =>
    if (entry :: rest).length > maxSize then enforceLimit maxSize rest ((evicted + 1) % 2 ^ 64)
    else (entry :: rest, evicted)

/-- `QueryLog::push`: a log of `max_size` zero stores nothing. -/
def push (queryLog : QueryLog α) (entry : α) : QueryLog α :=
  if queryLog.maxSize = 0 then queryLog
  else
    let (log, evicted) := enforceLimit queryLog.maxSize queryLog.log queryLog.evicted
    { queryLog with log := log ++ [entry], evicted }

/-- `QueryLog::entries`. -/
def entries (queryLog : QueryLog α) : QueryLogEntries α :=
  ⟨queryLog.log, queryLog.maxSize, queryLog.evicted⟩

/-- The log after a sequence of pushes, in order. -/
def pushAll (queryLog : QueryLog α) (pushed : List α) : QueryLog α :=
  pushed.foldl push queryLog

/-- The limit loop drops the oldest entries until at most `maxSize` remain, counting each. -/
theorem enforceLimit_eq (maxSize : Nat) (log : List α) {evicted : Nat} (small : evicted < 2 ^ 64) :
    enforceLimit maxSize log evicted =
      (log.drop (log.length - maxSize), (evicted + (log.length - maxSize)) % 2 ^ 64) := by
  induction log generalizing evicted with
  | nil =>
    simp only [enforceLimit, List.drop_nil, List.length_nil, Nat.zero_sub, Nat.add_zero,
      Nat.mod_eq_of_lt small]
  | cons entry rest inductionHypothesis =>
    rw [enforceLimit]
    split
    · next tooLong =>
      simp only [List.length_cons] at tooLong ⊢
      rw [inductionHypothesis (Nat.mod_lt _ (by decide)), Nat.succ_sub (by omega),
        List.drop_succ_cons, Nat.add_mod, Nat.mod_mod, ← Nat.add_mod, Nat.add_assoc,
        Nat.add_comm 1]
    · next fits =>
      simp only [List.length_cons] at fits ⊢
      rw [Nat.sub_eq_zero_of_le (by omega), List.drop_zero, Nat.add_zero,
        Nat.mod_eq_of_lt small]

theorem pushAll_append (queryLog : QueryLog α) (pushed : List α) (entry : α) :
    queryLog.pushAll (pushed ++ [entry]) = (queryLog.pushAll pushed).push entry :=
  List.foldl_append _ _ _ _

theorem push_of_ne_zero (queryLog : QueryLog α) (entry : α) (positive : queryLog.maxSize ≠ 0)
    (small : queryLog.evicted < 2 ^ 64) :
    queryLog.push entry =
      { queryLog with
        log := queryLog.log.drop (queryLog.log.length - queryLog.maxSize) ++ [entry]
        evicted := (queryLog.evicted + (queryLog.log.length - queryLog.maxSize)) % 2 ^ 64 } := by
  simp [push, positive, enforceLimit_eq _ _ small]

theorem pushAll_zero (pushed : List α) : (new 0 : QueryLog α).pushAll pushed = new 0 := by
  induction pushed using List.reverseRecOn with
  | nil => rfl
  | append_singleton pushed entry inductionHypothesis =>
    rw [pushAll_append, inductionHypothesis]
    rfl

theorem pushAll_of_ne_zero {maxSize : Nat} (positive : maxSize ≠ 0) (pushed : List α) :
    (new maxSize : QueryLog α).pushAll pushed =
      ⟨pushed.drop (pushed.length - (maxSize + 1)), maxSize,
        (pushed.length - (maxSize + 1)) % 2 ^ 64⟩ := by
  induction pushed using List.reverseRecOn with
  | nil => simp [pushAll, new]
  | append_singleton pushed entry inductionHypothesis =>
    rw [pushAll_append, inductionHypothesis, push_of_ne_zero _ _ positive (Nat.mod_lt _ (by decide))]
    simp only [List.length_drop, List.drop_drop, List.length_append, List.length_singleton,
      Nat.mod_add_mod, QueryLog.mk.injEq, and_true, true_and]
    constructor
    · rw [List.drop_append_of_le_length (by omega)]
      congr 2
      omega
    · congr 1
      omega

/-- Every sequence of pushes leaves the last `max_size + 1` entries pushed, oldest first, and
counts the others as evicted (modulo `2^64`); a log of `max_size` zero stays empty. -/
theorem pushAll_entries (maxSize : Nat) (pushed : List α) :
    ((new maxSize : QueryLog α).pushAll pushed).entries =
      if maxSize = 0 then ⟨[], 0, 0⟩
      else ⟨pushed.drop (pushed.length - (maxSize + 1)), maxSize,
        (pushed.length - (maxSize + 1)) % 2 ^ 64⟩ := by
  split
  · next zero => subst zero; rw [pushAll_zero]; rfl
  · next positive => rw [pushAll_of_ne_zero positive]; rfl

/-- Two pushes into a log of `max_size` one leave both entries in it and none evicted. -/
theorem query_log_holds_max_size_plus_one :
    ((new 1 : QueryLog Nat).pushAll [1, 2]).entries = ⟨[1, 2], 1, 0⟩ := rfl

end QueryLog

end InfluxCore.IoxQuery
