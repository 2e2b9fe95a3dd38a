import InfluxCore.QueryLog.Entry

/-! # Compute time of an execution plan

`collect_compute_duration` walks an `ExecutionPlan` through `metrics()` and `children()` and
adds up the `elapsed_compute` nanoseconds it finds, as `std::time::Duration`s, whose `+=`
panics past `Duration::MAX`.

`collectComputeDuration_eq` is the whole story: the walk meets every node of the tree exactly
once (`ExecutionPlan.nodes`), and it returns their sum unless that sum does not fit in a
`Duration`, in which case it panics. A partial sum never exceeds the total, so the walk panics
exactly when the total is too large, wherever in the tree the overflow happens.
-/

namespace InfluxCore.IoxQuery

/-- What `collect_compute_duration` reads of a plan's `MetricsSet`: `elapsed_compute()`, a
`usize` on the 64-bit targets the code runs on. -/
structure MetricsSet where
  elapsedCompute : Option UInt64
  deriving DecidableEq, Repr

/-- The view of an `ExecutionPlan` the query log has: `metrics()` and `children()`. -/
inductive ExecutionPlan where
  | node (metrics : Option MetricsSet) (children : List ExecutionPlan)
  deriving Repr

/-- `Duration::MAX`: `u64::MAX` seconds and `999_999_999` nanoseconds, in nanoseconds. -/
def durationMax : Nat := (2 ^ 64 - 1) * 1000000000 + 999999999

/-- `Duration + Duration`, which panics on overflow. -/
def durationAdd (total more : Nat) : Except String Nat :=
  if total + more ≤ durationMax then .ok (total + more) else .error "overflow when adding durations"

/-- The nanoseconds a node adds itself: its `elapsed_compute`, or nothing. -/
def MetricsSet.nanos : Option MetricsSet → Nat
  | some { elapsedCompute := some nanos } => nanos.toNat
  | _ => 0

mutual

/-- `collect_compute_duration`. -/
def collectComputeDuration : ExecutionPlan → Except String Nat
  | .node metrics children => do
    let total ← durationAdd 0 (MetricsSet.nanos metrics)
    collectChildren total children

/-- The `for child in plan.children()` loop of `collect_compute_duration`. -/
def collectChildren (total : Nat) : List ExecutionPlan → Except String Nat
  | [] => .ok total
  | child :: rest => do
    let childTotal ← collectComputeDuration child
    let total ← durationAdd total childTotal
    collectChildren total rest

end

mutual

/-- Every node of a plan, each once, in pre-order. -/
def ExecutionPlan.nodes : ExecutionPlan → List ExecutionPlan
  | plan@(.node _ children) => plan :: ExecutionPlan.nodesOf children

/-- The nodes of a list of plans. -/
def ExecutionPlan.nodesOf : List ExecutionPlan → List ExecutionPlan
  | [] => []
  | plan :: rest => plan.nodes ++ ExecutionPlan.nodesOf rest

end

/-- The `elapsed_compute` nanoseconds of one node, zero when it reports none. -/
def ExecutionPlan.elapsed : ExecutionPlan → Nat
  | .node metrics _ => MetricsSet.nanos metrics

/-- The compute time of a plan: the sum of `elapsed_compute` over every node of the tree. -/
def ExecutionPlan.computeSum (plan : ExecutionPlan) : Nat :=
  (plan.nodes.map ExecutionPlan.elapsed).sum

/-- The same sum over the nodes of a list of plans. -/
def ExecutionPlan.computeSumOf (plans : List ExecutionPlan) : Nat :=
  ((ExecutionPlan.nodesOf plans).map ExecutionPlan.elapsed).sum

@[simp] theorem ExecutionPlan.computeSum_node (metrics : Option MetricsSet)
    (children : List ExecutionPlan) :
    (ExecutionPlan.node metrics children).computeSum =
      MetricsSet.nanos metrics + ExecutionPlan.computeSumOf children := by
  simp [ExecutionPlan.computeSum, ExecutionPlan.computeSumOf, ExecutionPlan.nodes,
    ExecutionPlan.elapsed]

@[simp] theorem ExecutionPlan.computeSumOf_nil : ExecutionPlan.computeSumOf [] = 0 := rfl

@[simp] theorem ExecutionPlan.computeSumOf_cons (plan : ExecutionPlan) (rest : List ExecutionPlan) :
    ExecutionPlan.computeSumOf (plan :: rest) = plan.computeSum + ExecutionPlan.computeSumOf rest := by
  simp [ExecutionPlan.computeSumOf, ExecutionPlan.computeSum, ExecutionPlan.nodesOf,
    List.sum_append]

theorem MetricsSet.nanos_lt (metrics : Option MetricsSet) : MetricsSet.nanos metrics < 2 ^ 64 := by
  match metrics with
  | some { elapsedCompute := some nanos } => exact nanos.toNat_lt_size
  | some { elapsedCompute := none } | none => decide

/-- The outcome of adding up durations to `total`: the total, or the overflow panic. -/
def sumOutcome (total : Nat) : Except String Nat :=
  if total ≤ durationMax then .ok total else .error "overflow when adding durations"

theorem durationAdd_eq (total more : Nat) : durationAdd total more = sumOutcome (total + more) := rfl

theorem sumOutcome_bind (total : Nat) (rest : Nat → Except String Nat) :
    (sumOutcome total >>= rest) =
      if total ≤ durationMax then rest total else .error "overflow when adding durations" := by
  unfold sumOutcome; split <;> rfl

theorem sumOutcome_of_lt {total : Nat} (tooLarge : durationMax < total) :
    sumOutcome total = .error "overflow when adding durations" := by
  rw [sumOutcome, if_neg (by omega)]

mutual

theorem collectComputeDuration_eq_sumOutcome :
    ∀ plan : ExecutionPlan, collectComputeDuration plan = sumOutcome plan.computeSum
  | .node metrics children => by
    have small : MetricsSet.nanos metrics ≤ durationMax := by
      have := MetricsSet.nanos_lt metrics; unfold durationMax; omega
    rw [collectComputeDuration, durationAdd_eq, Nat.zero_add, ExecutionPlan.computeSum_node,
      sumOutcome_bind, if_pos small, collectChildren_eq_sumOutcome _ children small]

theorem collectChildren_eq_sumOutcome (total : Nat) :
    ∀ children : List ExecutionPlan,
      total ≤ durationMax → collectChildren total children =
        sumOutcome (total + ExecutionPlan.computeSumOf children)
  | [], fits => by simp [collectChildren, sumOutcome, fits]
  | child :: rest, fits => by
    rw [collectChildren, collectComputeDuration_eq_sumOutcome child,
      ExecutionPlan.computeSumOf_cons]
    simp only [durationAdd_eq, sumOutcome_bind]
    by_cases childFits : child.computeSum ≤ durationMax
    · by_cases bothFit : total + child.computeSum ≤ durationMax
      · rw [if_pos childFits, if_pos bothFit, collectChildren_eq_sumOutcome _ rest bothFit,
          Nat.add_assoc]
      · rw [if_pos childFits, if_neg bothFit, sumOutcome_of_lt (by omega)]
    · rw [if_neg childFits, sumOutcome_of_lt (by omega)]

end

/-- `collect_compute_duration` counts every node of the plan exactly once: it returns the sum
of `elapsed_compute` over all nodes when that sum fits in a `Duration`, and panics otherwise. -/
theorem collectComputeDuration_eq (plan : ExecutionPlan) :
    collectComputeDuration plan =
      if plan.computeSum ≤ durationMax then .ok plan.computeSum
      else .error "overflow when adding durations" :=
  collectComputeDuration_eq_sumOutcome plan

end InfluxCore.IoxQuery
