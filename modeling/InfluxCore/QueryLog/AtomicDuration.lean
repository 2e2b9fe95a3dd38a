import Mathlib

/-! # `AtomicDuration`: a duration word with an unset sentinel

`query_log.rs` keeps each duration of a query in one `AtomicI64`: the nanoseconds of the
duration, or `UNCOMPLETED_DURATION` (`-1`) while it is unset. A store goes through
`Duration::as_nanos() as i64`, which keeps the low 64 bits, and a load through `d as u64`; so
a duration reads back exactly when its nanoseconds are below `2^64 - 1`, and zero is never
mistaken for the sentinel.

Times (`iox_time::Time`) are nanoseconds since the Unix epoch, as `Int`; durations
(`std::time::Duration`) are their nanoseconds, as `Nat`.
-/

namespace InfluxCore.IoxQuery

/-- `UNCOMPLETED_DURATION`: the word of a duration that is not set yet. -/
def uncompletedDuration : Int := -1

/-- `AtomicDuration`: the 64-bit word of one duration. -/
structure AtomicDuration where
  word : BitVec 64
  deriving DecidableEq, Repr

namespace AtomicDuration

/-- `Default for AtomicDuration`: the unset sentinel. -/
instance : Inhabited AtomicDuration := ⟨⟨BitVec.ofInt 64 uncompletedDuration⟩⟩

/-- `AtomicDuration::get`. -/
def get (cell : AtomicDuration) : Option Nat :=
  if cell.word.toInt = uncompletedDuration then none else some cell.word.toNat

/-- `AtomicDuration::set_absolute`. -/
def setAbsolute (_cell : AtomicDuration) (nanos : Nat) : AtomicDuration :=
  ⟨BitVec.ofNat 64 nanos⟩

/-- `Time::checked_duration_since`: the duration from `origin` to `now`, if not negative. -/
def checkedDurationSince (now origin : Int) : Option Nat :=
  if origin ≤ now then some (now - origin).toNat else none

/-- `AtomicDuration::set_relative`: a clock that went backwards leaves the word as it was. -/
def setRelative (cell : AtomicDuration) (origin now : Int) : AtomicDuration :=
  match checkedDurationSince now origin with
  | some nanos => ⟨BitVec.ofNat 64 nanos⟩
  | none => cell

@[simp] theorem get_default : (default : AtomicDuration).get = none := by decide

/-- What a stored duration reads back as: its low 64 bits, unless they spell the sentinel. -/
theorem get_setAbsolute (cell : AtomicDuration) (nanos : Nat) :
    (cell.setAbsolute nanos).get =
      if nanos % 2 ^ 64 = 2 ^ 64 - 1 then none else some (nanos % 2 ^ 64) := by
  simp only [get, setAbsolute, uncompletedDuration, BitVec.toInt_eq_toNat_cond,
    BitVec.toNat_ofNat]
  split_ifs <;> first | rfl | contradiction | omega

theorem get_setAbsolute_of_lt {cell : AtomicDuration} {nanos : Nat} (small : nanos < 2 ^ 64 - 1) :
    (cell.setAbsolute nanos).get = some nanos := by
  rw [get_setAbsolute, Nat.mod_eq_of_lt (by omega : nanos < 2 ^ 64),
    if_neg (by omega : nanos ≠ 2 ^ 64 - 1)]

theorem setRelative_of_le {cell : AtomicDuration} {origin now : Int} (ordered : origin ≤ now) :
    cell.setRelative origin now = cell.setAbsolute (now - origin).toNat := by
  simp [setRelative, checkedDurationSince, ordered, setAbsolute]

theorem setRelative_of_lt {cell : AtomicDuration} {origin now : Int} (backwards : now < origin) :
    cell.setRelative origin now = cell := by
  simp [setRelative, checkedDurationSince, Int.not_le.mpr backwards]

theorem get_setRelative_of_le {cell : AtomicDuration} {origin now : Int} (ordered : origin ≤ now)
    (small : now - origin < 2 ^ 64 - 1) :
    (cell.setRelative origin now).get = some (now - origin).toNat := by
  rw [setRelative_of_le ordered, get_setAbsolute_of_lt (by omega)]

/-- A duration below `2^64 - 1` nanoseconds, absolute or relative, reads back as itself
(zero included); a relative one from a clock that went backwards changes nothing. -/
theorem atomicDuration_reads_back :
    (∀ (cell : AtomicDuration) (nanos : Nat), nanos < 2 ^ 64 - 1 →
        (cell.setAbsolute nanos).get = some nanos) ∧
    (∀ (cell : AtomicDuration) (origin now : Int), origin ≤ now → now - origin < 2 ^ 64 - 1 →
        (cell.setRelative origin now).get = some (now - origin).toNat) ∧
    (∀ (cell : AtomicDuration) (origin now : Int), now < origin →
        cell.setRelative origin now = cell) ∧
    (∀ cell : AtomicDuration, (cell.setAbsolute 0).get = some 0) :=
  ⟨fun _ _ small => get_setAbsolute_of_lt small,
   fun _ _ _ ordered small => get_setRelative_of_le ordered small,
   fun _ _ _ backwards => setRelative_of_lt backwards,
   fun _ => get_setAbsolute_of_lt (by decide)⟩

theorem atomicDuration_reads_back_at_one_second :
    ((default : AtomicDuration).setAbsolute 1000000000).get = some 1000000000 ∧
      ((default : AtomicDuration).setRelative 5 (5 + 1000000000)).get = some 1000000000 ∧
      (default : AtomicDuration).setRelative 5 4 = default :=
  ⟨atomicDuration_reads_back.1 _ _ (by decide),
   atomicDuration_reads_back.2.1 _ _ _ (by decide) (by decide),
   atomicDuration_reads_back.2.2.1 _ _ _ (by decide)⟩

end AtomicDuration

end InfluxCore.IoxQuery
