import Mathlib

/-! # `chrono::format::StrftimeItems`: a format string as formatting items

The partition template code hands every `TimeFormat` string to chrono's `StrftimeItems`, both to
validate it (rendering the current time through the items fails exactly when one of them is an
`Item::Error`) and to decode a partition key (`parse_part_time_format` parses with the items and
then inspects each of them).

`StrftimeItems::new(fmt)` yields, for each specifier `%x`, the item `parse_next_item` returns and
then the items it queued (composite specifiers such as `%F` queue four more); a run of whitespace
is one `Item::Space`, and any other run up to the next whitespace or `%` one `Item::Literal`. A
padding modifier (`%-`, `%0`, `%_`) applies only to a lone numeric item and turns anything else
into an `Item::Error`, while the queue is still emitted; `%#` is allowed only before `z`.

The iterator is written with fuel equal to the length of the format: each item, or each
specifier's group of items, consumes at least one character, so the fuel never runs out.
-/

namespace InfluxCore.Chrono

/-- `chrono::format::Pad`. -/
inductive Pad
  | none
  | zero
  | space
  deriving DecidableEq, Repr

/-- `chrono::format::Numeric`. -/
inductive Numeric
  | year
  | yearDiv100
  | yearMod100
  | isoYear
  | isoYearDiv100
  | isoYearMod100
  | month
  | day
  | weekFromSun
  | weekFromMon
  | isoWeek
  | numDaysFromSun
  | weekdayFromMon
  | ordinal
  | hour
  | hour12
  | minute
  | second
  | nanosecond
  | timestamp
  deriving DecidableEq, Repr

/-- `chrono::format::Fixed`, together with the internal fixed items `StrftimeItems` produces
for `%#z` and `%3f`, `%6f`, `%9f`. -/
inductive Fixed
  | shortMonthName
  | longMonthName
  | shortWeekdayName
  | longWeekdayName
  | lowerAmPm
  | upperAmPm
  | nanosecond
  | nanosecond3
  | nanosecond6
  | nanosecond9
  | timezoneName
  | timezoneOffsetColon
  | timezoneOffsetDoubleColon
  | timezoneOffsetTripleColon
  | timezoneOffset
  | rfc3339
  | timezoneOffsetPermissive
  | nanosecond3NoDot
  | nanosecond6NoDot
  | nanosecond9NoDot
  deriving DecidableEq, Repr

/-- `chrono::format::Item`, as `StrftimeItems` produces it (borrowed literals and spaces). -/
inductive Item
  | literal (text : List Char)
  | space (text : List Char)
  | numeric (kind : Numeric) (pad : Pad)
  | fixed (kind : Fixed)
  | error
  deriving DecidableEq, Repr

/-- `char::is_whitespace`: the characters of Unicode's `White_Space` property. -/
def isWhitespace (c : Char) : Bool :=
  decide (c.toNat = 0x20 ∨ (0x09 ≤ c.toNat ∧ c.toNat ≤ 0x0D) ∨ c.toNat = 0x85 ∨ c.toNat = 0xA0 ∨
    c.toNat = 0x1680 ∨ (0x2000 ≤ c.toNat ∧ c.toNat ≤ 0x200A) ∨ c.toNat = 0x2028 ∨
    c.toNat = 0x2029 ∨ c.toNat = 0x202F ∨ c.toNat = 0x205F ∨ c.toNat = 0x3000)

/-- `num`: a numeric item without padding. -/
def num (kind : Numeric) : Item := .numeric kind .none

/-- `num0`: a numeric item padded with zeros. -/
def num0 (kind : Numeric) : Item := .numeric kind .zero

/-- `nums`: a numeric item padded with spaces. -/
def nums (kind : Numeric) : Item := .numeric kind .space

/-- `D_FMT`, the items of `%x`. -/
def dFmt : List Item :=
  [num0 .month, .literal ['/'], num0 .day, .literal ['/'], num0 .yearMod100]

/-- `D_T_FMT`, the items of `%c`. -/
def dTFmt : List Item :=
  [.fixed .shortWeekdayName, .space [' '], .fixed .shortMonthName, .space [' '], nums .day,
    .space [' '], num0 .hour, .literal [':'], num0 .minute, .literal [':'], num0 .second,
    .space [' '], num0 .year]

/-- `T_FMT`, the items of `%X`. -/
def tFmt : List Item :=
  [num0 .hour, .literal [':'], num0 .minute, .literal [':'], num0 .second]

/-- `T_FMT_AMPM`, the items of `%r`. -/
def tFmtAmPm : List Item :=
  [num0 .hour12, .literal [':'], num0 .minute, .literal [':'], num0 .second, .space [' '],
    .fixed .upperAmPm]

/-- `match next!() { 'f' => item, _ => Item::Error }`, where a format that ends there is an
`Item::Error` too. -/
def expectF (item : Item) : List Char → List Item × List Char
  | [] => ([.error], [])
  | c :: rest => (if c = 'f' then [item] else [.error], rest)

/-- The items of the specifier `spec` (its returned item, then its queue) and what is left of the
format after it; `isAlternate` is the `#` modifier. -/
def specItems (spec : Char) (isAlternate : Bool) (rest : List Char) : List Item × List Char :=
  match spec with
  | 'A' => ([.fixed .longWeekdayName], rest)
  | 'B' => ([.fixed .longMonthName], rest)
  | 'C' => ([num0 .yearDiv100], rest)
  | 'D' => ([num0 .month, .literal ['/'], num0 .day, .literal ['/'], num0 .yearMod100], rest)
  | 'F' => ([num0 .year, .literal ['-'], num0 .month, .literal ['-'], num0 .day], rest)
  | 'G' => ([num0 .isoYear], rest)
  | 'H' => ([num0 .hour], rest)
  | 'I' => ([num0 .hour12], rest)
  | 'M' => ([num0 .minute], rest)
  | 'P' => ([.fixed .lowerAmPm], rest)
  | 'R' => ([num0 .hour, .literal [':'], num0 .minute], rest)
  | 'S' => ([num0 .second], rest)
  | 'T' => ([num0 .hour, .literal [':'], num0 .minute, .literal [':'], num0 .second], rest)
  | 'U' => ([num0 .weekFromSun], rest)
  | 'V' => ([num0 .isoWeek], rest)
  | 'W' => ([num0 .weekFromMon], rest)
  | 'X' => (tFmt, rest)
  | 'Y' => ([num0 .year], rest)
  | 'Z' => ([.fixed .timezoneName], rest)
  | 'a' => ([.fixed .shortWeekdayName], rest)
  | 'b' => ([.fixed .shortMonthName], rest)
  | 'c' => (dTFmt, rest)
  | 'd' => ([num0 .day], rest)
  | 'e' => ([nums .day], rest)
  | 'f' => ([num0 .nanosecond], rest)
  | 'g' => ([num0 .isoYearMod100], rest)
  | 'h' => ([.fixed .shortMonthName], rest)
  | 'j' => ([num0 .ordinal], rest)
  | 'k' => ([nums .hour], rest)
  | 'l' => ([nums .hour12], rest)
  | 'm' => ([num0 .month], rest)
  | 'n' => ([.space ['\n']], rest)
  | 'p' => ([.fixed .upperAmPm], rest)
  | 'r' => (tFmtAmPm, rest)
  | 's' => ([num .timestamp], rest)
  | 't' => ([.space ['\t']], rest)
  | 'u' => ([num .weekdayFromMon], rest)
  | 'v' => ([nums .day, .literal ['-'], .fixed .shortMonthName, .literal ['-'], num0 .year], rest)
  | 'w' => ([num .numDaysFromSun], rest)
  | 'x' => (dFmt, rest)
  | 'y' => ([num0 .yearMod100], rest)
  | 'z' => ([.fixed (if isAlternate then .timezoneOffsetPermissive else .timezoneOffset)], rest)
  | '+' => ([.fixed .rfc3339], rest)
  | ':' =>
    match rest with
    | ':' :: ':' :: 'z' :: rest => ([.fixed .timezoneOffsetTripleColon], rest)
    | ':' :: 'z' :: rest => ([.fixed .timezoneOffsetDoubleColon], rest)
    | 'z' :: rest => ([.fixed .timezoneOffsetColon], rest)
    | _ => ([.error], rest)
  | '.' =>
    match rest with
    | [] => ([.error], [])
    | '3' :: rest => expectF (.fixed .nanosecond3) rest
    | '6' :: rest => expectF (.fixed .nanosecond6) rest
    | '9' :: rest => expectF (.fixed .nanosecond9) rest
    | 'f' :: rest => ([.fixed .nanosecond], rest)
    | _ :: rest => ([.error], rest)
  | '3' => expectF (.fixed .nanosecond3NoDot) rest
  | '6' => expectF (.fixed .nanosecond6NoDot) rest
  | '9' => expectF (.fixed .nanosecond9NoDot) rest
  | '%' => ([.literal ['%']], rest)
  | _ => ([.error], rest)

/-- The padding modifier a character after `%` stands for. -/
def padOverride : Char → Option Pad
  | '-' => some .none
  | '0' => some .zero
  | '_' => some .space
  | _ => none

/-- A padding modifier on a specifier: a lone numeric item takes the new padding; for any other
item the returned item becomes `Item::Error` and the queue stays. -/
def withPad (pad : Pad) : List Item × List Char → List Item × List Char
  | ([.numeric kind _], rest) => ([.numeric kind pad], rest)
  | (_ :: queue, rest) => (.error :: queue, rest)
  | ([], rest) => ([.error], rest)

/-- `parse_next_item` after a `%`: the modifier, then the specifier. -/
def afterPercent : List Char → List Item × List Char
  | [] => ([.error], [])
  | ['#'] => ([.error], [])
  | '#' :: spec :: rest => if spec = 'z' then specItems spec true rest else ([.error], rest)
  | c :: rest =>
    match padOverride c, rest with
    | some _, [] => ([.error], [])
    | some pad, spec :: rest => withPad pad (specItems spec false rest)
    | none, _ => specItems c false rest

/-- The items of the rest of a format, with `fuel` bounding the number of steps. -/
def itemsFrom : Nat → List Char → List Item
  | 0, _ => []
  | _, [] => []
  | fuel + 1, '%' :: rest =>
    let next := afterPercent rest
    next.1 ++ itemsFrom fuel next.2
  | fuel + 1, c :: rest =>
    if isWhitespace c then
      let run := (c :: rest).span isWhitespace
      .space run.1 :: itemsFrom fuel run.2
    else
      let run := (c :: rest).span fun c => !isWhitespace c && c != '%'
      .literal run.1 :: itemsFrom fuel run.2

/-- `StrftimeItems::new(fmt)`, collected. -/
def StrftimeItems.new (format : String) : List Item :=
  itemsFrom format.length format.toList

/-! ## The shapes of the items -/

/-- The text of an item as `StrftimeItems` cuts it: a literal is a nonempty run without
whitespace, a space a nonempty run of whitespace. -/
def Item.wellFormed : Item → Bool
  | .literal text => !text.isEmpty && text.all fun c => !isWhitespace c
  | .space text => !text.isEmpty && text.all isWhitespace
  | _ => true

theorem Item.wellFormed_literal {text : List Char} :
    (Item.literal text).wellFormed ↔ text ≠ [] ∧ ∀ c ∈ text, isWhitespace c = false := by
  simp [Item.wellFormed]

theorem Item.wellFormed_space {text : List Char} :
    (Item.space text).wellFormed ↔ text ≠ [] ∧ ∀ c ∈ text, isWhitespace c := by
  simp [Item.wellFormed]

theorem specItems_wellFormed (spec : Char) (isAlternate : Bool) (rest : List Char) :
    ∀ item ∈ (specItems spec isAlternate rest).1, item.wellFormed := by
  unfold specItems
  split <;> (try split) <;> (try unfold expectF; split) <;> (try split_ifs) <;> (try dsimp only) <;>
    decide

theorem afterPercent_wellFormed (format : List Char) :
    ∀ item ∈ (afterPercent format).1, item.wellFormed := by
  unfold afterPercent
  split
  · decide
  · decide
  · split_ifs
    · exact specItems_wellFormed _ _ _
    · simp [Item.wellFormed]
  · split
    · decide
    · unfold withPad
      split <;> rename_i shaped
      · simp [Item.wellFormed]
      · intro item member
        rcases List.mem_cons.mp member with rfl | queued
        · rfl
        · exact specItems_wellFormed _ _ _ item (by rw [shaped]; exact .tail _ queued)
      · simp [Item.wellFormed]
    · exact specItems_wellFormed _ _ _

theorem itemsFrom_wellFormed (fuel : Nat) (format : List Char) :
    ∀ item ∈ itemsFrom fuel format, item.wellFormed := by
  induction fuel, format using itemsFrom.induct with
  | case1 => simp [itemsFrom]
  | case2 => simp [itemsFrom]
  | case3 fuel rest next inductionHypothesis =>
    simp only [itemsFrom, List.mem_append]
    rintro item (fromSpec | later)
    · exact afterPercent_wellFormed rest item fromSpec
    · exact inductionHypothesis item later
  | case4 fuel c rest notPercent white run inductionHypothesis =>
    rw [itemsFrom.eq_4 _ _ _ notPercent, if_pos white]
    rintro item (_ | ⟨_, later⟩)
    · simp [Item.wellFormed, List.span_eq_take_drop, List.takeWhile_cons_of_pos white,
        List.all_takeWhile, white]
    · exact inductionHypothesis item later
  | case5 fuel c rest notPercent notWhite run inductionHypothesis =>
    have notPercent : c ≠ '%' := notPercent
    rw [itemsFrom.eq_4 _ _ _ notPercent, if_neg notWhite]
    rintro item (_ | ⟨_, later⟩)
    · simp only [Item.wellFormed, List.span_eq_take_drop, List.all_eq_true, Bool.and_eq_true,
        Bool.not_eq_true']
      refine ⟨by simp [List.takeWhile_cons, notWhite, notPercent], fun x member => ?_⟩
      have := List.mem_takeWhile_imp member
      simp_all
    · exact inductionHypothesis item later

/-- Every item of a format has the shape `StrftimeItems` cuts. -/
theorem StrftimeItems.new_wellFormed (format : String) :
    ∀ item ∈ StrftimeItems.new format, item.wellFormed :=
  itemsFrom_wellFormed _ _

example : StrftimeItems.new "%Y-%m-%d" =
    [num0 .year, .literal ['-'], num0 .month, .literal ['-'], num0 .day] := by decide

example : StrftimeItems.new "%-F" =
    [.error, .literal ['-'], num0 .month, .literal ['-'], num0 .day] := by decide

end InfluxCore.Chrono
