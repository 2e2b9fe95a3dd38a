import InfluxCore.Chrono.Strftime
import InfluxCore.Chrono.Calendar
import InfluxCore.Encoding.Decimal

/-! # `chrono::format::parse` into `Parsed`, and rendering with items

`parse` walks the items over the input: a literal must be a prefix of what is left, a space
item skips all leading whitespace, and a numeric item skips leading whitespace, reads digits
(`scan::number`: at most the item's width, or any number after an explicit sign for the signed
year fields) and stores the value in its field of `Parsed`, which must not already hold another
value. Anything left over at the end is an error.

The partition code reads the year, month and day fields, and the hour, minute, second and
nanosecond fields `parsed_implicit_defaults` inspects; these are modelled as chrono has them.
The other fields of `Parsed`, the parsing of fixed items (names, AM/PM, offsets, fractions),
and the checks `to_datetime_with_timezone` makes with those fields are left abstract in
`Extension`: every theorem about the decoder holds for all of them, chrono's included. With no
other field set, resolving a `Parsed` is building the date from the year, month and day and the
time from its fields (`Extension.resolve_none`).
-/

namespace InfluxCore.Chrono

open InfluxCore.Decimal

/-- The fields of `Parsed` the partition code reads. -/
structure Fields where
  year : Option Int
  month : Option Nat
  day : Option Nat
  hourDiv12 : Option Nat
  hourMod12 : Option Nat
  minute : Option Nat
  second : Option Nat
  nanosecond : Option Nat
  deriving DecidableEq

/-- `Parsed`: the fields the partition code reads, and the others (`other`). -/
structure Parsed (Other : Type) where
  fields : Fields
  other : Other

/-- What the model leaves abstract of chrono: the fields of `Parsed` the partition code never
reads (`Other`, empty at `none`) and the numeric setters that fill them; the parsing of fixed
items; how those fields enter `to_datetime_with_timezone` (`resolve`, given what the modelled
fields give, which it keeps when no other field is set); and the rendering of the items the
model does not render itself. -/
structure Extension where
  Other : Type
  none : Other
  setOther : Numeric → Int → Other → Option Other
  parseFixed : Fixed → List Char → Parsed Other → Option (List Char × Parsed Other)
  resolve : Parsed Other → Option DateTime → Option DateTime
  resolve_none : ∀ parsed result, parsed.other = none → resolve parsed result = result
  render : Item → DateTime → List Char

/-- The extension with no field beyond the modelled ones: fixed items and the other numeric
items do not parse, and render as nothing. On formats made of literals, spaces and year, month
and day items, every extension gives what this one gives. -/
def Extension.bare : Extension where
  Other := Unit
  none := ()
  setOther _ _ _ := Option.none
  parseFixed _ _ _ := Option.none
  resolve _ result := result
  resolve_none _ _ _ := rfl
  render _ _ := []

/-- `set_if_consistent`: an unset field takes the value; a set one must already hold it. -/
def setIfConsistent {α : Type} [DecidableEq α] (field : Option α) (value : α) :
    Option (Option α) :=
  match field with
  | none => some (some value)
  | some old => if old = value then some (some old) else none

namespace Fields

/-- The fields of `Parsed::new`, all unset. -/
def empty : Fields :=
  ⟨none, none, none, none, none, none, none, none⟩

/-- The setters of a `u32` field with a range: the value must lie in `lower..=upper`. -/
def setInRange (lower upper : Int) (field : Fields → Option Nat)
    (update : Fields → Option Nat → Fields) (fields : Fields) (value : Int) : Option Fields :=
  if lower ≤ value ∧ value ≤ upper then
    (setIfConsistent (field fields) value.toNat).map (update fields)
  else none

/-- `Parsed::set_year`: any `i32`. -/
def setYear (fields : Fields) (value : Int) : Option Fields :=
  if -2 ^ 31 ≤ value ∧ value < 2 ^ 31 then
    (setIfConsistent fields.year value).map fun year => { fields with year }
  else none

/-- `Parsed::set_month`. -/
def setMonth : Fields → Int → Option Fields :=
  setInRange 1 12 Fields.month fun fields month => { fields with month }

/-- `Parsed::set_day`. -/
def setDay : Fields → Int → Option Fields :=
  setInRange 1 31 Fields.day fun fields day => { fields with day }

/-- `Parsed::set_minute`. -/
def setMinute : Fields → Int → Option Fields :=
  setInRange 0 59 Fields.minute fun fields minute => { fields with minute }

/-- `Parsed::set_second`, a leap second included. -/
def setSecond : Fields → Int → Option Fields :=
  setInRange 0 60 Fields.second fun fields second => { fields with second }

/-- `Parsed::set_nanosecond`. -/
def setNanosecond : Fields → Int → Option Fields :=
  setInRange 0 999999999 Fields.nanosecond fun fields nanosecond => { fields with nanosecond }

/-- `Parsed::set_hour`: both halves of the hour. -/
def setHour (fields : Fields) (value : Int) : Option Fields :=
  if 0 ≤ value ∧ value ≤ 23 then do
    let hourDiv12 ← setIfConsistent fields.hourDiv12 (value / 12).toNat
    let hourMod12 ← setIfConsistent fields.hourMod12 (value % 12).toNat
    pure { fields with hourDiv12, hourMod12 }
  else none

/-- `Parsed::set_hour12`: twelve is stored as zero. -/
def setHour12 (fields : Fields) (value : Int) : Option Fields :=
  if 1 ≤ value ∧ value ≤ 12 then
    (setIfConsistent fields.hourMod12 (value % 12).toNat).map fun hourMod12 =>
      { fields with hourMod12 }
  else none

/-- `Parsed::to_naive_date`, from the year, month and day. -/
def toNaiveDate (fields : Fields) : Option NaiveDate := do
  NaiveDate.fromYmdOpt (← fields.year) (← fields.month) (← fields.day)

/-- `Parsed::to_naive_time`: the hour and minute are required, the second and nanosecond
optional (a nanosecond only with a second), and a second of 60 is a leap second. -/
def toNaiveTime (fields : Fields) : Option NaiveTime := do
  let hourDiv12 ← fields.hourDiv12
  let hourMod12 ← fields.hourMod12
  let minute ← fields.minute
  if 1 < hourDiv12 ∨ 11 < hourMod12 ∨ 59 < minute then none
  let (second, leap) ←
    if fields.second.getD 0 ≤ 59 then some (fields.second.getD 0, 0)
    else if fields.second.getD 0 = 60 then some (59, 1000000000)
    else none
  let nano ← match fields.nanosecond with
    | some nano => if 999999999 < nano ∨ fields.second.isNone then none else some nano
    | none => some 0
  NaiveTime.fromHmsNanoOpt (hourDiv12 * 12 + hourMod12) minute second (leap + nano)

end Fields

namespace Parsed

variable {Other : Type}

/-- `Parsed::new`. -/
def new (other : Other) : Parsed Other :=
  ⟨Fields.empty, other⟩

/-- The setter a numeric item calls. -/
def setNumeric (extension : Extension) (kind : Numeric) (parsed : Parsed extension.Other)
    (value : Int) : Option (Parsed extension.Other) :=
  let update (set : Fields → Int → Option Fields) :=
    (set parsed.fields value).map fun fields => { parsed with fields }
  match kind with
  | .year => update Fields.setYear
  | .month => update Fields.setMonth
  | .day => update Fields.setDay
  | .hour => update Fields.setHour
  | .hour12 => update Fields.setHour12
  | .minute => update Fields.setMinute
  | .second => update Fields.setSecond
  | .nanosecond => update Fields.setNanosecond
  | kind => (extension.setOther kind value parsed.other).map fun other => { parsed with other }

/-- `Parsed::to_datetime_with_timezone(&Utc)`. -/
def toDatetime (extension : Extension) (parsed : Parsed extension.Other) : Option DateTime :=
  extension.resolve parsed (do pure ⟨← parsed.fields.toNaiveDate, ← parsed.fields.toNaiveTime⟩)

end Parsed

/-- The width and signedness `parse` gives a numeric item: signed fields take any number of
digits after an explicit sign, and `none` is no limit. -/
def numericSpec : Numeric → Option Nat × Bool
  | .year | .isoYear => (some 4, true)
  | .yearDiv100 | .yearMod100 | .isoYearDiv100 | .isoYearMod100 | .month | .day | .weekFromSun
  | .weekFromMon | .isoWeek | .hour | .hour12 | .minute | .second => (some 2, false)
  | .numDaysFromSun | .weekdayFromMon => (some 1, false)
  | .ordinal => (some 3, false)
  | .nanosecond => (some 9, false)
  | .timestamp => (none, false)

/-- `str::trim_start`. -/
def trimStart (text : List Char) : List Char :=
  text.dropWhile isWhitespace

/-- `scan::number(s, 1, max)`: one to `max` ASCII digits, as an `i64`. -/
def scanNumber (text : List Char) (max : Option Nat) : Option (List Char × Int) :=
  let digits := (text.take (max.getD text.length)).takeWhile Char.isDigit
  if digits = [] then none
  else if digits.foldl accumulateDigit 0 < 2 ^ 63 then
    some (text.drop digits.length, (digits.foldl accumulateDigit 0 : Nat))
  else none

/-- The value of a numeric item: an explicit sign for the signed fields, then the digits. -/
def scanNumeric (kind : Numeric) (text : List Char) : Option (List Char × Int) :=
  match (numericSpec kind).2, text with
  | true, '-' :: rest => (scanNumber rest none).map fun (rest, value) => (rest, -value)
  | true, '+' :: rest => scanNumber rest none
  | _, _ => scanNumber text (numericSpec kind).1

/-- The loop of `chrono::format::parse` over the items; what is left of the input, and the
fields parsed. -/
def parseItems (extension : Extension) :
    List Item → List Char → Parsed extension.Other → Option (List Char × Parsed extension.Other)
  | [], text, parsed => some (text, parsed)
  | .literal expected :: items, text, parsed =>
    if expected <+: text then parseItems extension items (text.drop expected.length) parsed
    else none
  | .space _ :: items, text, parsed => parseItems extension items (trimStart text) parsed
  | .numeric kind _ :: items, text, parsed => do
    let (text, value) ← scanNumeric kind (trimStart text)
    let parsed ← parsed.setNumeric extension kind value
    parseItems extension items text parsed
  | .fixed kind :: items, text, parsed => do
    let (text, parsed) ← extension.parseFixed kind text parsed
    parseItems extension items text parsed
  | .error :: _, _, _ => none

/-- `chrono::format::parse`: every item matched, and nothing left over. -/
def parse (extension : Extension) (parsed : Parsed extension.Other) (text : List Char)
    (items : List Item) : Option (Parsed extension.Other) := do
  let (rest, parsed) ← parseItems extension items text parsed
  if rest = [] then some parsed else none

/-! ## Rendering -/

/-- A number as `write!` pads it: `{}`, `{:0w$}` or `{:w$}`, with the sign first; `explicitSign`
is the `+` flag. -/
def padNumber (value : Int) (width : Nat) (pad : Pad) (explicitSign : Bool) : List Char :=
  let sign := if value < 0 then ['-'] else if explicitSign then ['+'] else []
  let digits := Nat.toDigits 10 value.natAbs
  match pad with
  | .none => sign ++ digits
  | .zero => sign ++ List.replicate (width - (sign ++ digits).length) '0' ++ digits
  | .space => List.replicate (width - (sign ++ digits).length) ' ' ++ sign ++ digits

/-- The year, month and day of chrono's formatting of a numeric item: a year outside
`0..10_000` gets an explicit sign and one more column. -/
def renderDateNumeric (dateTime : DateTime) (kind : Numeric) (pad : Pad) : Option (List Char) :=
  match kind with
  | .year =>
    let year := dateTime.date.year
    if 0 ≤ year ∧ year < 10000 then some (padNumber year 4 pad false)
    else some (padNumber year 5 pad true)
  | .month => some (padNumber dateTime.date.month 2 pad false)
  | .day => some (padNumber dateTime.date.day 2 pad false)
  | _ => none

/-- `DateTime::format_with_items`, written out: `none` when an item is an `Item::Error`. -/
def renderItems (extension : Extension) (dateTime : DateTime) : List Item → Option (List Char)
  | [] => some []
  | item :: items => do
    let text ← match item with
      | .literal text | .space text => some text
      | .numeric kind pad =>
        some ((renderDateNumeric dateTime kind pad).getD (extension.render item dateTime))
      | .fixed _ => some (extension.render item dateTime)
      | .error => none
    pure (text ++ (← renderItems extension dateTime items))

end InfluxCore.Chrono
