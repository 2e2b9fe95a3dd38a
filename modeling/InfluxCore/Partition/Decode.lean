import InfluxCore.Partition.Template
import InfluxCore.Partition.Bucket
import InfluxCore.Encoding.Percent
import InfluxCore.Chrono.Parse

/-! # `build_column_values`: reversing a partition key

The key is split on `|` and paired with the template's parts, in order; a `!` piece is a column
the row did not have. A tag value piece is percent-decoded (after mapping `^` back to the empty
string) and must then be UTF-8, or the decoder panics; a piece that ended with `#` before
decoding was truncated, and loses its last byte. A bucket piece must parse as a `u32` below the
bucket count, or the decoder panics. A time piece is parsed with its strftime format, and
yields the range between `begin` and the end of the finest date field of the format; any
failure there drops the pair, but adding a year, a month or a day to `begin` panics when the
result leaves chrono's range.

Panics are `error`, with the message of the `expect`, `assert!` or `+` that panics. The
iterator is lazy; `buildColumnValues` returns what consuming all of it gives.
-/

namespace InfluxCore.DataTypes

open InfluxCore.Chrono InfluxCore.PercentEncoding

/-- `ColumnValue`; `prefixed` is `ColumnValue::Prefix`. -/
inductive ColumnValue
  | identity (value : String)
  | prefixed (value : String)
  | datetime (begin «end» : DateTime)
  | bucket (id numBuckets : UInt32)
  deriving DecidableEq

/-- `ColumnValue::is_prefix_match_of`: the value's bytes start the bytes given. -/
def ColumnValue.isPrefixMatchOf (column : ColumnValue) (other : List Nat) : Bool :=
  match column with
  | .identity value | .prefixed value => (Utf8.encode value.toList).isPrefixOf other
  | .datetime _ _ | .bucket _ _ => false

/-- `PartialEq<T> for ColumnValue`: only an identity equals a string. -/
def ColumnValue.eqStr (column : ColumnValue) (other : String) : Bool :=
  match column with
  | .identity value => other == value
  | .prefixed _ | .datetime _ _ | .bucket _ _ => false

/-- `PARTITION_KEY_DELIMITER`. -/
def partitionKeyDelimiter : Char := '|'

/-- `PARTITION_KEY_VALUE_EMPTY`. -/
def partitionKeyValueEmpty : Char := '^'

/-- `PARTITION_KEY_VALUE_NULL`. -/
def partitionKeyValueNull : Char := '!'

/-- `PARTITION_KEY_PART_TRUNCATED`. -/
def partitionKeyPartTruncated : Char := '#'

/-- `ENCODED_PARTITION_KEY_CHARS`. -/
def encodedPartitionKeyChars : AsciiSet :=
  (((((controls.add partitionKeyDelimiter.toNat).add partitionKeyValueNull.toNat).add
    partitionKeyValueEmpty.toNat).add partitionKeyPartTruncated.toNat).add '%'.toNat)

/-- `schema::TIME_COLUMN_NAME`. -/
def timeColumnName : String := "time"

/-- `&s[..index]`: the characters before byte `index`, when it falls between two of them. -/
def sliceTo : List Char → Nat → Option (List Char)
  | _, 0 => some []
  | [], _ + 1 => none
  | c :: rest, index + 1 =>
    if (Utf8.encodeChar c).length ≤ index + 1 then
      (sliceTo rest (index + 1 - (Utf8.encodeChar c).length)).map (c :: ·)
    else none

/-- `parse_part_tag_value`. -/
def parsePartTagValue (value : List Char) : Except String (Option ColumnValue) := do
  let value := if value = [partitionKeyValueEmpty] then [] else value
  let decoded ← match Utf8.decode (percentDecode (Utf8.encode value)) with
    | some decoded => .ok decoded
    | none => .error "invalid partition key part encoding"
  if (Utf8.encode value).getLast? = some partitionKeyPartTruncated.toNat then
    match sliceTo decoded ((Utf8.encode decoded).length - 1) with
    | some kept => .ok (some (.prefixed ⟨kept⟩))
    | none => .error "byte index is not a char boundary"
  else .ok (some (.identity ⟨decoded⟩))

/-- `parse_part_bucket`. -/
def parsePartBucket (value : List Char) (numBuckets : UInt32) :
    Except String (Option ColumnValue) := do
  let id ← match parseU32 value with
    | some id => .ok id
    | none => .error "invalid partition key bucket encoding"
  if id < numBuckets then .ok (some (.bucket id numBuckets))
  else .error "assertion failed: id < num_buckets"

section TimeFormat

variable (extension : Extension)

/-- `parsed_implicit_defaults`: a year is required; a missing month is January (unless a day
is given), a missing day the first (unless an hour is given), a missing hour midnight (unless
half of it, or a minute, is given), a missing minute zero (unless a second or nanosecond is
given). -/
def parsedImplicitDefaults (parsed : Fields) : Option Fields := do
  let _ ← parsed.year
  let parsed ←
    if parsed.month.isNone then (if parsed.day.isSome then none else parsed.setMonth 1)
    else some parsed
  let parsed ←
    if parsed.day.isNone then
      (if parsed.hourDiv12.isSome ∨ parsed.hourMod12.isSome then none else parsed.setDay 1)
    else some parsed
  let parsed ←
    if parsed.hourDiv12.isNone ∨ parsed.hourMod12.isNone then
      (if parsed.hourDiv12.isSome ∨ parsed.hourMod12.isSome ∨ parsed.minute.isSome then none
        else parsed.setHour 0)
    else some parsed
  if parsed.minute.isNone then
    (if parsed.second.isSome ∨ parsed.nanosecond.isSome then none else parsed.setMinute 0)
  else some parsed

/-- The range's end after one more item's end: the one nearer `begin`, the later on a tie. -/
def nearerEnd (begin : DateTime) : Option DateTime → DateTime → DateTime
  | some current, candidate => if current.sub begin < candidate.sub begin then current else candidate
  | none, candidate => candidate

/-- The `for item in items` loop of `parse_part_time_format`: a panic, the early `return None`
(`none`), or the end found after the last item. -/
def itemsEnd (begin : DateTime) :
    Option DateTime → List Item → Except String (Option (Option DateTime))
  | current, [] => .ok (some current)
  | current, .literal _ :: items | current, .space _ :: items => itemsEnd begin current items
  | current, .numeric .year _ :: items => do
    itemsEnd begin (some (nearerEnd begin current (← begin.addMonths 12))) items
  | current, .numeric .month _ :: items => do
    itemsEnd begin (some (nearerEnd begin current (← begin.addMonths 1))) items
  | current, .numeric .day _ :: items => do
    itemsEnd begin (some (nearerEnd begin current (← begin.addDays 1))) items
  | _, .numeric _ _ :: _ | _, .fixed _ :: _ | _, .error :: _ => .ok none

/-- The `begin` of a time piece: parsed, completed by the defaults, and resolved in UTC. -/
def timeBegin (value : List Char) (items : List Item) : Option DateTime := do
  let parsed ← parse extension (Parsed.new extension.none) value items
  let fields ← parsedImplicitDefaults parsed.fields
  Parsed.toDatetime extension { parsed with fields }

/-- `parse_part_time_format`. -/
def parsePartTimeFormat (value : List Char) (format : String) :
    Except String (Option ColumnValue) :=
  let items := StrftimeItems.new format
  match timeBegin extension value items with
  | none => .ok none
  | some begin => do
    let rangeEnd ← itemsEnd begin none items
    pure (rangeEnd.join.map (.datetime begin ·))

/-- One pair of the zip of template parts and key parts, through the `filter_map`. -/
def columnValue (part : TemplatePart) (value : List Char) :
    Except String (Option (String × ColumnValue)) :=
  if value = [partitionKeyValueNull] then .ok none
  else
    match part with
    | .tagValue colName => (parsePartTagValue value).map (Option.map (colName, ·))
    | .timeFormat format =>
      (parsePartTimeFormat extension value format).map (Option.map (timeColumnName, ·))
    | .bucket colName numBuckets => (parsePartBucket value numBuckets).map (Option.map (colName, ·))

/-- The pairs the `filter_map` keeps, in order, up to the first panic. -/
def columnValues : List (TemplatePart × List Char) → Except String (List (String × ColumnValue))
  | [] => .ok []
  | (part, value) :: rest => do
    let column ← columnValue extension part value
    let columns ← columnValues rest
    pure (column.toList ++ columns)

/-- `build_column_values`, consumed to the end. -/
def buildColumnValues (template : TablePartitionTemplateOverride) (partitionKey : List Char) :
    Except String (List (String × ColumnValue)) :=
  columnValues extension (template.parts.zip (partitionKey.splitOn partitionKeyDelimiter))

end TimeFormat

end InfluxCore.DataTypes
