import InfluxCore.Partition.TimeRange
import InfluxCore.Partition.KeyRoundTrip

/-! # What `build_column_values` yields for any key

Whatever the key, the pairs the decoder keeps come from the template's parts in order, one at
most per part, each of its part's kind (`ColumnOf`): a tag value's identity or prefix under the
tag's name, a non-empty range under `time`, a bucket id below the part's count under the tag's
name. For a template the validating constructors build, the tag and bucket columns then have
distinct names, none of them `time` (`buildColumnValues_columns`).

A tag value piece panics exactly when its percent-decoded bytes are not UTF-8
(`parsePartTagValue_error_iff`): a piece that ends with `#` decodes to bytes ending with that
ASCII byte, so cutting the last byte off always falls between two characters, and the slice
`&decoded[..len - 1]` never panics.
-/

namespace InfluxCore.DataTypes

open InfluxCore.Chrono InfluxCore.PercentEncoding

/-- The tag a part reads, if any. -/
def TemplatePart.tagName? : TemplatePart → Option String
  | .tagValue name => some name
  | .timeFormat _ => none
  | .bucket name _ => some name

/-- A decoded column and the template part it comes from. -/
inductive ColumnOf : TemplatePart → String × ColumnValue → Prop
  | identity (name value : String) : ColumnOf (.tagValue name) (name, .identity value)
  | prefixed (name value : String) : ColumnOf (.tagValue name) (name, .prefixed value)
  | datetime (format : String) {begin rangeEnd : DateTime}
      (ordered : begin.timestamp < rangeEnd.timestamp) :
      ColumnOf (.timeFormat format) (timeColumnName, .datetime begin rangeEnd)
  | bucket (name : String) {id numBuckets : UInt32} (below : id < numBuckets) :
      ColumnOf (.bucket name numBuckets) (name, .bucket id numBuckets)

/-! ## Slicing off the truncation marker -/

/-- Cutting the last byte off an encoding that ends with an ASCII byte drops the last
character. -/
theorem sliceTo_of_getLast {chars : List Char} {byte : Nat}
    (isLast : (Utf8.encode chars).getLast? = some byte) (ascii : byte < 0x80) :
    sliceTo chars ((Utf8.encode chars).length - 1) = some chars.dropLast := by
  rcases List.eq_nil_or_concat chars with rfl | ⟨front, c, rfl⟩
  · cases isLast
  rw [List.concat_eq_append, Utf8.encode_append] at isLast ⊢
  have single : Utf8.encode [c] = [byte] := by
    rw [Utf8.encode_cons, Utf8.encode_nil, List.append_nil] at isLast ⊢
    exact Utf8.encodeChar_of_getLast
      (by rwa [List.getLast?_append_of_ne_nil _ (Utf8.encodeChar_ne_nil c)] at isLast) ascii
  rw [single, List.length_append, List.length_singleton, Nat.add_sub_cancel,
    sliceTo_encode_append, List.dropLast_concat]

/-- A tag value piece panics exactly when its percent-decoded bytes are not UTF-8. -/
theorem parsePartTagValue_error_iff (value : List Char) (message : String) :
    parsePartTagValue value = .error message ↔
      message = "invalid partition key part encoding" ∧
        Utf8.decode (percentDecode (Utf8.encode value)) = none := by
  by_cases empty : value = [partitionKeyValueEmpty]
  · subst empty
    rw [parsePartTagValue_empty]
    have decoded : Utf8.decode (percentDecode (Utf8.encode [partitionKeyValueEmpty])) =
        some [partitionKeyValueEmpty] := by
      rw [show Utf8.encode [partitionKeyValueEmpty] = [partitionKeyValueEmpty.toNat] from rfl,
        percentDecode_of_ne (by decide), percentDecode.eq_3]
      exact Utf8.decode_encode [partitionKeyValueEmpty]
    rw [decoded]
    simp only [reduceCtorEq, and_false, iff_false]
  simp only [parsePartTagValue, if_neg empty]
  rcases decoded : Utf8.decode (percentDecode (Utf8.encode value)) with _ | chars
  · simp only [and_true]
    exact ⟨fun fails => by cases fails; rfl, fun named => by rw [named]; rfl⟩
  simp only [reduceCtorEq, and_false, iff_false]
  dsimp only [bind, Except.bind]
  split_ifs with truncated
  · have kept := List.dropLast_append_getLast? _ truncated
    have encoded := Utf8.encode_of_decode decoded
    rw [← kept, percentDecode_append_of_not_hex (by decide) (by decide)] at encoded
    rw [sliceTo_of_getLast (by rw [encoded, List.getLast?_concat]) (by decide)]
    nofun
  · nofun

/-! ## Each column comes from its part -/

theorem parsePartTagValue_eq_ok {value : List Char} {column : Option ColumnValue}
    (decodes : parsePartTagValue value = .ok column) :
    ∃ stem, column = some (.identity stem) ∨ column = some (.prefixed stem) := by
  simp only [parsePartTagValue] at decodes
  generalize (if value = [partitionKeyValueEmpty] then [] else value) = value at decodes
  split at decodes
  · dsimp only [bind, Except.bind] at decodes
    split_ifs at decodes
    · split at decodes
      · cases decodes
        exact ⟨_, .inr rfl⟩
      · cases decodes
    · cases decodes
      exact ⟨_, .inl rfl⟩
  · cases decodes

theorem parsePartBucket_eq_ok {value : List Char} {numBuckets : UInt32}
    {column : Option ColumnValue} (decodes : parsePartBucket value numBuckets = .ok column) :
    ∃ id, id < numBuckets ∧ column = some (.bucket id numBuckets) := by
  unfold parsePartBucket at decodes
  dsimp only at decodes
  split at decodes
  · dsimp only [bind, Except.bind] at decodes
    split_ifs at decodes with below
    cases decodes
    exact ⟨_, below, rfl⟩
  · cases decodes

/-- A time piece decodes to nothing or to a non-empty range. -/
theorem parsePartTimeFormat_eq_ok {extension : Extension} {value : List Char} {format : String}
    {column : Option ColumnValue} (decodes : parsePartTimeFormat extension value format = .ok column) :
    column = none ∨ ∃ begin rangeEnd, column = some (.datetime begin rangeEnd) ∧
      begin.timestamp < rangeEnd.timestamp := by
  rcases column with _ | column
  · exact .inl rfl
  obtain ⟨begin, rangeEnd, rfl⟩ : ∃ begin rangeEnd, column = .datetime begin rangeEnd := by
    simp only [parsePartTimeFormat] at decodes
    split at decodes
    · cases decodes
    · obtain ⟨rangeEnd, -, made⟩ := bind_eq_ok.mp decodes
      rcases rangeEnd with _ | _ | rangeEnd <;> cases made
      exact ⟨_, _, rfl⟩
  obtain ⟨-, ends⟩ := parsePartTimeFormat_eq_datetime.mp decodes
  obtain ⟨-, field, -, stepped⟩ := itemsEnd_eq_some (.inl ⟨rfl, rfl⟩) ends
  exact .inr ⟨begin, rangeEnd, rfl, DateField.timestamp_lt_step stepped⟩

theorem columnOf_of_columnValue {extension : Extension} {part : TemplatePart}
    {value : List Char} {column : String × ColumnValue}
    (decodes : columnValue extension part value = .ok (some column)) : ColumnOf part column := by
  unfold columnValue at decodes
  split_ifs at decodes
  · cases decodes
  cases part with
  | tagValue name =>
    obtain ⟨decoded, parsed, named⟩ := map_eq_ok.mp decodes
    obtain ⟨stem, rfl | rfl⟩ := parsePartTagValue_eq_ok parsed <;> cases named
    exacts [.identity name stem, .prefixed name stem]
  | timeFormat format =>
    obtain ⟨decoded, parsed, named⟩ := map_eq_ok.mp decodes
    obtain rfl | ⟨begin, rangeEnd, rfl, ordered⟩ := parsePartTimeFormat_eq_ok parsed <;>
      cases named
    exact .datetime format ordered
  | bucket name numBuckets =>
    obtain ⟨decoded, parsed, named⟩ := map_eq_ok.mp decodes
    obtain ⟨id, below, rfl⟩ := parsePartBucket_eq_ok parsed
    cases named
    exact .bucket name below

/-- The columns kept, one at most per pair and in order, each from its pair's part. -/
theorem columnValues_columnOf {extension : Extension} :
    ∀ {pairs : List (TemplatePart × List Char)} {columns : List (String × ColumnValue)},
      columnValues extension pairs = .ok columns →
      ∃ kept, List.Sublist kept (pairs.map Prod.fst) ∧ List.Forall₂ ColumnOf kept columns
  | [], _, decodes => by
    cases decodes
    exact ⟨[], .slnil, .nil⟩
  | (part, _) :: _, _, decodes => by
    obtain ⟨column, first, decodes⟩ := bind_eq_ok.mp decodes
    obtain ⟨_, rest, made⟩ := bind_eq_ok.mp decodes
    cases made
    obtain ⟨kept, sublist, related⟩ := columnValues_columnOf rest
    rcases column with _ | column
    · exact ⟨kept, sublist.cons part, related⟩
    · exact ⟨part :: kept, sublist.cons₂ part, .cons (columnOf_of_columnValue first) related⟩

theorem map_fst_zip_sublist {α β : Type} :
    ∀ (first : List α) (second : List β), List.Sublist ((first.zip second).map Prod.fst) first
  | [], _ => .slnil
  | _ :: _, [] => List.nil_sublist _
  | head :: first, _ :: second => (map_fst_zip_sublist first second).cons₂ head

/-! ## Column names -/

section Names

variable {kept : List TemplatePart} {columns : List (String × ColumnValue)}
  (related : List.Forall₂ ColumnOf kept columns)
  (notTime : ∀ part ∈ kept, ∀ name, part.tagName? = some name → name ≠ timeColumnName)
include related notTime

/-- Leaving out `time`, the columns are named by the tags of their parts. -/
theorem filter_names_of_forall₂ :
    (columns.map Prod.fst).filter (· ≠ timeColumnName) = kept.filterMap TemplatePart.tagName? := by
  induction related with
  | nil => rfl
  | @cons part column _ _ head _ inductionHypothesis =>
    rw [List.map_cons, List.filter_cons, List.filterMap_cons,
      inductionHypothesis fun part member => notTime part (.tail _ member)]
    cases head with
    | identity name | prefixed name | bucket name =>
      simp [TemplatePart.tagName?, notTime _ (.head _) name rfl]
    | datetime => simp [TemplatePart.tagName?]

/-- Only a time column is named `time`. -/
theorem datetime_of_time {column : String × ColumnValue} (member : column ∈ columns)
    (isTime : column.1 = timeColumnName) :
    ∃ begin rangeEnd, column.2 = .datetime begin rangeEnd := by
  induction related with
  | nil => cases member
  | @cons part first _ _ head _ inductionHypothesis =>
    rcases List.mem_cons.mp member with rfl | member
    · cases head with
      | identity name | prefixed name | bucket name =>
        exact (notTime _ (.head _) name rfl isTime).elim
      | datetime => exact ⟨_, _, rfl⟩
    · exact inductionHypothesis (fun part member => notTime part (.tail _ member)) member

end Names

theorem parts_filterMap_tagName (template : TablePartitionTemplateOverride) :
    template.parts.filterMap TemplatePart.tagName? = tagNames template.proto.parts := by
  rw [TablePartitionTemplateOverride.parts, List.filterMap_map, tagNames]
  congr 1
  funext part
  rcases part with _ | _ | ⟨_, _⟩ <;> rfl

/-- No tag a built template reads is named `time`. -/
theorem tagName_ne_time_of_built {template : TablePartitionTemplateOverride}
    (built : template.Built) :
    ∀ part ∈ template.parts, ∀ name, part.tagName? = some name → name ≠ timeColumnName := by
  intro part member name named isTime
  obtain ⟨proto, set, rfl⟩ := List.mem_map.mp member
  have valid := built.proto_valid.partsValid proto set
  have notInfix : ¬ tagValueKeyTime.toList <:+: name.toList := by
    rcases proto with value | format | ⟨tagName, numBuckets⟩ <;>
      simp only [TemplatePart.ofProto, TemplatePart.tagName?, Option.some.injEq,
        reduceCtorEq] at named
    · exact named ▸ valid.2
    · exact named ▸ valid.1.2
  exact notInfix (by rw [isTime]; exact List.infix_refl _)

/-- For every key, the columns decoded under a built template come from its parts in order, one
at most per part and each of its part's kind; the tag and bucket columns have distinct names,
and only a time column is named `time`. -/
theorem buildColumnValues_columns (extension : Extension)
    {template : TablePartitionTemplateOverride} (built : template.Built) {key : List Char}
    {columns : List (String × ColumnValue)}
    (decodes : buildColumnValues extension template key = .ok columns) :
    (∃ kept, List.Sublist kept template.parts ∧ List.Forall₂ ColumnOf kept columns) ∧
      ((columns.map Prod.fst).filter (· ≠ timeColumnName)).Nodup ∧
      ∀ column ∈ columns, column.1 = timeColumnName →
        ∃ begin rangeEnd, column.2 = .datetime begin rangeEnd := by
  obtain ⟨kept, sublist, related⟩ := columnValues_columnOf decodes
  have fromParts : List.Sublist kept template.parts := sublist.trans (map_fst_zip_sublist _ _)
  have notTime := fun part member => tagName_ne_time_of_built built part (fromParts.subset member)
  refine ⟨⟨kept, fromParts, related⟩, ?_, fun _ => datetime_of_time related notTime⟩
  rw [filter_names_of_forall₂ related notTime]
  exact (fromParts.filterMap _).nodup
    (parts_filterMap_tagName template ▸ built.proto_valid.namesDistinct)

/-- A missing tag, a day and a bucket. -/
theorem buildColumnValues_columns_of_day_and_bucket :
    TablePartitionTemplateOverride.Built ⟨some ⟨⟨[⟨some (.tagValue "region")⟩,
      ⟨some (.timeFormat "%Y-%m-%d")⟩, ⟨some (.bucket ⟨"host", 10⟩)⟩]⟩⟩⟩ ∧
    buildColumnValues .bare ⟨some ⟨⟨[⟨some (.tagValue "region")⟩,
        ⟨some (.timeFormat "%Y-%m-%d")⟩, ⟨some (.bucket ⟨"host", 10⟩)⟩]⟩⟩⟩
        "!|2023-01-15|7".toList =
      .ok [(timeColumnName, .datetime ⟨⟨2023, 1, 15, by decide⟩, .midnight⟩
        ⟨⟨2023, 1, 16, by decide⟩, .midnight⟩), ("host", .bucket 7 10)] ∧
    (∃ kept, List.Sublist kept (TablePartitionTemplateOverride.parts
        ⟨some ⟨⟨[⟨some (.tagValue "region")⟩, ⟨some (.timeFormat "%Y-%m-%d")⟩,
          ⟨some (.bucket ⟨"host", 10⟩)⟩]⟩⟩⟩) ∧
      List.Forall₂ ColumnOf kept [(timeColumnName, .datetime ⟨⟨2023, 1, 15, by decide⟩, .midnight⟩
        ⟨⟨2023, 1, 16, by decide⟩, .midnight⟩), ("host", .bucket 7 10)]) ∧
    (([(timeColumnName, ColumnValue.datetime ⟨⟨2023, 1, 15, by decide⟩, .midnight⟩
        ⟨⟨2023, 1, 16, by decide⟩, .midnight⟩), ("host", .bucket 7 10)].map Prod.fst).filter
        (· ≠ timeColumnName)).Nodup ∧
    ∀ column ∈ [(timeColumnName, ColumnValue.datetime ⟨⟨2023, 1, 15, by decide⟩, .midnight⟩
        ⟨⟨2023, 1, 16, by decide⟩, .midnight⟩), ("host", .bucket 7 10)],
      column.1 = timeColumnName → ∃ begin rangeEnd, column.2 = .datetime begin rangeEnd :=
  have built : TablePartitionTemplateOverride.Built ⟨some ⟨⟨[⟨some (.tagValue "region")⟩,
      ⟨some (.timeFormat "%Y-%m-%d")⟩, ⟨some (.bucket ⟨"host", 10⟩)⟩]⟩⟩⟩ :=
    @TablePartitionTemplateOverride.Built.tryFrom (some ⟨[⟨some (.tagValue "region")⟩,
      ⟨some (.timeFormat "%Y-%m-%d")⟩, ⟨some (.bucket ⟨"host", 10⟩)⟩]⟩) _ rfl
  have decodes : buildColumnValues .bare ⟨some ⟨⟨[⟨some (.tagValue "region")⟩,
        ⟨some (.timeFormat "%Y-%m-%d")⟩, ⟨some (.bucket ⟨"host", 10⟩)⟩]⟩⟩⟩
        "!|2023-01-15|7".toList =
      .ok [(timeColumnName, .datetime ⟨⟨2023, 1, 15, by decide⟩, .midnight⟩
        ⟨⟨2023, 1, 16, by decide⟩, .midnight⟩), ("host", .bucket 7 10)] := rfl
  ⟨built, decodes, buildColumnValues_columns .bare built decodes⟩

end InfluxCore.DataTypes
