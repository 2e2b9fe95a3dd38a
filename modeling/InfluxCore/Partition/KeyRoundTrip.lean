import InfluxCore.Partition.Decode

/-! # Decoding a key of tag values and buckets

A partition key is the template's pieces joined by `|`. For a tag value the piece is `!` when the
row lacks the column, `^` for an empty value, and otherwise the percent-encoding of the value's
bytes over `ENCODED_PARTITION_KEY_CHARS` (which holds `|`, `!`, `^`, `#` and `%`), or, when the
value was truncated, that of a prefix ending at a character boundary followed by `#`. For a
bucket the piece is `!`, or the decimal bucket id. `EncodedPart.piece` and `partitionKey` are
that description of the encoder, and `EncodedPart.column` the column each piece stands for.

`buildColumnValues_partitionKey`: for every template the validating constructors build whose
parts are tag values and buckets, decoding the key of any row gives back exactly its columns, in
template order, without panicking. No piece holds `|` (`delimiter_not_mem_piece`), so splitting
the key gives the pieces back, and each piece decodes to its column (`columnValue_piece`).
-/

namespace InfluxCore.DataTypes

open InfluxCore.Chrono InfluxCore.PercentEncoding

/-- ASCII bytes as the characters of a `str`. -/
def asciiText (bytes : List Nat) : List Char :=
  bytes.map Char.ofNat

/-- The percent-encoding of a text over `ENCODED_PARTITION_KEY_CHARS`, as characters. -/
def encodeKeyText (text : List Char) : List Char :=
  asciiText (percentEncode encodedPartitionKeyChars (Utf8.encode text))

/-- A template part the key encoder covers, with, for a tag value, the number of characters
kept when the value was truncated. -/
inductive EncodedPart
  | tagValue (name : String) (kept : Option Nat)
  | bucket (name : String) (numBuckets : UInt32)
  deriving DecidableEq, Repr

namespace EncodedPart

/-- The template part. -/
def templatePart : EncodedPart → TemplatePart
  | tagValue name _ => .tagValue name
  | bucket name numBuckets => .bucket name numBuckets

/-- Modelled from the spec: the piece of the key for a row. -/
def piece (row : String → Option String) : EncodedPart → Except String (List Char)
  | tagValue name kept =>
    match row name with
    | none => .ok [partitionKeyValueNull]
    | some value =>
      if value = "" then .ok [partitionKeyValueEmpty]
      else match kept with
        | none => .ok (encodeKeyText value.toList)
        | some kept => .ok (encodeKeyText (value.toList.take kept) ++ [partitionKeyPartTruncated])
  | bucket name numBuckets =>
    match row name with
    | none => .ok [partitionKeyValueNull]
    | some value => (bucketForTagValue value numBuckets).map fun id => Nat.toDigits 10 id.toNat

/-- The column a piece stands for: none for a missing column, the value or its kept prefix for
a tag, the bucket id for a bucket. -/
def column (row : String → Option String) :
    EncodedPart → Except String (Option (String × ColumnValue))
  | tagValue name kept =>
    match row name, kept with
    | none, _ => .ok none
    | some value, none => .ok (some (name, .identity value))
    | some value, some kept =>
      if value = "" then .ok (some (name, .identity value))
      else .ok (some (name, .prefixed ⟨value.toList.take kept⟩))
  | bucket name numBuckets =>
    match row name with
    | none => .ok none
    | some value =>
      (bucketForTagValue value numBuckets).map fun id => some (name, .bucket id numBuckets)

end EncodedPart

/-- Modelled from the spec: the partition key of a row, its pieces joined by `|`; the encoder is
not among the sources, and the module documentation of `partition_template.rs` describes it. -/
def partitionKey (row : String → Option String) (parts : List EncodedPart) :
    Except String (List Char) := do
  let pieces ← parts.mapM (EncodedPart.piece row)
  pure ([partitionKeyDelimiter].intercalate pieces)

/-- The columns of a row the key stands for, in template order. -/
def expectedColumns (row : String → Option String) (parts : List EncodedPart) :
    Except String (List (String × ColumnValue)) := do
  let columns ← parts.mapM (EncodedPart.column row)
  pure columns.reduceOption

/-! ## The percent-encoded text -/

theorem encode_encodeKeyText (text : List Char) :
    Utf8.encode (encodeKeyText text) = percentEncode encodedPartitionKeyChars (Utf8.encode text) :=
  Utf8.encode_map_ofNat fun _ member =>
    lt_of_mem_percentEncode (fun _ => Utf8.lt_of_mem_encode) member

/-- A character of the set other than `%` and the hexadecimal digits is never in an encoded
text. -/
theorem not_mem_encodeKeyText {c : Char} (encoded : encodedPartitionKeyChars.contains c.toNat)
    (notPercent : c.toNat ≠ 0x25) (notHex : ∀ nibble < 16, c.toNat ≠ hexUpper nibble)
    (text : List Char) : c ∉ encodeKeyText text := by
  simp only [encodeKeyText, asciiText, List.mem_map, not_exists, not_and]
  intro byte member named
  have := lt_of_mem_percentEncode (fun _ => Utf8.lt_of_mem_encode) member
  rw [← named, Utf8.toNat_ofNat_of_ascii this] at encoded notPercent notHex
  exact not_mem_percentEncode (fun _ => Utf8.lt_of_mem_encode) encoded notPercent notHex member

theorem delimiter_not_mem_encodeKeyText (text : List Char) :
    partitionKeyDelimiter ∉ encodeKeyText text :=
  not_mem_encodeKeyText (by decide) (by decide) (by decide) text

theorem null_not_mem_encodeKeyText (text : List Char) :
    partitionKeyValueNull ∉ encodeKeyText text :=
  not_mem_encodeKeyText (by decide) (by decide) (by decide) text

theorem empty_not_mem_encodeKeyText (text : List Char) :
    partitionKeyValueEmpty ∉ encodeKeyText text :=
  not_mem_encodeKeyText (by decide) (by decide) (by decide) text

/-- The encoding of a text never ends with the truncation marker. -/
theorem getLast_encodeKeyText (text : List Char) :
    (Utf8.encode (encodeKeyText text)).getLast? ≠ some partitionKeyPartTruncated.toNat := by
  rw [encode_encodeKeyText]
  intro isLast
  rcases getLast_percentEncode (fun _ => Utf8.lt_of_mem_encode) isLast with kept | ⟨nibble, lt, hex⟩
  · exact absurd kept (by decide)
  · revert hex; revert nibble; decide

/-- Percent-decoding then UTF-8 decoding undoes the encoding, whatever follows. -/
theorem decode_percentDecode_encodeKeyText_append (text : List Char) (rest : List Nat) :
    Utf8.decode (percentDecode (Utf8.encode (encodeKeyText text) ++ rest)) =
      (Utf8.decode (percentDecode rest)).map (text ++ ·) := by
  rw [encode_encodeKeyText, @percentDecode_percentEncode_append encodedPartitionKeyChars
    (by decide) _ _ (fun _ => Utf8.lt_of_mem_encode), Utf8.decode_encode_append]

/-- The characters before the byte that ends a prefix. -/
theorem sliceTo_encode_append (chars rest : List Char) :
    sliceTo (chars ++ rest) (Utf8.encode chars).length = some chars := by
  induction chars with
  | nil => simp [sliceTo]
  | cons c chars inductionHypothesis =>
    obtain ⟨byte, bytes, split⟩ := List.exists_cons_of_ne_nil (Utf8.encodeChar_ne_nil c)
    have length : (Utf8.encode (c :: chars)).length =
        bytes.length + (Utf8.encode chars).length + 1 := by
      simp only [Utf8.encode_cons, List.length_append, split, List.length_cons]; omega
    rw [List.cons_append, length, sliceTo, if_pos (by rw [split]; simp), split]
    simp [inductionHypothesis]

/-! ## Each piece decodes to its column -/

/-- An untruncated tag value's piece decodes to the value. -/
theorem parsePartTagValue_encodeKeyText (text : List Char) :
    parsePartTagValue (encodeKeyText text) = .ok (some (.identity ⟨text⟩)) := by
  have notEmpty : encodeKeyText text ≠ [partitionKeyValueEmpty] := fun isEmpty =>
    empty_not_mem_encodeKeyText text (by rw [isEmpty]; exact .head _)
  have decoded := decode_percentDecode_encodeKeyText_append text []
  simp only [List.append_nil, percentDecode, Utf8.decode_nil, Option.map_some'] at decoded
  simp only [parsePartTagValue, if_neg notEmpty, decoded, if_neg (getLast_encodeKeyText text)]
  rfl

/-- The empty value's piece decodes to the empty string. -/
theorem parsePartTagValue_empty :
    parsePartTagValue [partitionKeyValueEmpty] = .ok (some (.identity "")) := by
  simp [parsePartTagValue, percentDecode]
  rfl

/-- A truncated tag value's piece decodes to the prefix kept. -/
theorem parsePartTagValue_truncated (text : List Char) :
    parsePartTagValue (encodeKeyText text ++ [partitionKeyPartTruncated]) =
      .ok (some (.prefixed ⟨text⟩)) := by
  have marker : Utf8.encode [partitionKeyPartTruncated] = [partitionKeyPartTruncated.toNat] := rfl
  have notEmpty : encodeKeyText text ++ [partitionKeyPartTruncated] ≠ [partitionKeyValueEmpty] :=
    fun isEmpty => absurd (congrArg List.getLast? isEmpty) (by simp; decide)
  have decoded : Utf8.decode (percentDecode (Utf8.encode (encodeKeyText text) ++
      [partitionKeyPartTruncated.toNat])) = some (text ++ [partitionKeyPartTruncated]) := by
    have tail : percentDecode [partitionKeyPartTruncated.toNat] =
        Utf8.encode [partitionKeyPartTruncated] := by
      rw [percentDecode_of_ne (by decide)]; simp [percentDecode]; rfl
    rw [decode_percentDecode_encodeKeyText_append, tail, Utf8.decode_encode]
    rfl
  simp only [parsePartTagValue, if_neg notEmpty, Utf8.encode_append, marker, decoded,
    List.getLast?_concat, if_true]
  dsimp only [bind, Except.bind]
  rw [Utf8.encode_append, List.length_append, marker, List.length_singleton,
    Nat.add_sub_cancel, sliceTo_encode_append]

section Pieces

variable (extension : Extension) (row : String → Option String)

/-- Each part's piece and column exist, the piece holds no `|`, and it decodes to the column;
a bucket needs a positive count. -/
theorem columnValue_piece (part : EncodedPart)
    (positive : ∀ name numBuckets, part = .bucket name numBuckets → 0 < numBuckets) :
    ∃ piece column, part.piece row = .ok piece ∧ part.column row = .ok column ∧
      columnValue extension part.templatePart piece = .ok column ∧
      partitionKeyDelimiter ∉ piece := by
  cases part with
  | tagValue name kept =>
    rcases present : row name with _ | value
    · exact ⟨_, _, by simp [EncodedPart.piece, present], by simp [EncodedPart.column, present],
        if_pos rfl, by decide⟩
    by_cases empty : value = ""
    · subst empty
      have decodes : columnValue extension (.tagValue name) [partitionKeyValueEmpty] =
          .ok (some (name, .identity "")) := by
        simp only [columnValue, if_neg (show [partitionKeyValueEmpty] ≠ [partitionKeyValueNull]
          by decide), parsePartTagValue_empty]
        rfl
      refine ⟨[partitionKeyValueEmpty], some (name, .identity ""), by simp [EncodedPart.piece,
        present], ?_, decodes, by decide⟩
      cases kept <;> simp [EncodedPart.column, present]
    cases kept with
    | none =>
      refine ⟨encodeKeyText value.toList, some (name, .identity value),
        by simp [EncodedPart.piece, present, empty], by simp [EncodedPart.column, present],
        ?_, delimiter_not_mem_encodeKeyText _⟩
      have notNull : encodeKeyText value.toList ≠ [partitionKeyValueNull] := fun isNull =>
        null_not_mem_encodeKeyText _ (by rw [isNull]; exact .head _)
      simp only [columnValue, if_neg notNull, EncodedPart.templatePart,
        parsePartTagValue_encodeKeyText]
      rfl
    | some kept =>
      have notNull : encodeKeyText (value.toList.take kept) ++ [partitionKeyPartTruncated] ≠
          [partitionKeyValueNull] := fun isNull =>
        absurd (congrArg List.getLast? isNull) (by simp; decide)
      refine ⟨encodeKeyText (value.toList.take kept) ++ [partitionKeyPartTruncated],
        some (name, .prefixed ⟨value.toList.take kept⟩),
        by simp [EncodedPart.piece, present, empty], by simp [EncodedPart.column, present, empty],
        ?_, ?_⟩
      · simp only [columnValue, if_neg notNull, EncodedPart.templatePart,
          parsePartTagValue_truncated]
        rfl
      · simpa using ⟨delimiter_not_mem_encodeKeyText _, by decide⟩
  | bucket name numBuckets =>
    rcases present : row name with _ | value
    · exact ⟨_, _, by simp [EncodedPart.piece, present], by simp [EncodedPart.column, present],
        if_pos rfl, by decide⟩
    obtain ⟨id, hashed, lt⟩ := bucketForTagValue_lt value (positive name numBuckets rfl)
    obtain ⟨-, digits, -⟩ := Decimal.toDigits_spec id.toNat
    have notDigit : ∀ c, ¬ c.isDigit → c ∉ Nat.toDigits 10 id.toNat := fun c notDigit member =>
      notDigit (digits c member)
    have notNull : Nat.toDigits 10 id.toNat ≠ [partitionKeyValueNull] := fun isNull =>
      notDigit partitionKeyValueNull (by decide) (by rw [isNull]; exact .head _)
    refine ⟨Nat.toDigits 10 id.toNat, some (name, .bucket id numBuckets),
      by simp only [EncodedPart.piece, present, hashed]; rfl,
      by simp only [EncodedPart.column, present, hashed]; rfl, ?_, notDigit _ (by decide)⟩
    simp only [columnValue, if_neg notNull, EncodedPart.templatePart, parsePartBucket,
      parseU32_toDigits]
    dsimp only [bind, Except.bind]
    rw [if_pos lt]
    rfl

/-- The pieces of every part, zipped with the template parts, decode to the columns kept; no
piece holds `|`. -/
theorem columnValues_pieces {parts : List EncodedPart}
    (positive : ∀ name numBuckets, .bucket name numBuckets ∈ parts → 0 < numBuckets) :
    ∃ pieces columns, parts.mapM (EncodedPart.piece row) = .ok pieces ∧
      parts.mapM (EncodedPart.column row) = .ok columns ∧
      columnValues extension ((parts.map EncodedPart.templatePart).zip pieces) =
        .ok columns.reduceOption ∧
      (∀ piece ∈ pieces, partitionKeyDelimiter ∉ piece) ∧ pieces.length = parts.length := by
  induction parts with
  | nil => exact ⟨[], [], rfl, rfl, rfl, by simp, rfl⟩
  | cons part parts inductionHypothesis =>
    obtain ⟨piece, column, pieceIs, columnIs, decodes, noDelimiter⟩ :=
      columnValue_piece extension row part fun name numBuckets isBucket =>
        positive name numBuckets (isBucket ▸ .head _)
    obtain ⟨pieces, columns, piecesAre, columnsAre, decode, noDelimiters, length⟩ :=
      inductionHypothesis fun name numBuckets member => positive name numBuckets (.tail _ member)
    refine ⟨piece :: pieces, column :: columns, by rw [List.mapM_cons, pieceIs, piecesAre]; rfl,
      by rw [List.mapM_cons, columnIs, columnsAre]; rfl, ?_, by simpa using ⟨noDelimiter, noDelimiters⟩,
      by simp [length]⟩
    rw [List.map_cons, List.zip_cons_cons, columnValues, decodes, decode]
    cases column <;> rfl

end Pieces

/-- The prefix a truncated piece keeps starts the value's bytes. -/
theorem isPrefixMatchOf_take (value : String) (kept : Nat) :
    (ColumnValue.prefixed ⟨value.toList.take kept⟩).isPrefixMatchOf (Utf8.encode value.toList) := by
  have whole : Utf8.encode value.toList =
      Utf8.encode (value.toList.take kept) ++ Utf8.encode (value.toList.drop kept) := by
    rw [← Utf8.encode_append, List.take_append_drop]
  rw [ColumnValue.isPrefixMatchOf, whole, List.isPrefixOf_iff_prefix]
  exact List.prefix_append _ _

/-- A prefix column starts the bytes of the row's value. -/
theorem isPrefixMatchOf_of_column (row : String → Option String) {part : EncodedPart}
    {name stem : String} (built : part.column row = .ok (some (name, .prefixed stem))) :
    ∃ value, row name = some value ∧
      (ColumnValue.prefixed stem).isPrefixMatchOf (Utf8.encode value.toList) := by
  cases part with
  | tagValue tag kept =>
    rcases present : row tag with _ | value <;> rcases kept with _ | kept <;>
      simp only [EncodedPart.column, present] at built
    · cases built
    · cases built
    · cases built
    · split_ifs at built
      · cases built
      · cases built
        exact ⟨value, present, isPrefixMatchOf_take value kept⟩
  | bucket tag numBuckets =>
    rcases present : row tag with _ | value <;> simp only [EncodedPart.column, present] at built
    · cases built
    · obtain ⟨id, -, isBucket⟩ := map_eq_ok.mp built
      cases isBucket

/-- Every result of a successful `mapM` comes from an element. -/
theorem exists_of_mapM_eq_ok {α β ε : Type} {f : α → Except ε β} {as : List α} {bs : List β}
    (mapped : as.mapM f = .ok bs) : ∀ b ∈ bs, ∃ a ∈ as, f a = .ok b := by
  induction as generalizing bs with
  | nil =>
    rw [List.mapM_nil] at mapped
    cases mapped
    simp
  | cons a as inductionHypothesis =>
    rw [List.mapM_cons] at mapped
    obtain ⟨b, first, mapped⟩ := bind_eq_ok.mp mapped
    obtain ⟨rest, restMapped, isCons⟩ := bind_eq_ok.mp mapped
    cases isCons
    intro c member
    rcases List.mem_cons.mp member with rfl | member
    · exact ⟨a, .head _, first⟩
    · obtain ⟨source, mem, mapsTo⟩ := inductionHypothesis restMapped c member
      exact ⟨source, .tail _ mem, mapsTo⟩

/-- Every count a built template gives a bucket is positive. -/
theorem numBuckets_pos_of_built {template : TablePartitionTemplateOverride} (built : template.Built)
    {name : String} {numBuckets : UInt32} (member : .bucket name numBuckets ∈ template.parts) :
    0 < numBuckets := by
  obtain ⟨part, set, named⟩ := List.mem_map.mp member
  have valid := built.proto_valid.partsValid part set
  rcases part with _ | _ | ⟨tagName, count⟩ <;> cases named
  have counted := valid.2
  simp only [allowedBucketQuantities, Range.contains, Bool.and_eq_true, decide_eq_true_eq]
    at counted
  by_contra notPositive
  exact absurd (UInt32.le_trans counted.1 (UInt32.not_lt.mp notPositive)) (by decide)

/-- Decoding the key of any row under a built template of tag values and buckets gives back the
row's columns, in template order; a prefix column starts the value it was cut from. -/
theorem buildColumnValues_partitionKey (extension : Extension)
    {template : TablePartitionTemplateOverride} (built : template.Built)
    {parts : List EncodedPart} (covers : parts.map EncodedPart.templatePart = template.parts)
    (row : String → Option String) :
    ∃ key columns, partitionKey row parts = .ok key ∧ expectedColumns row parts = .ok columns ∧
      buildColumnValues extension template key = .ok columns ∧
      ∀ name stem, (name, ColumnValue.prefixed stem) ∈ columns → ∃ value, row name = some value ∧
        (ColumnValue.prefixed stem).isPrefixMatchOf (Utf8.encode value.toList) := by
  obtain ⟨pieces, columns, piecesAre, columnsAre, decodes, noDelimiters, length⟩ :=
    columnValues_pieces extension row fun name numBuckets member =>
      numBuckets_pos_of_built built (covers ▸ List.mem_map_of_mem EncodedPart.templatePart member)
  refine ⟨[partitionKeyDelimiter].intercalate pieces, columns.reduceOption,
    by rw [partitionKey, piecesAre]; rfl, by rw [expectedColumns, columnsAre]; rfl, ?_, ?_⟩
  · rw [buildColumnValues, ← covers]
    rcases pieces with _ | ⟨piece, pieces⟩
    · obtain rfl : parts = [] := List.length_eq_zero.mp length.symm
      rw [List.mapM_nil] at columnsAre
      cases columnsAre
      rfl
    · rw [List.splitOn_intercalate _ _ noDelimiters (List.cons_ne_nil _ _), decodes]
  · intro name stem member
    obtain ⟨part, -, built⟩ := exists_of_mapM_eq_ok columnsAre _ (List.reduceOption_mem_iff.mp member)
    exact isPrefixMatchOf_of_column row built

/-- A tag value holding `|`, cut to three characters, and a bucket. -/
theorem buildColumnValues_partitionKey_of_region_and_host :
    TablePartitionTemplateOverride.Built
      ⟨some ⟨⟨[⟨some (.tagValue "region")⟩, ⟨some (.bucket ⟨"host", 10⟩)⟩]⟩⟩⟩ ∧
    [EncodedPart.tagValue "region" (some 3), .bucket "host" 10].map EncodedPart.templatePart =
      TablePartitionTemplateOverride.parts
        ⟨some ⟨⟨[⟨some (.tagValue "region")⟩, ⟨some (.bucket ⟨"host", 10⟩)⟩]⟩⟩⟩ ∧
    let row := fun name => if name = "region" then some "us|west" else
      if name = "host" then some "h1" else none
    ∃ key columns,
      partitionKey row [.tagValue "region" (some 3), .bucket "host" 10] = .ok key ∧
      expectedColumns row [.tagValue "region" (some 3), .bucket "host" 10] = .ok columns ∧
      buildColumnValues .bare
        ⟨some ⟨⟨[⟨some (.tagValue "region")⟩, ⟨some (.bucket ⟨"host", 10⟩)⟩]⟩⟩⟩ key = .ok columns ∧
      ∀ name stem, (name, ColumnValue.prefixed stem) ∈ columns → ∃ value, row name = some value ∧
        (ColumnValue.prefixed stem).isPrefixMatchOf (Utf8.encode value.toList) :=
  have built : TablePartitionTemplateOverride.Built
      ⟨some ⟨⟨[⟨some (.tagValue "region")⟩, ⟨some (.bucket ⟨"host", 10⟩)⟩]⟩⟩⟩ :=
    @TablePartitionTemplateOverride.Built.tryFrom
      (some ⟨[⟨some (.tagValue "region")⟩, ⟨some (.bucket ⟨"host", 10⟩)⟩]⟩) _ rfl
  have covers : [EncodedPart.tagValue "region" (some 3), .bucket "host" 10].map
      EncodedPart.templatePart = TablePartitionTemplateOverride.parts
        ⟨some ⟨⟨[⟨some (.tagValue "region")⟩, ⟨some (.bucket ⟨"host", 10⟩)⟩]⟩⟩⟩ := rfl
  ⟨built, covers, buildColumnValues_partitionKey .bare built covers _⟩

end InfluxCore.DataTypes
