import InfluxCore.Chrono.Strftime

/-! # Partition templates: validation, overrides and their parts

`Wrapper::try_from` is the one gate a protobuf `PartitionTemplate` passes on its way into a
namespace or table override: it counts the template's parts (one to eight), and checks each
part that is set (time formats through chrono, tag names for emptiness, the reserved `time`
column and repeats, bucket counts against `1..100_000`). `validateParts_eq_ok_iff` and
`Wrapper.tryFrom_eq_ok_iff` say exactly what it accepts, as `PartitionTemplate.Valid`.

A protobuf `TemplatePart` whose `part` oneof is unset passes the loop untouched (`None => {}`)
and counts toward the one-to-eight bound, but `TablePartitionTemplateOverride::parts` skips it.
So the number of parts an override yields is at most eight (`len_le_maximum`), and at least one
only when every proto part is set.
-/

namespace InfluxCore.DataTypes

open InfluxCore.Chrono

namespace Proto

/-- `proto::Bucket`. -/
structure Bucket where
  tagName : String
  numBuckets : UInt32
  deriving DecidableEq, Repr

/-- `proto::template_part::Part`. -/
inductive Part
  | tagValue (value : String)
  | timeFormat (format : String)
  | bucket (bucket : Bucket)
  deriving DecidableEq, Repr

/-- `proto::TemplatePart`, whose `part` oneof may be unset. -/
structure TemplatePart where
  part : Option Part
  deriving DecidableEq, Repr

/-- `proto::PartitionTemplate`. -/
structure PartitionTemplate where
  parts : List TemplatePart
  deriving DecidableEq, Repr

end Proto

/-- `ValidationError`, with the payload each variant carries. -/
inductive ValidationError
  | noParts
  | tooManyParts (specified : Nat)
  | invalidStrftime (message : String)
  | invalidTagValue (message : String)
  | invalidNumberOfBuckets (count : UInt32)
  | repeatedTagValue (name : String)
  deriving DecidableEq, Repr

/-- `MAXIMUM_NUMBER_OF_TEMPLATE_PARTS`. -/
def maximumNumberOfTemplateParts : Nat := 8

/-- `TAG_VALUE_KEY_TIME`. -/
def tagValueKeyTime : String := "time"

/-- `std::ops::Range<u32>`. -/
structure Range where
  start : UInt32
  stop : UInt32

/-- `Range::contains`. -/
def Range.contains (range : Range) (value : UInt32) : Bool :=
  range.start ≤ value && value < range.stop

/-- `ALLOWED_BUCKET_QUANTITIES`. -/
def allowedBucketQuantities : Range := ⟨1, 100000⟩

/-- The checks of a `TimeFormat` part. Rendering the current time through the format's items
fails exactly when one of them is an `Item::Error`. -/
def checkTimeFormat (fmt : String) : Except ValidationError Unit :=
  if fmt.isEmpty then .error (.invalidStrftime fmt)
  else if "%#z".toList <:+: fmt.toList then .error (.invalidStrftime "%#z cannot be used")
  else if Item.error ∈ StrftimeItems.new fmt then .error (.invalidStrftime fmt)
  else .ok ()

/-- The checks of the tag name of a `TagValue` or `Bucket` part, given the names seen so far;
the names seen after it (`seen_tags.insert`). -/
def checkTagName (seenTags : List String) (name : String) :
    Except ValidationError (List String) :=
  if name.isEmpty then .error (.invalidTagValue name)
  else if tagValueKeyTime.toList <:+: name.toList then
    .error (.invalidTagValue (tagValueKeyTime ++ " cannot be used"))
  else if name ∈ seenTags then .error (.repeatedTagValue name)
  else .ok (name :: seenTags)

/-- The `for part in &partition_template.parts` loop of `Wrapper::try_from`. -/
def validateParts (seenTags : List String) : List Proto.TemplatePart → Except ValidationError Unit
  | [] => .ok ()
  | part :: rest =>
    match part.part with
    | some (.timeFormat fmt) => do
      checkTimeFormat fmt
      validateParts seenTags rest
    | some (.tagValue value) => do
      let seenTags ← checkTagName seenTags value
      validateParts seenTags rest
    | some (.bucket ⟨tagName, numBuckets⟩) => do
      let seenTags ← checkTagName seenTags tagName
      if allowedBucketQuantities.contains numBuckets then validateParts seenTags rest
      else .error (.invalidNumberOfBuckets numBuckets)
    | none => validateParts seenTags rest

/-- `serialization::Wrapper`. -/
structure Wrapper where
  inner : Proto.PartitionTemplate
  deriving DecidableEq, Repr

/-- `Wrapper::try_from`. -/
def Wrapper.tryFrom (template : Proto.PartitionTemplate) : Except ValidationError Wrapper :=
  if template.parts.isEmpty then .error .noParts
  else if template.parts.length > maximumNumberOfTemplateParts then
    .error (.tooManyParts template.parts.length)
  else do
    validateParts [] template.parts
    pure ⟨template⟩

/-! ## What validation accepts -/

theorem bind_eq_ok {ε α β : Type} {x : Except ε α} {f : α → Except ε β} {result : β} :
    x >>= f = .ok result ↔ ∃ value, x = .ok value ∧ f value = .ok result := by
  cases x <;> simp [bind, Except.bind]

theorem bind_eq_error {ε α β : Type} {x : Except ε α} {f : α → Except ε β} {error : ε} :
    x >>= f = .error error ↔ x = .error error ∨ ∃ value, x = .ok value ∧ f value = .error error := by
  cases x <;> simp [bind, Except.bind]

theorem map_eq_ok {ε α β : Type} {x : Except ε α} {f : α → β} {result : β} :
    x.map f = .ok result ↔ ∃ value, x = .ok value ∧ f value = result := by
  cases x <;> simp [Except.map]

/-- A tag name `Wrapper::try_from` accepts on its own: not empty, and not containing `time`. -/
def TagNameValid (name : String) : Prop :=
  name ≠ "" ∧ ¬ tagValueKeyTime.toList <:+: name.toList

/-- A time format `Wrapper::try_from` accepts. -/
def TimeFormatValid (fmt : String) : Prop :=
  fmt ≠ "" ∧ ¬ "%#z".toList <:+: fmt.toList ∧ Item.error ∉ StrftimeItems.new fmt

/-- What `Wrapper::try_from` requires of one part on its own. -/
def Proto.Part.Valid : Proto.Part → Prop
  | .timeFormat fmt => TimeFormatValid fmt
  | .tagValue value => TagNameValid value
  | .bucket ⟨tagName, numBuckets⟩ =>
    TagNameValid tagName ∧ allowedBucketQuantities.contains numBuckets

/-- The tag name a part names, if any. -/
def Proto.Part.tagName? : Proto.Part → Option String
  | .tagValue value => some value
  | .timeFormat _ => none
  | .bucket ⟨tagName, _⟩ => some tagName

/-- The parts whose oneof is set. -/
def setParts (parts : List Proto.TemplatePart) : List Proto.Part :=
  parts.filterMap Proto.TemplatePart.part

/-- The tag names of the parts, in order. -/
def tagNames (parts : List Proto.TemplatePart) : List String :=
  (setParts parts).filterMap Proto.Part.tagName?

@[simp] theorem setParts_nil : setParts [] = [] := rfl

@[simp] theorem setParts_cons_some (part : Proto.Part) (rest : List Proto.TemplatePart) :
    setParts (⟨some part⟩ :: rest) = part :: setParts rest := rfl

@[simp] theorem setParts_cons_none (rest : List Proto.TemplatePart) :
    setParts (⟨none⟩ :: rest) = setParts rest := rfl

@[simp] theorem tagNames_nil : tagNames [] = [] := rfl

@[simp] theorem tagNames_cons_tagValue (value : String) (rest : List Proto.TemplatePart) :
    tagNames (⟨some (.tagValue value)⟩ :: rest) = value :: tagNames rest := rfl

@[simp] theorem tagNames_cons_timeFormat (fmt : String) (rest : List Proto.TemplatePart) :
    tagNames (⟨some (.timeFormat fmt)⟩ :: rest) = tagNames rest := rfl

@[simp] theorem tagNames_cons_bucket (tagName : String) (numBuckets : UInt32)
    (rest : List Proto.TemplatePart) :
    tagNames (⟨some (.bucket ⟨tagName, numBuckets⟩)⟩ :: rest) = tagName :: tagNames rest := rfl

@[simp] theorem tagNames_cons_none (rest : List Proto.TemplatePart) :
    tagNames (⟨none⟩ :: rest) = tagNames rest := rfl

@[simp] theorem Proto.Part.valid_tagValue (value : String) :
    (Proto.Part.tagValue value).Valid ↔ TagNameValid value := Iff.rfl

@[simp] theorem Proto.Part.valid_timeFormat (fmt : String) :
    (Proto.Part.timeFormat fmt).Valid ↔ TimeFormatValid fmt := Iff.rfl

@[simp] theorem Proto.Part.valid_bucket (tagName : String) (numBuckets : UInt32) :
    (Proto.Part.bucket ⟨tagName, numBuckets⟩).Valid ↔
      TagNameValid tagName ∧ allowedBucketQuantities.contains numBuckets := Iff.rfl

/-- A protobuf template `Wrapper::try_from` accepts: one to eight parts, each set part valid on
its own, and no tag name used twice. -/
structure Proto.PartitionTemplate.Valid (template : Proto.PartitionTemplate) : Prop where
  nonempty : template.parts ≠ []
  atMostMaximum : template.parts.length ≤ maximumNumberOfTemplateParts
  partsValid : ∀ part ∈ setParts template.parts, part.Valid
  namesDistinct : (tagNames template.parts).Nodup

theorem checkTimeFormat_eq_ok_iff (fmt : String) (u : Unit) :
    checkTimeFormat fmt = .ok u ↔ TimeFormatValid fmt := by
  unfold checkTimeFormat TimeFormatValid
  split_ifs with empty reserved erroneous <;> simp_all [String.isEmpty_iff]

theorem checkTagName_eq_ok_iff (seenTags : List String) (name : String) (seen : List String) :
    checkTagName seenTags name = .ok seen ↔
      seen = name :: seenTags ∧ TagNameValid name ∧ name ∉ seenTags := by
  unfold checkTagName TagNameValid
  split_ifs with empty reserved repeated <;> simp_all [String.isEmpty_iff, @eq_comm _ seen]

/-- The loop accepts exactly the parts that are each valid and whose tag names are distinct and
not among those already seen. -/
theorem validateParts_eq_ok_iff (seenTags : List String) (parts : List Proto.TemplatePart) :
    validateParts seenTags parts = .ok () ↔
      (∀ part ∈ setParts parts, part.Valid) ∧ (tagNames parts).Nodup ∧
        ∀ name ∈ tagNames parts, name ∉ seenTags := by
  induction parts generalizing seenTags with
  | nil => simp [validateParts, setParts, tagNames]
  | cons part rest inductionHypothesis =>
    rcases part with ⟨_ | (value | fmt | ⟨tagName, numBuckets⟩)⟩
    · simpa [validateParts] using inductionHypothesis seenTags
    · simp only [validateParts, bind_eq_ok, checkTagName_eq_ok_iff, inductionHypothesis]
      simp [and_assoc, List.forall_mem_ne', forall_and]
      tauto
    · simp [validateParts, bind_eq_ok, checkTimeFormat_eq_ok_iff, inductionHypothesis, and_assoc]
    · simp only [validateParts, bind_eq_ok, checkTagName_eq_ok_iff]
      by_cases allowed : allowedBucketQuantities.contains numBuckets
      · simp [allowed, inductionHypothesis, and_assoc, List.forall_mem_ne', forall_and]
        tauto
      · simp [allowed]

/-- `Wrapper::try_from` accepts exactly the valid templates, and wraps them unchanged. -/
theorem Wrapper.tryFrom_eq_ok_iff (template : Proto.PartitionTemplate) (wrapper : Wrapper) :
    Wrapper.tryFrom template = .ok wrapper ↔ template.Valid ∧ wrapper = ⟨template⟩ := by
  unfold Wrapper.tryFrom
  split_ifs with empty tooMany
  · exact iff_of_false (by simp) fun ⟨valid, _⟩ => valid.nonempty (List.isEmpty_iff.mp empty)
  · exact iff_of_false (by simp) fun ⟨valid, _⟩ => by have := valid.atMostMaximum; omega
  · simp only [bind_eq_ok, pure, Except.pure, Except.ok.injEq]
    constructor
    · rintro ⟨⟨⟩, accepted, rfl⟩
      obtain ⟨partsValid, namesDistinct, -⟩ := (validateParts_eq_ok_iff _ _).mp accepted
      exact ⟨⟨by simpa using empty, by omega, partsValid, namesDistinct⟩, rfl⟩
    · rintro ⟨valid, rfl⟩
      exact ⟨(), (validateParts_eq_ok_iff _ _).mpr ⟨valid.partsValid, valid.namesDistinct, by simp⟩,
        rfl⟩

/-! ## Overrides and their parts -/

/-- `NamespacePartitionTemplateOverride`. -/
structure NamespacePartitionTemplateOverride where
  wrapper : Option Wrapper
  deriving DecidableEq, Repr

/-- `TryFrom<proto::PartitionTemplate> for NamespacePartitionTemplateOverride`. -/
def NamespacePartitionTemplateOverride.tryFrom (template : Proto.PartitionTemplate) :
    Except ValidationError NamespacePartitionTemplateOverride :=
  (Wrapper.tryFrom template).map fun wrapper => ⟨some wrapper⟩

/-- `TablePartitionTemplateOverride`. -/
structure TablePartitionTemplateOverride where
  wrapper : Option Wrapper
  deriving DecidableEq, Repr

namespace TablePartitionTemplateOverride

/-- `TablePartitionTemplateOverride::try_new`: the table's own template if given, else the
namespace's. -/
def tryNew (customTableTemplate : Option Proto.PartitionTemplate)
    (namespaceTemplate : NamespacePartitionTemplateOverride) :
    Except ValidationError TablePartitionTemplateOverride :=
  match customTableTemplate, namespaceTemplate.wrapper with
  | some tableProto, _ => (Wrapper.tryFrom tableProto).map fun wrapper => ⟨some wrapper⟩
  | none, some namespaceWrapper => .ok ⟨some namespaceWrapper⟩
  | none, none => .ok ⟨none⟩

/-- `TryFrom<Option<proto::PartitionTemplate>> for TablePartitionTemplateOverride`. -/
def tryFrom (template : Option Proto.PartitionTemplate) :
    Except ValidationError TablePartitionTemplateOverride :=
  match template with
  | none => .ok ⟨none⟩
  | some template => (Wrapper.tryFrom template).map fun wrapper => ⟨some wrapper⟩

end TablePartitionTemplateOverride

/-- `PARTITION_BY_DAY_PROTO`. -/
def partitionByDayProto : Proto.PartitionTemplate :=
  ⟨[⟨some (.timeFormat "%Y-%m-%d")⟩]⟩

/-- `TemplatePart`. -/
inductive TemplatePart
  | tagValue (name : String)
  | timeFormat (format : String)
  | bucket (name : String) (numBuckets : UInt32)
  deriving DecidableEq, Repr

/-- The `TemplatePart` a set protobuf part is lent out as. -/
def TemplatePart.ofProto : Proto.Part → TemplatePart
  | .tagValue value => .tagValue value
  | .timeFormat fmt => .timeFormat fmt
  | .bucket ⟨tagName, numBuckets⟩ => .bucket tagName numBuckets

namespace TablePartitionTemplateOverride

/-- The protobuf template an override stands for: its own, or `PARTITION_BY_DAY_PROTO`. -/
def proto (template : TablePartitionTemplateOverride) : Proto.PartitionTemplate :=
  (template.wrapper.map Wrapper.inner).getD partitionByDayProto

/-- `TablePartitionTemplateOverride::parts`: the set parts, in order. -/
def parts (template : TablePartitionTemplateOverride) : List TemplatePart :=
  (setParts template.proto.parts).map TemplatePart.ofProto

/-- `TablePartitionTemplateOverride::len`. -/
def len (template : TablePartitionTemplateOverride) : Nat :=
  template.parts.length

end TablePartitionTemplateOverride

/-- The namespace overrides the code builds: `Default`, and what `try_from` returns. -/
inductive NamespacePartitionTemplateOverride.Built : NamespacePartitionTemplateOverride → Prop
  | default : Built ⟨none⟩
  | tryFrom {template : Proto.PartitionTemplate} {override : NamespacePartitionTemplateOverride} :
      NamespacePartitionTemplateOverride.tryFrom template = .ok override → Built override

/-- The table overrides the code builds: `Default`, what `try_new` returns for a namespace
override the code built, and what `TryFrom<Option<_>>` returns. -/
inductive TablePartitionTemplateOverride.Built : TablePartitionTemplateOverride → Prop
  | default : Built ⟨none⟩
  | tryNew {custom : Option Proto.PartitionTemplate}
      {namespaceTemplate : NamespacePartitionTemplateOverride}
      {override : TablePartitionTemplateOverride} :
      namespaceTemplate.Built → tryNew custom namespaceTemplate = .ok override → Built override
  | tryFrom {template : Option Proto.PartitionTemplate} {override : TablePartitionTemplateOverride} :
      TablePartitionTemplateOverride.tryFrom template = .ok override → Built override

theorem Wrapper.valid_of_tryFrom {template : Proto.PartitionTemplate} {wrapper : Wrapper}
    (accepted : Wrapper.tryFrom template = .ok wrapper) : wrapper.inner.Valid := by
  obtain ⟨valid, rfl⟩ := (Wrapper.tryFrom_eq_ok_iff _ _).mp accepted
  exact valid

theorem NamespacePartitionTemplateOverride.Built.valid {override : NamespacePartitionTemplateOverride}
    (built : override.Built) : ∀ wrapper ∈ override.wrapper, wrapper.inner.Valid := by
  cases built with
  | default => simp
  | tryFrom accepted =>
    obtain ⟨_, wrapped, rfl⟩ := map_eq_ok.mp accepted
    simpa using Wrapper.valid_of_tryFrom wrapped

/-- Every wrapper in an override the code builds went through `Wrapper::try_from`. -/
theorem TablePartitionTemplateOverride.Built.valid {override : TablePartitionTemplateOverride}
    (built : override.Built) : ∀ wrapper ∈ override.wrapper, wrapper.inner.Valid := by
  cases built with
  | default => simp
  | tryNew namespaceBuilt accepted =>
    unfold TablePartitionTemplateOverride.tryNew at accepted
    split at accepted
    · obtain ⟨_, wrapped, rfl⟩ := map_eq_ok.mp accepted
      simpa using Wrapper.valid_of_tryFrom wrapped
    · cases accepted
      simpa [*] using namespaceBuilt.valid
    · cases accepted
      simp
  | tryFrom accepted =>
    unfold TablePartitionTemplateOverride.tryFrom at accepted
    split at accepted
    · cases accepted
      simp
    · obtain ⟨_, wrapped, rfl⟩ := map_eq_ok.mp accepted
      simpa using Wrapper.valid_of_tryFrom wrapped

theorem partitionByDayProto_valid : partitionByDayProto.Valid where
  nonempty := by decide
  atMostMaximum := by decide
  partsValid := by
    simp only [partitionByDayProto, setParts_cons_some, setParts_nil, List.mem_singleton,
      forall_eq, Proto.Part.valid_timeFormat, TimeFormatValid]
    decide
  namesDistinct := by simp [partitionByDayProto]

namespace TablePartitionTemplateOverride

theorem Built.proto_valid {override : TablePartitionTemplateOverride} (built : override.Built) :
    override.proto.Valid := by
  unfold proto
  rcases stored : override.wrapper with _ | wrapper
  · exact partitionByDayProto_valid
  · exact built.valid wrapper stored

theorem len_eq (override : TablePartitionTemplateOverride) :
    override.len = (setParts override.proto.parts).length := by
  simp [len, parts]

/-- An override the code builds yields at most `MAXIMUM_NUMBER_OF_TEMPLATE_PARTS` parts, and at
least one exactly when one of its protobuf parts has its oneof set. -/
theorem len_bounds {override : TablePartitionTemplateOverride} (built : override.Built) :
    override.len ≤ maximumNumberOfTemplateParts ∧
      (1 ≤ override.len ↔ ∃ part ∈ override.proto.parts, part.part.isSome) := by
  rw [len_eq]
  refine ⟨(List.length_filterMap_le _ _).trans built.proto_valid.atMostMaximum, ?_⟩
  simp [setParts, Nat.one_le_iff_ne_zero, List.filterMap_eq_nil_iff, Option.isSome_iff_ne_none]

/-- A table's template comes from the first of these that is given: the table's own (which must
be valid), the namespace's, or partitioning by day. The table yields its set parts, in order. -/
theorem tryNew_parts (custom : Option Proto.PartitionTemplate)
    (namespaceTemplate : NamespacePartitionTemplateOverride) :
    ((∃ override, tryNew custom namespaceTemplate = .ok override) ↔
        ∀ template ∈ custom, template.Valid) ∧
      ∀ override, tryNew custom namespaceTemplate = .ok override →
        override.parts = (setParts (custom.getD ((namespaceTemplate.wrapper.map Wrapper.inner).getD
          partitionByDayProto)).parts).map TemplatePart.ofProto := by
  rcases custom with _ | template
  · rcases stored : namespaceTemplate.wrapper with _ | wrapper <;>
      simp [tryNew, stored, parts, proto]
  · simp only [tryNew, map_eq_ok, Wrapper.tryFrom_eq_ok_iff, Option.mem_def, Option.some.injEq,
      forall_eq']
    refine ⟨⟨fun ⟨_, _, ⟨valid, _⟩, _⟩ => valid, fun valid => ⟨_, _, ⟨valid, rfl⟩, rfl⟩⟩, ?_⟩
    rintro _ ⟨_, ⟨-, rfl⟩, rfl⟩
    rfl

/-- A user's template of a tag value and a month, through `TryFrom<Option<_>>`. -/
theorem len_bounds_of_user_template :
    TablePartitionTemplateOverride.tryFrom
        (some ⟨[⟨some (.tagValue "region")⟩, ⟨some (.timeFormat "%Y-%m")⟩]⟩) =
        .ok ⟨some ⟨⟨[⟨some (.tagValue "region")⟩, ⟨some (.timeFormat "%Y-%m")⟩]⟩⟩⟩ ∧
      (⟨some ⟨⟨[⟨some (.tagValue "region")⟩, ⟨some (.timeFormat "%Y-%m")⟩]⟩⟩⟩ :
        TablePartitionTemplateOverride).Built ∧
      ((⟨some ⟨⟨[⟨some (.tagValue "region")⟩, ⟨some (.timeFormat "%Y-%m")⟩]⟩⟩⟩ :
          TablePartitionTemplateOverride).len ≤ maximumNumberOfTemplateParts ∧
        (1 ≤ (⟨some ⟨⟨[⟨some (.tagValue "region")⟩, ⟨some (.timeFormat "%Y-%m")⟩]⟩⟩⟩ :
            TablePartitionTemplateOverride).len ↔
          ∃ part ∈ (⟨some ⟨⟨[⟨some (.tagValue "region")⟩, ⟨some (.timeFormat "%Y-%m")⟩]⟩⟩⟩ :
            TablePartitionTemplateOverride).proto.parts, part.part.isSome)) :=
  have accepted : TablePartitionTemplateOverride.tryFrom
      (some ⟨[⟨some (.tagValue "region")⟩, ⟨some (.timeFormat "%Y-%m")⟩]⟩) =
      .ok ⟨some ⟨⟨[⟨some (.tagValue "region")⟩, ⟨some (.timeFormat "%Y-%m")⟩]⟩⟩⟩ := rfl
  ⟨accepted, .tryFrom accepted, len_bounds (.tryFrom accepted)⟩

end TablePartitionTemplateOverride

/-- A template whose one protobuf part has its oneof unset passes `Wrapper::try_from`, and the
override yields no part at all. -/
theorem unset_part_counts_but_yields_nothing :
    TablePartitionTemplateOverride.tryFrom (some ⟨[⟨none⟩]⟩) = .ok ⟨some ⟨⟨[⟨none⟩]⟩⟩⟩ ∧
      (⟨some ⟨⟨[⟨none⟩]⟩⟩⟩ : TablePartitionTemplateOverride).Built ∧
      (⟨some ⟨⟨[⟨none⟩]⟩⟩⟩ : TablePartitionTemplateOverride).len = 0 :=
  ⟨rfl, @TablePartitionTemplateOverride.Built.tryFrom (some ⟨[⟨none⟩]⟩) _ rfl, rfl⟩

end InfluxCore.DataTypes
