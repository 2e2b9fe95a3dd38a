import InfluxCore.Partition.Template

/-! # What `Wrapper::try_from` reports when it rejects a template

`Wrapper.tryFrom_eq_ok_iff` says which templates validation accepts. This module is about the
others: the error returned names what is wrong with the template (`Wrapper.tryFrom_error_names`):

* `NoParts`: the template has no parts, and `TooManyParts` carries the number of parts, which
  is above eight;
* `InvalidStrftime`: the text of an invalid time format part, or `%#z cannot be used` for a
  format containing `%#z`;
* `InvalidTagValue`: the empty tag name of a tag value or bucket part, or `time cannot be used`
  for a name containing `time`;
* `RepeatedTagValue`: a tag name that two parts use;
* `InvalidNumberOfBuckets`: the count of a bucket part outside `1..100000`.

The loop's errors are proved by induction over the parts (`validateParts_error_names`), from one
lemma per check, and two lemmas for adding a part in front or after.
-/

namespace InfluxCore.DataTypes

open InfluxCore.Chrono

/-- What an error of the loop over the parts names, given the tag names seen before them. The
loop never returns the two errors about the number of parts. -/
def ValidationError.Names (seenTags : List String) (parts : List Proto.TemplatePart) :
    ValidationError → Prop
  | .noParts | .tooManyParts _ => False
  | .invalidStrftime message => ∃ fmt, .timeFormat fmt ∈ setParts parts ∧ ¬ TimeFormatValid fmt ∧
      (message = fmt ∨ message = "%#z cannot be used" ∧ "%#z".toList <:+: fmt.toList)
  | .invalidTagValue message => ∃ name ∈ tagNames parts, (message = name ∧ name = "") ∨
      (message = tagValueKeyTime ++ " cannot be used" ∧ tagValueKeyTime.toList <:+: name.toList)
  | .invalidNumberOfBuckets count => ∃ tagName, .bucket ⟨tagName, count⟩ ∈ setParts parts ∧
      allowedBucketQuantities.contains count = false
  | .repeatedTagValue name =>
    name ∈ tagNames parts ∧ (name ∈ seenTags ∨ List.Sublist [name, name] (tagNames parts))

namespace ValidationError

theorem setParts_append (parts more : List Proto.TemplatePart) :
    setParts (parts ++ more) = setParts parts ++ setParts more :=
  List.filterMap_append _ _ _

theorem tagNames_append (parts more : List Proto.TemplatePart) :
    tagNames (parts ++ more) = tagNames parts ++ tagNames more := by
  simp only [tagNames, setParts_append, List.filterMap_append]

/-- An error names the same part after more parts are checked. -/
theorem names_append {seenTags : List String} {parts : List Proto.TemplatePart}
    {error : ValidationError} (names : error.Names seenTags parts) (more : List Proto.TemplatePart) :
    error.Names seenTags (parts ++ more) := by
  cases error <;> simp only [Names, setParts_append, tagNames_append, List.mem_append] at names ⊢
  all_goals first
    | exact names
    | obtain ⟨value, mem, rest⟩ := names; exact ⟨value, .inl mem, rest⟩
    | exact ⟨.inl names.1, names.2.imp_right (·.trans (List.sublist_append_left _ _))⟩

/-- A name seen before a part that names it, or named twice after it, is named twice from it. -/
theorem repeated_cons {name value : String} {seenTags names : List String} (mem : name ∈ names)
    (seen : (name = value ∨ name ∈ seenTags) ∨ List.Sublist [name, name] names) :
    name ∈ seenTags ∨ List.Sublist [name, name] (value :: names) := by
  rcases seen with (rfl | seen) | twice
  · exact .inr (List.cons_sublist_cons.mpr (List.singleton_sublist.mpr mem))
  · exact .inl seen
  · exact .inr (twice.cons _)

/-- An error the loop returns after a part, with that part's tag name seen, names the same part
of the longer list. -/
theorem names_cons {seenTags : List String} {part : Proto.TemplatePart}
    {rest : List Proto.TemplatePart} {error : ValidationError}
    (names : error.Names ((part.part.bind Proto.Part.tagName?).toList ++ seenTags) rest) :
    error.Names seenTags (part :: rest) := by
  rcases part with ⟨_ | (value | fmt | ⟨tagName, numBuckets⟩)⟩ <;> cases error <;>
    simp only [Names, Option.bind, Proto.Part.tagName?, Option.toList, List.nil_append,
      List.singleton_append, setParts_cons_none, setParts_cons_some, tagNames_cons_none,
      tagNames_cons_tagValue, tagNames_cons_timeFormat, tagNames_cons_bucket, List.mem_cons]
      at names ⊢
  all_goals first
    | exact names
    | obtain ⟨value, mem, rest⟩ := names; exact ⟨value, .inr mem, rest⟩
    | exact ⟨.inr names.1, repeated_cons names.1 names.2⟩

end ValidationError

theorem checkTimeFormat_error_names {fmt : String} {error : ValidationError}
    (rejected : checkTimeFormat fmt = .error error) (seenTags : List String) :
    error.Names seenTags [⟨some (.timeFormat fmt)⟩] := by
  unfold checkTimeFormat at rejected
  split_ifs at rejected with empty reserved erroneous <;> cases rejected <;>
    simp_all [ValidationError.Names, TimeFormatValid, String.isEmpty_iff]

theorem checkTagName_error_names {seenTags : List String} {name : String} {error : ValidationError}
    (rejected : checkTagName seenTags name = .error error) (part : Proto.Part)
    (named : part.tagName? = some name) : error.Names seenTags [⟨some part⟩] := by
  have names : tagNames [⟨some part⟩] = [name] := by simp [tagNames, setParts, named]
  unfold checkTagName at rejected
  split_ifs at rejected with empty reserved repeated <;> cases rejected <;>
    simp_all [ValidationError.Names, String.isEmpty_iff]

/-- Every error of the loop over the parts names one of them: an invalid time format or bucket
count, an invalid tag name, or a tag name seen before or used twice. -/
theorem validateParts_error_names (seenTags : List String) (parts : List Proto.TemplatePart)
    {error : ValidationError} (rejected : validateParts seenTags parts = .error error) :
    error.Names seenTags parts := by
  induction parts generalizing seenTags with
  | nil => cases rejected
  | cons part rest inductionHypothesis =>
    rcases part with ⟨_ | (value | fmt | ⟨tagName, numBuckets⟩)⟩
    · exact ValidationError.names_cons (inductionHypothesis seenTags rejected)
    · simp only [validateParts, bind_eq_error] at rejected
      rcases rejected with checked | ⟨seen, checked, rejected⟩
      · exact ValidationError.names_append (checkTagName_error_names checked (.tagValue value) rfl) rest
      · obtain ⟨rfl, -⟩ := (checkTagName_eq_ok_iff _ _ _).mp checked
        exact ValidationError.names_cons (inductionHypothesis _ rejected)
    · simp only [validateParts, bind_eq_error] at rejected
      rcases rejected with checked | ⟨⟨⟩, -, rejected⟩
      · exact ValidationError.names_append (checkTimeFormat_error_names checked seenTags) rest
      · exact ValidationError.names_cons (inductionHypothesis _ rejected)
    · simp only [validateParts, bind_eq_error] at rejected
      rcases rejected with checked | ⟨seen, checked, rejected⟩
      · exact ValidationError.names_append
          (checkTagName_error_names checked (.bucket ⟨tagName, numBuckets⟩) rfl) rest
      · obtain ⟨rfl, -⟩ := (checkTagName_eq_ok_iff _ _ _).mp checked
        split at rejected
        · exact ValidationError.names_cons (inductionHypothesis _ rejected)
        · next outside =>
          cases rejected
          exact ⟨tagName, by simp, by simpa using outside⟩

/-- `Wrapper::try_from` rejects only templates that are not valid, and its error names why: no
parts, the number of parts above eight, or a part of the template as `Names` says. -/
theorem Wrapper.tryFrom_error_names (template : Proto.PartitionTemplate) (error : ValidationError)
    (rejected : Wrapper.tryFrom template = .error error) :
    ¬ template.Valid ∧
      (error = .noParts ∧ template.parts = [] ∨
        error = .tooManyParts template.parts.length ∧
          maximumNumberOfTemplateParts < template.parts.length ∨
        error.Names [] template.parts) := by
  refine ⟨fun valid => ?_, ?_⟩
  · have accepted := (Wrapper.tryFrom_eq_ok_iff template ⟨template⟩).mpr ⟨valid, rfl⟩
    rw [rejected] at accepted
    cases accepted
  · unfold Wrapper.tryFrom at rejected
    split_ifs at rejected with empty tooMany
    · cases rejected
      exact .inl ⟨rfl, List.isEmpty_iff.mp empty⟩
    · cases rejected
      exact .inr (.inl ⟨rfl, tooMany⟩)
    · simp only [bind_eq_error] at rejected
      rcases rejected with looped | ⟨⟨⟩, -, returned⟩
      · exact .inr (.inr (validateParts_error_names [] _ looped))
      · cases returned

/-- The source's test of a tag name used by a tag value part and again by a bucket part. -/
example : Wrapper.tryFrom ⟨[⟨some (.tagValue "bananas")⟩, ⟨some (.bucket ⟨"bananas", 42⟩)⟩]⟩ =
    .error (.repeatedTagValue "bananas") :=
  rfl

end InfluxCore.DataTypes
