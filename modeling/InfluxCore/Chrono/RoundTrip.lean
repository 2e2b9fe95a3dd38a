import InfluxCore.Chrono.Parse

/-! # Reading a date back from its rendering

The partition key stores a row's time as the rendering of its `DateTime<Utc>` through the
template's format, and the decoder parses it back with the same items. This module says when
that round trip gives back the date: for formats of date items alone (literals, spaces, and year,
month and day numbers), parsing does not depend on the fields the model leaves abstract
(`parseItems_of_isDate`), and parsing the rendering of a date in the years `1000..10_000` reads
back the fields the items name (`parseItems_renderItems`), provided each month or day number
that is not zero-padded is followed by something that stops chrono's greedy digit scan
(`Unambiguous`); a year of those fills its four digits, padded or not. Without that proviso the
scan reads digits of the next field: `%Y%-m%-d` renders January 15 as `2023115`, which parses as
November 5.

`parseItems_ofDate` is the converse frame: whatever the input, parsing date items sets exactly
the date fields the items name.
-/

namespace InfluxCore.Chrono

open InfluxCore.Decimal

/-! ## Date items -/

/-- Items of the calendar date alone: literals, spaces, and year, month and day numbers. -/
def Item.isDate : Item → Bool
  | .literal _ | .space _ => true
  | .numeric .year _ | .numeric .month _ | .numeric .day _ => true
  | _ => false

/-- The numeric field an item reads. -/
def Item.numericKind : Item → Option Numeric
  | .numeric kind _ => some kind
  | _ => none

/-- Some item reads the field `kind`. -/
def HasKind (kind : Numeric) (items : List Item) : Prop :=
  some kind ∈ items.map Item.numericKind

instance (kind : Numeric) (items : List Item) : Decidable (HasKind kind items) :=
  inferInstanceAs (Decidable (_ ∈ _))

/-- Fields holding at most a date. -/
def Fields.ofDate (year : Option Int) (month day : Option Nat) : Fields :=
  ⟨year, month, day, none, none, none, none, none⟩

/-- A date field after its items are read from a rendering of `value`: `value` if an item reads
the field, what it held before otherwise. -/
def settle {α : Type} (kind : Numeric) (items : List Item) (value : α) (field : Option α) :
    Option α :=
  if HasKind kind items then some value else field

/-- What follows a number stops chrono's digit scan: the end, a space, or a literal that does
not start with a digit. -/
def StopsNumber : List Item → Bool
  | [] | .space _ :: _ => true
  | .literal (c :: _) :: _ => !c.isDigit
  | _ => false

/-- Every number whose rendering may be narrower than its width is followed by what stops its
digits: a month or day that is not zero-padded. A year takes its four digits in every year from
1000 to 9999, which hold every timestamp of an `i64` of nanoseconds. -/
def Unambiguous : List Item → Bool
  | [] => true
  | .numeric kind pad :: items =>
    (pad == .zero || kind == .year || StopsNumber items) && Unambiguous items
  | _ :: items => Unambiguous items

@[simp] theorem hasKind_nil (kind : Numeric) : ¬HasKind kind [] := by simp [HasKind]

theorem hasKind_cons (kind : Numeric) (item : Item) (items : List Item) :
    HasKind kind (item :: items) ↔ item.numericKind = some kind ∨ HasKind kind items := by
  simp [HasKind, eq_comm]

@[simp] theorem settle_nil {α : Type} (kind : Numeric) (value : α) (field : Option α) :
    settle kind [] value field = field := by
  simp [settle]

theorem settle_cons_of_ne {α : Type} {kind : Numeric} {item : Item}
    (other : item.numericKind ≠ some kind) (items : List Item) (value : α) (field : Option α) :
    settle kind (item :: items) value field = settle kind items value field := by
  simp [settle, hasKind_cons, other]

theorem settle_cons_self {α : Type} (kind : Numeric) (pad : Pad) (items : List Item) (value : α)
    (field : Option α) : settle kind (.numeric kind pad :: items) value field =
      settle kind items value (some value) := by
  simp [settle, hasKind_cons, Item.numericKind]

theorem setIfConsistent_of_agrees {α : Type} [DecidableEq α] {field : Option α} {value : α}
    (agrees : field = none ∨ field = some value) : setIfConsistent field value = some (some value) := by
  rcases agrees with rfl | rfl <;> simp [setIfConsistent]

/-! ## Date items parse alike under every extension -/

/-- Date items parse the same under every extension, and leave the other fields as they were. -/
theorem parseItems_of_isDate (extension : Extension) {items : List Item}
    (dates : ∀ item ∈ items, item.isDate) (text : List Char) (fields : Fields)
    (other : extension.Other) :
    parseItems extension items text ⟨fields, other⟩ =
      (parseItems .bare items text ⟨fields, ()⟩).map
        fun parsed => (parsed.1, ⟨parsed.2.fields, other⟩) := by
  induction items generalizing text fields with
  | nil => rfl
  | cons item items inductionHypothesis =>
    have later := fun item member => dates item (.tail _ member)
    have set : ∀ (set : Option Fields) text,
        (set.map fun fields => (⟨fields, other⟩ : Parsed extension.Other)).bind
            (parseItems extension items text) =
          ((set.map fun fields => (⟨fields, ()⟩ : Parsed Extension.bare.Other)).bind
            (parseItems .bare items text)).map
              fun parsed => (parsed.1, ⟨parsed.2.fields, other⟩) := by
      rintro (_ | fields) text
      · rfl
      · exact inductionHypothesis later _ _
    have date := dates item (.head _)
    cases item with
    | literal expected =>
      simp only [parseItems]; split_ifs
      · exact inductionHypothesis later _ _
      · rfl
    | space => exact inductionHypothesis later _ _
    | numeric kind pad =>
      simp only [parseItems, Option.bind_eq_bind]
      rcases scanNumeric kind (trimStart text) with _ | ⟨text, value⟩
      · rfl
      · cases kind <;> simp [Item.isDate] at date <;> exact set _ _
    | fixed | error => simp [Item.isDate] at date

/-- `parse` of date items under any extension. -/
theorem parse_of_isDate (extension : Extension) {items : List Item}
    (dates : ∀ item ∈ items, item.isDate) (fields : Fields) (other : extension.Other)
    (text : List Char) :
    parse extension ⟨fields, other⟩ text items =
      (parse .bare ⟨fields, ()⟩ text items).map fun parsed => ⟨parsed.fields, other⟩ := by
  simp only [parse, parseItems_of_isDate extension dates, Option.bind_eq_bind]
  cases parseItems .bare items text ⟨fields, ()⟩ with
  | none => rfl
  | some result => simp only [Option.map_some', Option.some_bind]; split_ifs <;> rfl

/-! ## Trimming and scanning -/


/-- `str::trim_start` twice is once. -/
theorem trimStart_trimStart (text : List Char) : trimStart (trimStart text) = trimStart text := by
  unfold trimStart
  cases remaining : text.dropWhile isWhitespace with
  | nil => rfl
  | cons c rest =>
    have stops := List.head_dropWhile_not isWhitespace text (by simp [remaining])
    simp only [remaining, List.head_cons] at stops
    exact List.dropWhile_cons_of_neg (by simp [stops])

theorem trimStart_append_of_whitespace {spaces : List Char}
    (white : ∀ c ∈ spaces, isWhitespace c) (text : List Char) :
    trimStart (spaces ++ text) = trimStart text :=
  List.dropWhile_append_of_pos white

theorem trimStart_cons_of_not_whitespace {c : Char} (notWhite : isWhitespace c = false)
    (text : List Char) : trimStart (c :: text) = c :: text :=
  List.dropWhile_cons_of_neg (by simp [notWhite])

theorem isWhitespace_of_isDigit {c : Char} (digit : c.isDigit) : isWhitespace c = false := by
  simp only [Char.isDigit, Bool.and_eq_true, decide_eq_true_eq] at digit
  have : 48 ≤ c.toNat ∧ c.toNat ≤ 57 := ⟨digit.1, digit.2⟩
  simp only [isWhitespace, decide_eq_false_iff_not]
  omega

/-- A digit is no sign, so a signed field reads it as an unsigned one. -/
theorem scanNumeric_of_isDigit (kind : Numeric) {c : Char} (digit : c.isDigit) (text : List Char) :
    scanNumeric kind (c :: text) = scanNumber (c :: text) (numericSpec kind).1 := by
  unfold scanNumeric
  split <;> (try rfl) <;> simp_all

/-- `scan::number` reads a run of digits that fills the width or is followed by a non-digit. -/
theorem scanNumber_append {digits : List Char} {width : Nat} (nonempty : digits ≠ [])
    (allDigits : ∀ c ∈ digits, c.isDigit) (short : digits.length ≤ width) {rest : List Char}
    (stops : digits.length = width ∨ ∀ c after, rest = c :: after → c.isDigit = false)
    (bounded : digits.foldl accumulateDigit 0 < 2 ^ 63) :
    scanNumber (digits ++ rest) (some width) =
      some (rest, ((digits.foldl accumulateDigit 0 : Nat) : Int)) := by
  have noMore : (rest.take (width - digits.length)).takeWhile Char.isDigit = [] := by
    rcases stops with full | stops
    · rw [full, Nat.sub_self, List.take_zero]; rfl
    · cases rest with
      | nil => simp
      | cons c after =>
        cases remaining : width - digits.length with
        | zero => rfl
        | succ _ => exact List.takeWhile_cons_of_neg (by simp [stops c after rfl])
  have read : ((digits ++ rest).take width).takeWhile Char.isDigit = digits := by
    rw [List.take_append_eq_append_take, List.take_of_length_le short,
      List.takeWhile_append_of_pos allDigits, noMore, List.append_nil]
  simp only [scanNumber, Option.getD_some, read, if_neg nonempty, if_pos bounded, List.drop_left]

/-- A number chrono renders without a sign reads back from its rendering, when it fills its
width (zero-padded, or at least `10 ^ (width - 1)`) or what follows stops the digits. -/
theorem scanNumeric_padNumber (kind : Numeric) {width : Nat}
    (spec : (numericSpec kind).1 = some width) {value : Int} (nonneg : 0 ≤ value)
    (fits : value < 10 ^ width) (positive : 0 < width) (bounded : value < 2 ^ 63) (pad : Pad)
    {rest : List Char} (stops : pad = .zero ∨ 10 ^ (width - 1) ≤ value ∨
      ∀ c after, rest = c :: after → c.isDigit = false) :
    scanNumeric kind (trimStart (padNumber value width pad false ++ rest)) = some (rest, value) := by
  lift value to Nat using nonneg
  replace fits : value < 10 ^ width := by exact_mod_cast fits
  replace bounded : value < 2 ^ 63 := by exact_mod_cast bounded
  obtain ⟨nonempty, allDigits, reads⟩ := toDigits_spec value
  have short := toDigits_length_le fits positive
  have scans : ∀ run : List Char, run ≠ [] → (∀ c ∈ run, c.isDigit) → run.length ≤ width →
      (run.length = width ∨ ∀ c after, rest = c :: after → c.isDigit = false) →
      run.foldl accumulateDigit 0 = value →
      scanNumeric kind (trimStart (run ++ rest)) = some (rest, (value : Int)) := by
    rintro (_ | ⟨c, run⟩) nonempty allDigits short stops reads
    · contradiction
    · have digit := allDigits c (.head _)
      rw [List.cons_append, trimStart_cons_of_not_whitespace (isWhitespace_of_isDigit digit),
        scanNumeric_of_isDigit kind digit, ← List.cons_append, spec,
        scanNumber_append nonempty allDigits short stops (by omega), reads]
  have stopsDigits (unpadded : pad ≠ .zero) : (Nat.toDigits 10 value).length = width ∨
      ∀ c after, rest = c :: after → c.isDigit = false :=
    (stops.resolve_left unpadded).imp_left fun wide =>
      toDigits_length_eq (by exact_mod_cast wide) fits positive
  have unsigned : ¬(value : Int) < 0 := by omega
  simp only [padNumber, unsigned, if_false, Bool.false_eq_true, List.nil_append, List.append_nil,
    Int.natAbs_ofNat]
  cases pad with
  | none => exact scans _ nonempty allDigits short (stopsDigits nofun) reads
  | zero =>
    refine scans _ (by simp [nonempty]) ?_ (by simp; omega) (.inl (by simp; omega))
      (by rw [foldl_replicate_zero, reads])
    simp only [List.mem_append, List.mem_replicate]
    rintro c (⟨-, rfl⟩ | digit)
    · rfl
    · exact allDigits c digit
  | space =>
    rw [List.append_assoc, trimStart_append_of_whitespace
      (fun c member => by rw [List.eq_of_mem_replicate member]; rfl)]
    exact scans _ nonempty allDigits short (stopsDigits nofun) reads

section Setters

variable (extension : Extension) (other : extension.Other) {year : Option Int}
  {month day : Option Nat}

theorem setNumeric_year_ofDate {value : Int} (agrees : year = none ∨ year = some value)
    (range : -2 ^ 31 ≤ value ∧ value < 2 ^ 31) :
    Parsed.setNumeric extension .year ⟨.ofDate year month day, other⟩ value =
      some ⟨.ofDate (some value) month day, other⟩ := by
  simp [Parsed.setNumeric, Fields.setYear, Fields.ofDate, setIfConsistent_of_agrees agrees]
  omega

theorem setNumeric_month_ofDate {value : Nat} (agrees : month = none ∨ month = some value)
    (range : 1 ≤ value ∧ value ≤ 12) :
    Parsed.setNumeric extension .month ⟨.ofDate year month day, other⟩ value =
      some ⟨.ofDate year (some value) day, other⟩ := by
  simp [Parsed.setNumeric, Fields.setMonth, Fields.setInRange, Fields.ofDate,
    setIfConsistent_of_agrees agrees]
  omega

theorem setNumeric_day_ofDate {value : Nat} (agrees : day = none ∨ day = some value)
    (range : 1 ≤ value ∧ value ≤ 31) :
    Parsed.setNumeric extension .day ⟨.ofDate year month day, other⟩ value =
      some ⟨.ofDate year month (some value), other⟩ := by
  simp [Parsed.setNumeric, Fields.setDay, Fields.setInRange, Fields.ofDate,
    setIfConsistent_of_agrees agrees]
  omega

theorem setNumeric_year_ofDate_eq_some {value : Int} {parsed : Parsed extension.Other}
    (set : Parsed.setNumeric extension .year ⟨.ofDate year month day, other⟩ value = some parsed) :
    parsed = ⟨.ofDate (some value) month day, other⟩ := by
  simp only [Parsed.setNumeric, Fields.setYear, Fields.ofDate] at set
  split_ifs at set <;> cases year <;> simp_all [setIfConsistent, Fields.ofDate]

theorem setNumeric_month_ofDate_eq_some {value : Int} {parsed : Parsed extension.Other}
    (set : Parsed.setNumeric extension .month ⟨.ofDate year month day, other⟩ value = some parsed) :
    parsed = ⟨.ofDate year (some value.toNat) day, other⟩ := by
  simp only [Parsed.setNumeric, Fields.setMonth, Fields.setInRange, Fields.ofDate] at set
  split_ifs at set <;> cases month <;> simp_all [setIfConsistent, Fields.ofDate]

theorem setNumeric_day_ofDate_eq_some {value : Int} {parsed : Parsed extension.Other}
    (set : Parsed.setNumeric extension .day ⟨.ofDate year month day, other⟩ value = some parsed) :
    parsed = ⟨.ofDate year month (some value.toNat), other⟩ := by
  simp only [Parsed.setNumeric, Fields.setDay, Fields.setInRange, Fields.ofDate] at set
  split_ifs at set <;> cases day <;> simp_all [setIfConsistent, Fields.ofDate]

end Setters

/-- Whatever the input, parsing date items sets exactly the date fields the items name. -/
theorem parseItems_ofDate {items : List Item} (dates : ∀ item ∈ items, item.isDate)
    {text rest : List Char} {year : Option Int} {month day : Option Nat} {parsed : Parsed Unit}
    (parses : parseItems .bare items text ⟨.ofDate year month day, ()⟩ = some (rest, parsed)) :
    ∃ year' month' day', parsed = ⟨.ofDate (settle .year items year' year)
      (settle .month items month' month) (settle .day items day' day), ()⟩ := by
  induction items generalizing text year month day with
  | nil => cases parses; exact ⟨0, 0, 0, by simp⟩
  | cons item items inductionHypothesis =>
    have later := fun item member => dates item (.tail _ member)
    have date := dates item (.head _)
    cases item with
    | literal expected =>
      simp only [parseItems] at parses
      split_ifs at parses
      simpa [settle_cons_of_ne, Item.numericKind] using inductionHypothesis later parses
    | space =>
      simpa [settle_cons_of_ne, Item.numericKind] using inductionHypothesis later parses
    | numeric kind pad =>
      simp only [parseItems, Option.bind_eq_bind, Option.bind_eq_some] at parses
      obtain ⟨⟨text, value⟩, -, next, set, parses⟩ := parses
      cases kind <;> simp [Item.isDate] at date
      · obtain ⟨year', month', day', rfl⟩ :=
          inductionHypothesis later (setNumeric_year_ofDate_eq_some _ _ set ▸ parses)
        refine ⟨if HasKind .year items then year' else value, month', day', ?_⟩
        by_cases named : HasKind .year items <;> simp [settle, hasKind_cons, Item.numericKind, named]
      · obtain ⟨year', month', day', rfl⟩ :=
          inductionHypothesis later (setNumeric_month_ofDate_eq_some _ _ set ▸ parses)
        refine ⟨year', if HasKind .month items then month' else value.toNat, day', ?_⟩
        by_cases named : HasKind .month items <;> simp [settle, hasKind_cons, Item.numericKind, named]
      · obtain ⟨year', month', day', rfl⟩ :=
          inductionHypothesis later (setNumeric_day_ofDate_eq_some _ _ set ▸ parses)
        refine ⟨year', month', if HasKind .day items then day' else value.toNat, ?_⟩
        by_cases named : HasKind .day items <;> simp [settle, hasKind_cons, Item.numericKind, named]
    | fixed | error => simp [Item.isDate] at date

section Rendering

variable (extension : Extension) (dateTime : DateTime) (items : List Item)

@[simp] theorem renderItems_nil : renderItems extension dateTime [] = some [] := rfl

@[simp] theorem renderItems_literal_cons (text : List Char) :
    renderItems extension dateTime (.literal text :: items) =
      (renderItems extension dateTime items).map (text ++ ·) := by
  simp only [renderItems]; cases renderItems extension dateTime items <;> rfl

@[simp] theorem renderItems_space_cons (text : List Char) :
    renderItems extension dateTime (.space text :: items) =
      (renderItems extension dateTime items).map (text ++ ·) := by
  simp only [renderItems]; cases renderItems extension dateTime items <;> rfl

@[simp] theorem renderItems_numeric_cons (kind : Numeric) (pad : Pad) :
    renderItems extension dateTime (.numeric kind pad :: items) =
      (renderItems extension dateTime items).map
        (((renderDateNumeric dateTime kind pad).getD
          (extension.render (.numeric kind pad) dateTime)) ++ ·) := by
  simp only [renderItems]; cases renderItems extension dateTime items <;> rfl

end Rendering

/-- Date items render the same under every extension. -/
theorem renderItems_of_isDate (extension : Extension) (dateTime : DateTime) {items : List Item}
    (dates : ∀ item ∈ items, item.isDate) :
    renderItems extension dateTime items = renderItems .bare dateTime items := by
  induction items with
  | nil => rfl
  | cons item items inductionHypothesis =>
    have later := inductionHypothesis fun item member => dates item (.tail _ member)
    have date := dates item (.head _)
    cases item with
    | literal | space => simp [later]
    | numeric kind pad =>
      cases kind <;> simp [Item.isDate] at date <;>
        simp only [renderItems_numeric_cons, renderDateNumeric, later] <;> (try split_ifs) <;> rfl
    | fixed | error => simp [Item.isDate] at date

/-- After a number, the rendering of items that stop it, followed by text that does, starts
with a non-digit. -/
theorem stops_of_stopsNumber {items : List Item} (wellFormed : ∀ item ∈ items, item.wellFormed)
    (stopsNumber : StopsNumber items) {dateTime : DateTime} {rendered : List Char}
    (renders : renderItems .bare dateTime items = some rendered) {rest : List Char}
    (stops : ∀ c after, rest = c :: after → c.isDigit = false) :
    ∀ c after, rendered ++ rest = c :: after → c.isDigit = false := by
  cases items with
  | nil => cases renders; exact stops
  | cons item items =>
    have shaped := wellFormed item (.head _)
    cases item with
    | space text =>
      obtain ⟨rendered, -, rfl⟩ := Option.map_eq_some'.mp ((renderItems_space_cons ..).symm.trans renders)
      cases text with
      | nil => exact (Item.wellFormed_space.mp shaped).1 rfl |>.elim
      | cons first text =>
        rintro c after ⟨⟩
        have white := (Item.wellFormed_space.mp shaped).2 first (.head _)
        cases digit : first.isDigit
        · rfl
        · simp [isWhitespace_of_isDigit digit] at white
    | literal text =>
      obtain ⟨rendered, -, rfl⟩ :=
        Option.map_eq_some'.mp ((renderItems_literal_cons ..).symm.trans renders)
      cases text with
      | nil => exact (Item.wellFormed_literal.mp shaped).1 rfl |>.elim
      | cons first text =>
        rintro c after ⟨⟩
        simpa [StopsNumber] using stopsNumber
    | numeric | fixed | error => simp [StopsNumber] at stopsNumber

/-- A number item reads its rendering, however much whitespace was trimmed before it. -/
theorem parseItems_numeric_cons {kind : Numeric} {width : Nat}
    (spec : (numericSpec kind).1 = some width) {value : Int} (nonneg : 0 ≤ value)
    (fits : value < 10 ^ width) (positive : 0 < width) (bounded : value < 2 ^ 63) {pad : Pad}
    {following : List Char} (stops : pad = .zero ∨ 10 ^ (width - 1) ≤ value ∨
      ∀ c after, following = c :: after → c.isDigit = false)
    {extension : Extension} {parsed next : Parsed extension.Other}
    (set : Parsed.setNumeric extension kind parsed value = some next) (items : List Item)
    {text : List Char} (textIs : text = padNumber value width pad false ++ following ∨
      text = trimStart (padNumber value width pad false ++ following)) :
    parseItems extension (.numeric kind pad :: items) text parsed =
      parseItems extension items following next := by
  have trimmed : trimStart text = trimStart (padNumber value width pad false ++ following) := by
    rcases textIs with rfl | rfl
    · rfl
    · exact trimStart_trimStart _
  simp only [parseItems, trimmed,
    scanNumeric_padNumber kind spec nonneg fits positive bounded pad stops,
    Option.bind_eq_bind, Option.some_bind, set]

/-- Parsing the rendering of a date through date items, followed by text that stops a number
and does not start with whitespace, reads back the fields the items name and leaves that text;
so does parsing it after `trim_start`. -/
theorem parseItems_renderItems {dateTime : DateTime}
    (inRange : 1000 ≤ dateTime.date.year ∧ dateTime.date.year < 10000) {items : List Item}
    (dates : ∀ item ∈ items, item.isDate) (wellFormed : ∀ item ∈ items, item.wellFormed)
    (unambiguous : Unambiguous items) {rest : List Char}
    (stops : ∀ c after, rest = c :: after → c.isDigit = false ∧ isWhitespace c = false)
    {year : Option Int} {month day : Option Nat}
    (agrees : (year = none ∨ year = some dateTime.date.year) ∧
      (month = none ∨ month = some dateTime.date.month) ∧
      (day = none ∨ day = some dateTime.date.day)) :
    ∃ rendered, renderItems .bare dateTime items = some rendered ∧
      ∀ text, text = rendered ++ rest ∨ text = trimStart (rendered ++ rest) →
        parseItems .bare items text ⟨.ofDate year month day, ()⟩ =
          some (rest, ⟨.ofDate (settle .year items dateTime.date.year year)
            (settle .month items dateTime.date.month month)
            (settle .day items dateTime.date.day day), ()⟩) := by
  induction items generalizing year month day with
  | nil =>
    have trimmed : trimStart rest = rest := by
      cases rest with
      | nil => rfl
      | cons c after => exact trimStart_cons_of_not_whitespace (stops c after rfl).2 after
    exact ⟨[], rfl, by rintro text (rfl | rfl) <;> simp [parseItems, trimmed]⟩
  | cons item items inductionHypothesis =>
    have later := fun item member => dates item (.tail _ member)
    have laterWellFormed := fun item member => wellFormed item (.tail _ member)
    have shaped := wellFormed item (.head _)
    have date := dates item (.head _)
    cases item with
    | literal text =>
      obtain ⟨rendered, renders, parses⟩ :=
        inductionHypothesis later laterWellFormed (by simpa [Unambiguous] using unambiguous) agrees
      refine ⟨text ++ rendered, by simp [renders], ?_⟩
      cases text with
      | nil => exact (Item.wellFormed_literal.mp shaped).1 rfl |>.elim
      | cons first text =>
        have trimmed : trimStart (first :: (text ++ (rendered ++ rest))) =
            first :: (text ++ (rendered ++ rest)) :=
          trimStart_cons_of_not_whitespace ((Item.wellFormed_literal.mp shaped).2 first (.head _)) _
        rintro _ (rfl | rfl) <;>
          simp [trimmed, parseItems, parses, settle_cons_of_ne, Item.numericKind]
    | space text =>
      obtain ⟨rendered, renders, parses⟩ :=
        inductionHypothesis later laterWellFormed (by simpa [Unambiguous] using unambiguous) agrees
      refine ⟨text ++ rendered, by simp [renders], ?_⟩
      have trimmed : trimStart (text ++ (rendered ++ rest)) = trimStart (rendered ++ rest) :=
        trimStart_append_of_whitespace (Item.wellFormed_space.mp shaped).2 _
      rintro _ (rfl | rfl) <;>
        simp [trimmed, trimStart_trimStart, parseItems, parses, settle_cons_of_ne, Item.numericKind]
    | numeric kind pad =>
      simp only [Unambiguous, Bool.and_eq_true, Bool.or_eq_true, beq_iff_eq] at unambiguous
      obtain ⟨padded, unambiguous⟩ := unambiguous
      have stopsAfter {rendered : List Char}
          (renders : renderItems .bare dateTime items = some rendered) (notYear : kind ≠ .year)
          {wide : Prop} : pad = .zero ∨ wide ∨
            ∀ c after, rendered ++ rest = c :: after → c.isDigit = false := by
        rcases padded with (zero | year) | stopsNumber
        · exact .inl zero
        · exact absurd year notYear
        · exact .inr (.inr (stops_of_stopsNumber laterWellFormed stopsNumber renders
            fun c after h => (stops c after h).1))
      obtain ⟨_, _, first, last, firstDay, lastDay⟩ := dateTime.date.valid
      have := daysInMonth_bounds dateTime.date.year dateTime.date.month
      cases kind <;> simp [Item.isDate] at date
      · obtain ⟨rendered, renders, parses⟩ :=
          inductionHypothesis later laterWellFormed unambiguous ⟨.inr rfl, agrees.2⟩
        refine ⟨padNumber dateTime.date.year 4 pad false ++ rendered,
          by simp [renders, renderDateNumeric, inRange.2, (by omega : 0 ≤ dateTime.date.year)],
          fun text textIs => ?_⟩
        rw [parseItems_numeric_cons (rfl : (numericSpec .year).1 = some 4) (by omega) (by omega)
          (by omega) (by omega) (.inr (.inl (by norm_num; omega)))
          (setNumeric_year_ofDate _ _ agrees.1 (by omega))
          items (by simpa only [List.append_assoc] using textIs)]
        simp [parses, settle_cons_self, settle_cons_of_ne, Item.numericKind]
      · obtain ⟨rendered, renders, parses⟩ :=
          inductionHypothesis later laterWellFormed unambiguous ⟨agrees.1, .inr rfl, agrees.2.2⟩
        refine ⟨padNumber dateTime.date.month 2 pad false ++ rendered,
          by simp [renders, renderDateNumeric], fun text textIs => ?_⟩
        rw [parseItems_numeric_cons (rfl : (numericSpec .month).1 = some 2) (by omega) (by omega)
          (by omega) (by omega) (stopsAfter renders nofun)
          (setNumeric_month_ofDate _ _ agrees.2.1 ⟨first, last⟩) items
          (by simpa only [List.append_assoc] using textIs)]
        simp [parses, settle_cons_self, settle_cons_of_ne, Item.numericKind]
      · obtain ⟨rendered, renders, parses⟩ :=
          inductionHypothesis later laterWellFormed unambiguous ⟨agrees.1, agrees.2.1, .inr rfl⟩
        refine ⟨padNumber dateTime.date.day 2 pad false ++ rendered,
          by simp [renders, renderDateNumeric], fun text textIs => ?_⟩
        rw [parseItems_numeric_cons (rfl : (numericSpec .day).1 = some 2) (by omega) (by omega)
          (by omega) (by omega) (stopsAfter renders nofun)
          (setNumeric_day_ofDate _ _ agrees.2.2 ⟨firstDay, by omega⟩) items
          (by simpa only [List.append_assoc] using textIs)]
        simp [parses, settle_cons_self, settle_cons_of_ne, Item.numericKind]
    | fixed | error => simp [Item.isDate] at date

end InfluxCore.Chrono
