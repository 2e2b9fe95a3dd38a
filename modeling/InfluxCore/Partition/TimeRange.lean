import InfluxCore.Partition.Decode
import InfluxCore.Chrono.RoundTrip

/-! # What a time piece decodes to

`parse_part_time_format` parses a time piece with the items of its format, completes the
fields with `parsed_implicit_defaults`, and ends the range at the nearest of `begin` plus a
year, a month or a day, one for each year, month and day item. What the decoder is for is said
here with `DateField`: the finest field a format names (`finestField`), the start of that field
around a time (`DateField.truncate`), and one step of it (`DateField.step`).

* `parsePartTimeFormat_datetime`: whenever a piece decodes to a range, the format is made of
  date items and names a year (and a month if it names a day), `begin` is the start of its
  finest field, `end` is one step of it later, and `begin < end`.
* `parsePartTimeFormat_error`: the decoder panics only when `begin` lies in chrono's last year.
* `parsePartTimeFormat_rendered`: the piece a row's timestamp renders to decodes to the range of
  the finest field around that timestamp, when every month or day number of the format that is
  not zero-padded is followed by something that stops chrono's digit scan (a year fills its four
  digits over the whole range of the timestamps).

The two one-step lemmas the loop needs are `nearerEnd_step` (the nearer of two ends is the end
of the finer field, since a day is shorter than any month and a month than any year) and
`timeBegin_eq_some` (what parsing and the defaults give for a format of date items).
-/

namespace InfluxCore.DataTypes

open InfluxCore.Chrono

/-- The date fields a time format can name. -/
inductive DateField
  | year
  | month
  | day
  deriving DecidableEq, Repr

namespace DateField

/-- Coarsest first. -/
def rank : DateField → Nat
  | year => 0
  | month => 1
  | day => 2

/-- The field a numeric date item reads. -/
def ofItem : Item → Option DateField
  | .numeric .year _ => some year
  | .numeric .month _ => some month
  | .numeric .day _ => some day
  | _ => none

/-- The finer of two fields, if any. -/
def finer : Option DateField → Option DateField → Option DateField
  | some first, some second => some (if second.rank < first.rank then first else second)
  | some first, none => some first
  | none, second => second

/-- `begin + Months::new(12)`, `begin + Months::new(1)` or `begin + Days::new(1)`. -/
def step (field : DateField) (begin : DateTime) : Except String DateTime :=
  match field with
  | year => begin.addMonths 12
  | month => begin.addMonths 1
  | day => begin.addDays 1

/-- The start of the field around a time: midnight of its first day. -/
def truncate (field : DateField) (dateTime : DateTime) : DateTime :=
  let date := dateTime.date
  let inRange := And.intro date.valid.1 date.valid.2.1
  match field with
  | year => ⟨⟨date.year, 1, 1, isValidDate_first inRange le_rfl (by decide)⟩, .midnight⟩
  | month =>
    ⟨⟨date.year, date.month, 1, isValidDate_first inRange date.valid.2.2.1 date.valid.2.2.2.1⟩,
      .midnight⟩
  | day => ⟨date, .midnight⟩

/-- The days one step of the field spans: at least 365, 28 to 31, or one. -/
def Spans : DateField → Int → Prop
  | year, days => 365 ≤ days
  | month, days => 28 ≤ days ∧ days ≤ 31
  | day, days => days = 1

theorem finer_assoc (first second third : Option DateField) :
    finer (finer first second) third = finer first (finer second third) := by
  rcases first with _ | _ | _ | _ <;> rcases second with _ | _ | _ | _ <;>
    rcases third with _ | _ | _ | _ <;> rfl

@[simp] theorem finer_none (field : Option DateField) : finer field none = field := by
  rcases field with _ | _ <;> rfl

/-- A step keeps the time of day and spans the days of the field. -/
theorem step_spans {field : DateField} {begin later : DateTime}
    (stepped : field.step begin = .ok later) :
    later.time = begin.time ∧
      field.Spans (later.date.daysSinceEpoch - begin.date.daysSinceEpoch) := by
  cases field with
  | year =>
    obtain ⟨added, time⟩ := DateTime.addMonths_eq_ok.mp stepped
    have := NaiveDate.daysSinceEpoch_checkedAddMonths_twelve added
    exact ⟨time, by simp only [Spans]; omega⟩
  | month =>
    obtain ⟨added, time⟩ := DateTime.addMonths_eq_ok.mp stepped
    have := NaiveDate.daysSinceEpoch_checkedAddMonths_one added
    exact ⟨time, by simp only [Spans]; omega⟩
  | day =>
    obtain ⟨next, time⟩ := DateTime.addDays_one_eq_ok.mp stepped
    have := NaiveDate.daysSinceEpoch_succOpt next
    exact ⟨time, by simp only [Spans]; omega⟩

/-- `end - begin` of a step, in nanoseconds. -/
theorem sub_step {field : DateField} {begin later : DateTime}
    (stepped : field.step begin = .ok later) :
    later.sub begin = (later.date.daysSinceEpoch - begin.date.daysSinceEpoch) * 86400000000000 := by
  obtain ⟨time, -⟩ := step_spans stepped
  simp only [DateTime.sub, DateTime.timestamp, time]
  ring

/-- One step of a finer field ends sooner. -/
theorem sub_step_lt {fine coarse : DateField} (finer : coarse.rank < fine.rank)
    {begin fineEnd coarseEnd : DateTime} (fineStep : fine.step begin = .ok fineEnd)
    (coarseStep : coarse.step begin = .ok coarseEnd) :
    fineEnd.sub begin < coarseEnd.sub begin := by
  rw [sub_step fineStep, sub_step coarseStep]
  have fineSpans := (step_spans fineStep).2
  have coarseSpans := (step_spans coarseStep).2
  cases fine <;> cases coarse <;> simp only [rank, Spans] at finer fineSpans coarseSpans <;> omega

/-- A step ends after it begins. -/
theorem timestamp_lt_step {field : DateField} {begin later : DateTime}
    (stepped : field.step begin = .ok later) : begin.timestamp < later.timestamp := by
  have days := (step_spans stepped).2
  have := sub_step stepped
  simp only [DateTime.sub] at this
  cases field <;> simp only [Spans] at days <;> omega

/-- The nearer of two ends is the end of the finer field. -/
theorem nearerEnd_step {first second : DateField} {begin firstEnd secondEnd : DateTime}
    (firstStep : first.step begin = .ok firstEnd) (secondStep : second.step begin = .ok secondEnd) :
    ∃ field, finer (some first) (some second) = some field ∧
      field.step begin = .ok (nearerEnd begin (some firstEnd) secondEnd) := by
  refine ⟨_, rfl, ?_⟩
  simp only [nearerEnd]
  rcases lt_trichotomy second.rank first.rank with firstFiner | same | secondFiner
  · rw [if_pos firstFiner, if_pos (sub_step_lt firstFiner firstStep secondStep)]
    exact firstStep
  · have : first = second := by cases first <;> cases second <;> simp_all [rank]
    subst this
    have : firstEnd = secondEnd := Except.ok.inj (firstStep.symm.trans secondStep)
    simp [this, secondStep]
  · rw [if_neg (by omega), if_neg (not_lt.mpr (sub_step_lt secondFiner secondStep firstStep).le)]
    exact secondStep

/-- A time at the start of the field is its own start. -/
theorem truncate_of_start {field : DateField} {dateTime : DateTime}
    (midnight : dateTime.time = .midnight) (firstDay : field ≠ day → dateTime.date.day = 1)
    (firstMonth : field = year → dateTime.date.month = 1) : field.truncate dateTime = dateTime := by
  cases field <;> ext <;> simp_all [truncate]

/-- Times that agree down to the field have the same start. -/
theorem truncate_congr {field : DateField} {first second : DateTime}
    (sameYear : first.date.year = second.date.year)
    (sameMonth : field ≠ year → first.date.month = second.date.month)
    (sameDay : field = day → first.date.day = second.date.day) :
    field.truncate first = field.truncate second := by
  cases field <;> ext <;> simp_all [truncate]

/-- The start of the field is no later than the time. -/
theorem timestamp_truncate_le (field : DateField) (dateTime : DateTime) :
    (field.truncate dateTime).timestamp ≤ dateTime.timestamp := by
  obtain ⟨_, _, _, _, dayPos, _⟩ := dateTime.date.valid
  cases field <;>
    simp only [truncate, DateTime.timestamp, NaiveDate.daysSinceEpoch, NaiveTime.midnight,
      daysBeforeMonth_one] <;> omega

/-- One step after the start of the field is later than the time, when the time is not a leap
second. -/
theorem lt_step_truncate {field : DateField} {dateTime rangeEnd : DateTime}
    (noLeapSecond : dateTime.time.frac < 1000000000)
    (stepped : field.step (field.truncate dateTime) = .ok rangeEnd) :
    dateTime.timestamp < rangeEnd.timestamp := by
  have endTime : rangeEnd.time = .midnight := by
    rw [(step_spans stepped).1]; cases field <;> rfl
  have := dateTime.time.valid
  obtain ⟨_, _, _, _, dayPos, inMonth⟩ := dateTime.date.valid
  -- the day after the last day of the field, counted from 1970-01-01
  have days : dateTime.date.daysSinceEpoch < rangeEnd.date.daysSinceEpoch := by
    cases field with
    | year =>
      obtain ⟨added, -⟩ := DateTime.addMonths_eq_ok.mp stepped
      obtain ⟨nextYear, nextMonth, nextDay⟩ := NaiveDate.checkedAddMonths_twelve_eq added
      have := dateTime.date.daysSinceEpoch_mem_year
      simp only [truncate] at nextYear nextMonth nextDay
      rw [min_eq_left (le_trans (by norm_num) (daysInMonth_bounds _ _).1)] at nextDay
      simp only [NaiveDate.daysSinceEpoch, nextYear, nextMonth, nextDay, daysBeforeMonth_one] at this ⊢
      omega
    | month =>
      obtain ⟨added, -⟩ := DateTime.addMonths_eq_ok.mp stepped
      obtain ⟨diff, nextDay⟩ := NaiveDate.checkedAddMonths_one_eq added
      simp only [truncate] at diff nextDay
      rw [min_eq_left (le_trans (by norm_num) (daysInMonth_bounds _ _).1)] at nextDay
      simp only [NaiveDate.daysSinceEpoch, nextDay] at diff ⊢
      omega
    | day =>
      obtain ⟨next, -⟩ := DateTime.addDays_one_eq_ok.mp stepped
      have := NaiveDate.daysSinceEpoch_succOpt next
      simp only [truncate] at this
      omega
  simp only [DateTime.timestamp, endTime, NaiveTime.midnight]
  omega

/-- A step fails only from chrono's last year, with the message of the `+` that panics. -/
theorem step_error {field : DateField} {begin : DateTime} {message : String}
    (fails : field.step begin = .error message) :
    begin.date.year = maxYear ∧ (message = "`DateTime + Months` out of range" ∨
      message = "`DateTime + Days` out of range") := by
  have inRange := begin.date.valid.2.1
  cases field <;> simp only [step, DateTime.addMonths, DateTime.addDays] at fails <;>
    split at fails <;> cases fails <;> refine ⟨?_, by simp⟩ <;> by_contra notLast <;>
    rename_i missing
  · have := NaiveDate.checkedAddMonths_isSome (lt_of_le_of_ne inRange notLast) (by decide : 12 ≤ 12)
    simp_all
  · have := NaiveDate.checkedAddMonths_isSome (lt_of_le_of_ne inRange notLast) (by decide : 1 ≤ 12)
    simp_all
  · have := NaiveDate.succOpt_isSome (lt_of_le_of_ne inRange notLast)
    simp_all [NaiveDate.checkedAddDays]

end DateField

open DateField

/-- The finest field the items name. -/
def finestField : List Item → Option DateField
  | [] => none
  | item :: items => finer (ofItem item) (finestField items)

/-- For date items, the finest field is the day if a day item is there, else the month if a
month item is, else the year if a year item is. -/
theorem finestField_eq {items : List Item} (dates : ∀ item ∈ items, item.isDate) :
    finestField items =
      if HasKind .day items then some .day
      else if HasKind .month items then some .month
      else if HasKind .year items then some .year
      else none := by
  induction items with
  | nil => simp [finestField]
  | cons item items inductionHypothesis =>
    have date := dates item (.head _)
    rw [finestField, inductionHypothesis fun item member => dates item (.tail _ member)]
    cases item with
    | numeric kind pad =>
      cases kind <;> simp [Item.isDate] at date <;>
        simp only [hasKind_cons, Item.numericKind, ofItem] <;> split_ifs <;> simp_all [finer, rank]
    | fixed | error => simp [Item.isDate] at date
    | literal | space => simp [hasKind_cons, Item.numericKind, ofItem, finer]

/-- The finest field of date items is the day exactly when a day item is there, and finer than
the year exactly when a month or a day item is. -/
theorem hasKind_of_finestField {items : List Item} (dates : ∀ item ∈ items, item.isDate)
    {field : DateField} (found : finestField items = some field) :
    (HasKind .day items ↔ field = .day) ∧
      (HasKind .month items ∨ HasKind .day items ↔ field ≠ .year) := by
  rw [finestField_eq dates] at found
  split_ifs at found <;> cases found <;> simp_all

/-- The loop over the items ends at one step of the finest field among those seen and those
left, when every item left is a date item; any other item ends it with `none`. -/
theorem itemsEnd_eq_some {begin rangeEnd : DateTime} {items : List Item}
    {seen : Option DateField} {current : Option DateTime}
    (tracks : (seen = none ∧ current = none) ∨
      ∃ field currentEnd, seen = some field ∧ current = some currentEnd ∧
        field.step begin = .ok currentEnd)
    (ends : itemsEnd begin current items = .ok (some (some rangeEnd))) :
    (∀ item ∈ items, item.isDate) ∧
      ∃ field, finer seen (finestField items) = some field ∧ field.step begin = .ok rangeEnd := by
  induction items generalizing seen current with
  | nil =>
    simp only [itemsEnd, Except.ok.injEq, Option.some.injEq] at ends
    subst ends
    obtain ⟨-, ⟨⟩⟩ | ⟨field, _, rfl, ⟨⟩, stepped⟩ := tracks
    exact ⟨nofun, field, rfl, stepped⟩
  | cons item items inductionHypothesis =>
    -- a numeric date item moves the end so far to the nearer of it and the item's step
    have numeric : ∀ (field : DateField) (itemEnd : DateTime), field.step begin = .ok itemEnd →
        itemsEnd begin (some (nearerEnd begin current itemEnd)) items = .ok (some (some rangeEnd)) →
        ∀ item, ofItem item = some field → item.isDate →
        (∀ item' ∈ item :: items, item'.isDate) ∧ ∃ finest,
          finer seen (finestField (item :: items)) = some finest ∧
            finest.step begin = .ok rangeEnd := by
      intro field itemEnd stepped later item named date
      rw [finestField, named, ← finer_assoc]
      have tracksLater : ∃ finest currentEnd, finer seen (some field) = some finest ∧
          some (nearerEnd begin current itemEnd) = some currentEnd ∧
          finest.step begin = .ok currentEnd := by
        obtain ⟨rfl, rfl⟩ | ⟨seenField, currentEnd, rfl, rfl, currentStep⟩ := tracks
        · exact ⟨field, itemEnd, rfl, rfl, stepped⟩
        · obtain ⟨finest, named, finestStep⟩ := nearerEnd_step currentStep stepped
          exact ⟨finest, _, named, rfl, finestStep⟩
      obtain ⟨dates, found⟩ := inductionHypothesis (.inr tracksLater) later
      exact ⟨List.forall_mem_cons.mpr ⟨date, dates⟩, found⟩
    cases item with
    | literal | space =>
      obtain ⟨dates, found⟩ := inductionHypothesis tracks ends
      exact ⟨List.forall_mem_cons.mpr ⟨rfl, dates⟩, by simpa [finestField, ofItem] using found⟩
    | numeric kind pad =>
      cases kind <;> simp only [itemsEnd, bind_eq_ok, Except.ok.injEq, reduceCtorEq] at ends <;>
        obtain ⟨itemEnd, stepped, later⟩ := ends
      exacts [numeric .year itemEnd stepped later _ rfl rfl,
        numeric .month itemEnd stepped later _ rfl rfl, numeric .day itemEnd stepped later _ rfl rfl]
    | fixed | error => simp [itemsEnd] at ends

/-- `parsed_implicit_defaults` on fields holding at most a date: a year is required, a day
without a month is refused, and the rest is January, the first and midnight. -/
theorem parsedImplicitDefaults_ofDate (year : Option Int) (month day : Option Nat) :
    parsedImplicitDefaults (.ofDate year month day) =
      if year.isSome ∧ (month.isSome ∨ day.isNone) then
        some ⟨year, some (month.getD 1), some (day.getD 1), some 0, some 0, some 0, none, none⟩
      else none := by
  cases year <;> cases month <;> cases day <;> rfl

/-- The time the defaults give is midnight. -/
theorem toNaiveTime_of_defaults (year : Option Int) (month day : Option Nat) :
    Fields.toNaiveTime ⟨year, month, day, some 0, some 0, some 0, none, none⟩ =
      some .midnight := rfl

/-- What `begin` is for a format of date items: the fields parsed, a year among them (and a
month if a day is), completed with January, the first and midnight. -/
theorem timeBegin_eq_some {extension : Extension} {value : List Char} {items : List Item}
    (dates : ∀ item ∈ items, item.isDate) {begin : DateTime}
    (begins : timeBegin extension value items = some begin) :
    ∃ year month day, parse .bare (Parsed.new ()) value items =
        some ⟨.ofDate (settle .year items year none) (settle .month items month none)
          (settle .day items day none), ()⟩ ∧
      HasKind .year items ∧ (HasKind .day items → HasKind .month items) ∧
      begin.date.year = year ∧ begin.date.month = (if HasKind .month items then month else 1) ∧
      begin.date.day = (if HasKind .day items then day else 1) ∧ begin.time = .midnight := by
  simp only [timeBegin, Parsed.new, parse_of_isDate extension dates, Option.bind_eq_bind,
    Option.bind_eq_some, Option.map_eq_some'] at begins
  obtain ⟨_, ⟨parsed, parses, rfl⟩, fields, defaults, resolved⟩ := begins
  have parsesItems := parses
  simp only [parse, Option.bind_eq_bind, Option.bind_eq_some] at parsesItems
  obtain ⟨⟨rest, _⟩, parsesItems, finished⟩ := parsesItems
  split_ifs at finished
  cases finished
  obtain ⟨year, month, day, rfl⟩ := parseItems_ofDate dates parsesItems
  refine ⟨year, month, day, parses, ?_⟩
  rw [parsedImplicitDefaults_ofDate] at defaults
  split_ifs at defaults with required
  cases defaults
  have namesYear : HasKind .year items := by
    by_contra missing; simp [settle, missing] at required
  have dayNeedsMonth : HasKind .day items → HasKind .month items := by
    intro namesDay; by_contra missing; simp [settle, namesDay, missing] at required
  rw [Parsed.toDatetime, extension.resolve_none _ _ rfl] at resolved
  simp only [settle, if_pos namesYear, Fields.toNaiveDate, Option.bind_eq_bind, Option.some_bind,
    Option.bind_eq_some, Option.pure_def, Option.some.injEq] at resolved
  obtain ⟨date, found, time, timeIs, rfl⟩ := resolved
  obtain ⟨-, dateYear, dateMonth, dateDay⟩ := NaiveDate.fromYmdOpt_eq_some.mp found
  rw [toNaiveTime_of_defaults, Option.some.injEq] at timeIs
  refine ⟨namesYear, dayNeedsMonth, dateYear, ?_, ?_, timeIs.symm⟩
  · rw [dateMonth]; split_ifs <;> rfl
  · rw [dateDay]; split_ifs <;> rfl

/-- A time piece decodes to a range exactly when `begin` is found and the loop over the items
ends at `end`. -/
theorem parsePartTimeFormat_eq_datetime {extension : Extension} {value : List Char}
    {format : String} {begin rangeEnd : DateTime} :
    parsePartTimeFormat extension value format = .ok (some (.datetime begin rangeEnd)) ↔
      timeBegin extension value (StrftimeItems.new format) = some begin ∧
        itemsEnd begin none (StrftimeItems.new format) = .ok (some (some rangeEnd)) := by
  simp only [parsePartTimeFormat]
  split <;> rename_i begins
  · simp [begins]
  · simp only [bind_eq_ok, begins, Option.some.injEq, pure, Except.pure, Except.ok.injEq]
    constructor
    · rintro ⟨(_ | _ | found), ends, decoded⟩ <;> simp at decoded
      obtain ⟨rfl, rfl⟩ := decoded
      exact ⟨rfl, ends⟩
    · rintro ⟨rfl, ends⟩
      exact ⟨_, ends, rfl⟩

/-- For a format of date items, a time piece decodes the same under every extension. -/
theorem parsePartTimeFormat_of_isDate (extension : Extension) {format : String}
    (dates : ∀ item ∈ StrftimeItems.new format, item.isDate) (value : List Char) :
    parsePartTimeFormat extension value format = parsePartTimeFormat .bare value format := by
  have sameBegin : timeBegin extension value (StrftimeItems.new format) =
      timeBegin .bare value (StrftimeItems.new format) := by
    simp only [timeBegin, Parsed.new, parse_of_isDate extension dates, Option.bind_eq_bind]
    show _ = (parse .bare ⟨Fields.empty, ()⟩ value _).bind _
    cases parse .bare ⟨Fields.empty, ()⟩ value (StrftimeItems.new format) with
    | none => rfl
    | some parsed =>
      simp only [Option.map_some', Option.some_bind]
      cases parsedImplicitDefaults parsed.fields with
      | none => rfl
      | some fields =>
        simp only [Option.some_bind, Parsed.toDatetime,
          extension.resolve_none ⟨fields, extension.none⟩ _ rfl]
        rfl
  simp only [parsePartTimeFormat, sameBegin]

/-- A time piece that decodes to a range has a format of date items that names a month if it
names a day, and its `begin` is the start of the finest field the format names, `end` one step
of that field later. -/
theorem parsePartTimeFormat_begin_truncated {extension : Extension} {value : List Char}
    {format : String} {begin rangeEnd : DateTime}
    (decodes : parsePartTimeFormat extension value format = .ok (some (.datetime begin rangeEnd))) :
    (∀ item ∈ StrftimeItems.new format, item.isDate) ∧
      (HasKind .day (StrftimeItems.new format) → HasKind .month (StrftimeItems.new format)) ∧
      ∃ field, finestField (StrftimeItems.new format) = some field ∧
        field.truncate begin = begin ∧ field.step begin = .ok rangeEnd := by
  obtain ⟨begins, ends⟩ := parsePartTimeFormat_eq_datetime.mp decodes
  obtain ⟨dates, field, found, stepped⟩ := itemsEnd_eq_some (.inl ⟨rfl, rfl⟩) ends
  obtain ⟨_, _, _, -, -, dayNeedsMonth, -, beginMonth, beginDay, midnight⟩ :=
    timeBegin_eq_some dates begins
  refine ⟨dates, dayNeedsMonth, field, found, ?_, stepped⟩
  obtain ⟨namesDay, finerThanYear⟩ := hasKind_of_finestField dates found
  refine truncate_of_start midnight (fun notDay => ?_) (fun isYear => ?_)
  · rw [beginDay, if_neg (mt namesDay.mp notDay)]
  · rw [beginMonth, if_neg fun namesMonth => finerThanYear.mp (.inl namesMonth) isYear]

/-- Whenever a time piece decodes to a range, its format is made of date items and names a
year, and a month if it names a day; `begin` is the start of the finest field the format names,
`end` is one step of that field later, and `begin < end`. -/
theorem parsePartTimeFormat_datetime {extension : Extension} {value : List Char}
    {format : String} {begin rangeEnd : DateTime}
    (decodes : parsePartTimeFormat extension value format = .ok (some (.datetime begin rangeEnd))) :
    (∀ item ∈ StrftimeItems.new format, item.isDate) ∧ HasKind .year (StrftimeItems.new format) ∧
      (HasKind .day (StrftimeItems.new format) → HasKind .month (StrftimeItems.new format)) ∧
      ∃ field, finestField (StrftimeItems.new format) = some field ∧
        field.truncate begin = begin ∧ field.step begin = .ok rangeEnd ∧
        begin.timestamp < rangeEnd.timestamp := by
  obtain ⟨dates, dayNeedsMonth, field, found, truncated, stepped⟩ :=
    parsePartTimeFormat_begin_truncated decodes
  obtain ⟨_, _, _, -, namesYear, -⟩ :=
    timeBegin_eq_some dates (parsePartTimeFormat_eq_datetime.mp decodes).1
  exact ⟨dates, namesYear, dayNeedsMonth, field, found, truncated, stepped,
    timestamp_lt_step stepped⟩

theorem parsePartTimeFormat_datetime_of_day_piece :
    parsePartTimeFormat .bare "2023-01-15".toList "%Y-%m-%d" =
        .ok (some (.datetime ⟨⟨2023, 1, 15, by decide⟩, .midnight⟩
          ⟨⟨2023, 1, 16, by decide⟩, .midnight⟩)) ∧
      (∀ item ∈ StrftimeItems.new "%Y-%m-%d", item.isDate) ∧
      HasKind .year (StrftimeItems.new "%Y-%m-%d") ∧
      (HasKind .day (StrftimeItems.new "%Y-%m-%d") → HasKind .month (StrftimeItems.new "%Y-%m-%d")) ∧
      ∃ field, finestField (StrftimeItems.new "%Y-%m-%d") = some field ∧
        field.truncate ⟨⟨2023, 1, 15, by decide⟩, .midnight⟩ = ⟨⟨2023, 1, 15, by decide⟩, .midnight⟩ ∧
        field.step ⟨⟨2023, 1, 15, by decide⟩, .midnight⟩ = .ok ⟨⟨2023, 1, 16, by decide⟩, .midnight⟩ ∧
        (⟨⟨2023, 1, 15, by decide⟩, .midnight⟩ : DateTime).timestamp <
          (⟨⟨2023, 1, 16, by decide⟩, .midnight⟩ : DateTime).timestamp :=
  have decodes : parsePartTimeFormat .bare "2023-01-15".toList "%Y-%m-%d" =
      .ok (some (.datetime ⟨⟨2023, 1, 15, by decide⟩, .midnight⟩
        ⟨⟨2023, 1, 16, by decide⟩, .midnight⟩)) := rfl
  ⟨decodes, parsePartTimeFormat_datetime decodes⟩

/-- The piece a timestamp renders to, through a format whose month and day numbers are each
zero-padded or followed by what stops chrono's digit scan, decodes (when it decodes to a range)
to the range of the finest field around the timestamp. -/
theorem parsePartTimeFormat_rendered {extension : Extension} {format : String}
    {dateTime : DateTime} {rendered : List Char} {begin rangeEnd : DateTime}
    (unambiguous : Unambiguous (StrftimeItems.new format))
    (representable : -2 ^ 63 ≤ dateTime.timestamp ∧ dateTime.timestamp < 2 ^ 63)
    (noLeapSecond : dateTime.time.frac < 1000000000)
    (renders : renderItems extension dateTime (StrftimeItems.new format) = some rendered)
    (decodes : parsePartTimeFormat extension rendered format =
      .ok (some (.datetime begin rangeEnd))) :
    ∃ field, finestField (StrftimeItems.new format) = some field ∧
      begin = field.truncate dateTime ∧ field.step begin = .ok rangeEnd ∧
      begin.timestamp ≤ dateTime.timestamp ∧ dateTime.timestamp < rangeEnd.timestamp := by
  obtain ⟨dates, dayNeedsMonth, field, found, truncated, stepped⟩ :=
    parsePartTimeFormat_begin_truncated decodes
  obtain ⟨year, month, day, parses, namesYear, -, beginYear, beginMonth, beginDay, -⟩ :=
    timeBegin_eq_some dates (parsePartTimeFormat_eq_datetime.mp decodes).1
  -- the rendering parses back to the fields of the timestamp the format names
  have inRange := DateTime.year_of_timestamp representable
  obtain ⟨text, rendersBare, parsesRendered⟩ := parseItems_renderItems
    (⟨by omega, by omega⟩ : 1000 ≤ dateTime.date.year ∧ dateTime.date.year < 10000) dates
    (StrftimeItems.new_wellFormed format) unambiguous
    (fun _ _ empty => nomatch empty :
      ∀ c after, ([] : List Char) = c :: after → c.isDigit = false ∧ isWhitespace c = false)
    ⟨.inl rfl, .inl rfl, .inl rfl⟩
  rw [renderItems_of_isDate extension dateTime dates, rendersBare, Option.some.injEq] at renders
  subst renders
  have readBack := parsesRendered _ (.inl rfl)
  rw [List.append_nil] at readBack
  simp only [parse, Parsed.new, Fields.empty, Option.bind_eq_bind] at parses
  rw [show (⟨none, none, none, none, none, none, none, none⟩ : Fields) = .ofDate none none none
    from rfl, readBack] at parses
  simp only [Option.some_bind, if_true, Option.some.injEq, Parsed.mk.injEq, Fields.ofDate,
    Fields.mk.injEq, and_true, settle, if_pos namesYear] at parses
  obtain ⟨sameYear, sameMonth, sameDay⟩ := parses
  -- so `begin` is the start of the finest field around the timestamp
  obtain ⟨namesDay, finerThanYear⟩ := hasKind_of_finestField dates found
  have beginIs : begin = field.truncate dateTime := by
    rw [← truncated]
    refine truncate_congr (by rw [beginYear, sameYear]) (fun notYear => ?_) (fun isDay => ?_)
    · have namesMonth := (finerThanYear.mpr notYear).elim id dayNeedsMonth
      rw [beginMonth, if_pos namesMonth]
      simpa [namesMonth, eq_comm] using sameMonth
    · rw [beginDay, if_pos (namesDay.mpr isDay)]
      simpa [namesDay.mpr isDay, eq_comm] using sameDay
  refine ⟨field, found, beginIs, stepped, beginIs ▸ timestamp_truncate_le _ _, ?_⟩
  rw [beginIs] at stepped
  exact lt_step_truncate noLeapSecond stepped

theorem parsePartTimeFormat_rendered_of_day_format :
    Unambiguous (StrftimeItems.new "%-Y%m%d") ∧
      (-2 ^ 63 ≤ (⟨⟨2023, 1, 15, by decide⟩, ⟨43200, 0, by decide⟩⟩ : DateTime).timestamp ∧
        (⟨⟨2023, 1, 15, by decide⟩, ⟨43200, 0, by decide⟩⟩ : DateTime).timestamp < 2 ^ 63) ∧
      (⟨43200, 0, by decide⟩ : NaiveTime).frac < 1000000000 ∧
      renderItems .bare ⟨⟨2023, 1, 15, by decide⟩, ⟨43200, 0, by decide⟩⟩
        (StrftimeItems.new "%-Y%m%d") = some "20230115".toList ∧
      parsePartTimeFormat .bare "20230115".toList "%-Y%m%d" =
        .ok (some (.datetime ⟨⟨2023, 1, 15, by decide⟩, .midnight⟩
          ⟨⟨2023, 1, 16, by decide⟩, .midnight⟩)) ∧
      ∃ field, finestField (StrftimeItems.new "%-Y%m%d") = some field ∧
        ⟨⟨2023, 1, 15, by decide⟩, .midnight⟩ =
          field.truncate ⟨⟨2023, 1, 15, by decide⟩, ⟨43200, 0, by decide⟩⟩ ∧
        field.step ⟨⟨2023, 1, 15, by decide⟩, .midnight⟩ = .ok ⟨⟨2023, 1, 16, by decide⟩, .midnight⟩ ∧
        (⟨⟨2023, 1, 15, by decide⟩, .midnight⟩ : DateTime).timestamp ≤
          (⟨⟨2023, 1, 15, by decide⟩, ⟨43200, 0, by decide⟩⟩ : DateTime).timestamp ∧
        (⟨⟨2023, 1, 15, by decide⟩, ⟨43200, 0, by decide⟩⟩ : DateTime).timestamp <
          (⟨⟨2023, 1, 16, by decide⟩, .midnight⟩ : DateTime).timestamp :=
  have unambiguous : Unambiguous (StrftimeItems.new "%-Y%m%d") := by decide
  have representable :
      -2 ^ 63 ≤ (⟨⟨2023, 1, 15, by decide⟩, ⟨43200, 0, by decide⟩⟩ : DateTime).timestamp ∧
        (⟨⟨2023, 1, 15, by decide⟩, ⟨43200, 0, by decide⟩⟩ : DateTime).timestamp < 2 ^ 63 := by
    decide
  have noLeapSecond : (⟨43200, 0, by decide⟩ : NaiveTime).frac < 1000000000 := by decide
  have renders : renderItems .bare ⟨⟨2023, 1, 15, by decide⟩, ⟨43200, 0, by decide⟩⟩
      (StrftimeItems.new "%-Y%m%d") = some "20230115".toList := rfl
  have decodes : parsePartTimeFormat .bare "20230115".toList "%-Y%m%d" =
      .ok (some (.datetime ⟨⟨2023, 1, 15, by decide⟩, .midnight⟩
        ⟨⟨2023, 1, 16, by decide⟩, .midnight⟩)) := rfl
  ⟨unambiguous, representable, noLeapSecond, renders, decodes,
    parsePartTimeFormat_rendered unambiguous representable noLeapSecond renders decodes⟩

/-- Through `%Y%-m%-d`, which validation accepts, January 15, 2023 renders as `2023115`, and
chrono's greedy scan reads that back as November 5: the range decoded does not hold the row's
time. -/
theorem unpadded_month_decodes_another_day :
    Wrapper.tryFrom ⟨[⟨some (.timeFormat "%Y%-m%-d")⟩]⟩ = .ok ⟨⟨[⟨some (.timeFormat "%Y%-m%-d")⟩]⟩⟩ ∧
      renderItems .bare ⟨⟨2023, 1, 15, by decide⟩, .midnight⟩ (StrftimeItems.new "%Y%-m%-d") =
        some "2023115".toList ∧
      parsePartTimeFormat .bare "2023115".toList "%Y%-m%-d" =
        .ok (some (.datetime ⟨⟨2023, 11, 5, by decide⟩, .midnight⟩
          ⟨⟨2023, 11, 6, by decide⟩, .midnight⟩)) ∧
      (⟨⟨2023, 1, 15, by decide⟩, .midnight⟩ : DateTime).timestamp <
        (⟨⟨2023, 11, 5, by decide⟩, .midnight⟩ : DateTime).timestamp :=
  ⟨rfl, rfl, rfl, by decide⟩

/-- The loop over the items fails only at a step. -/
theorem itemsEnd_error {begin : DateTime} {current : Option DateTime} {items : List Item}
    {message : String} (fails : itemsEnd begin current items = .error message) :
    ∃ field : DateField, field.step begin = .error message := by
  induction items generalizing current with
  | nil => cases fails
  | cons item items inductionHypothesis =>
    cases item with
    | literal | space => exact inductionHypothesis fails
    | numeric kind pad =>
      cases kind <;> simp only [itemsEnd] at fails <;> first | cases fails | skip
      all_goals obtain failed | ⟨_, _, later⟩ := bind_eq_error.mp fails
      exacts [⟨.year, failed⟩, inductionHypothesis later, ⟨.month, failed⟩,
        inductionHypothesis later, ⟨.day, failed⟩, inductionHypothesis later]
    | fixed | error => cases fails

/-- A time piece fails only when its `begin` lies in chrono's last year, with the message of the
`+` that panics. -/
theorem parsePartTimeFormat_error {extension : Extension} {value : List Char} {format : String}
    {message : String} (fails : parsePartTimeFormat extension value format = .error message) :
    ∃ begin, timeBegin extension value (StrftimeItems.new format) = some begin ∧
      begin.date.year = maxYear ∧ (message = "`DateTime + Months` out of range" ∨
        message = "`DateTime + Days` out of range") := by
  simp only [parsePartTimeFormat] at fails
  split at fails <;> rename_i begins
  · cases fails
  · obtain failed | ⟨_, _, finished⟩ := bind_eq_error.mp fails
    · obtain ⟨field, stepFails⟩ := itemsEnd_error failed
      exact ⟨_, begins, step_error stepFails⟩
    · cases finished

theorem parsePartTimeFormat_error_of_last_year :
    parsePartTimeFormat .bare "+262142".toList "%Y" = .error "`DateTime + Months` out of range" ∧
      ∃ begin, timeBegin .bare "+262142".toList (StrftimeItems.new "%Y") = some begin ∧
        begin.date.year = maxYear ∧ ("`DateTime + Months` out of range" =
          "`DateTime + Months` out of range" ∨
          "`DateTime + Months` out of range" = "`DateTime + Days` out of range") :=
  have fails : parsePartTimeFormat .bare "+262142".toList "%Y" =
      .error "`DateTime + Months` out of range" := rfl
  ⟨fails, parsePartTimeFormat_error fails⟩

/-- A `+`-signed piece of chrono's last year, under `%Y`, panics on `begin + Months::new(12)`,
whatever the fields the model leaves abstract. -/
theorem last_year_piece_panics (extension : Extension) :
    parsePartTimeFormat extension "+262142".toList "%Y" =
      .error "`DateTime + Months` out of range" := by
  rw [parsePartTimeFormat_of_isDate extension (by decide)]
  rfl

end InfluxCore.DataTypes
