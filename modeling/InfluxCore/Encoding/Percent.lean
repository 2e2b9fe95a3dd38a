import InfluxCore.Encoding.Utf8

/-! # Percent-encoding over an `AsciiSet`, and its decoding

The `percent_encoding` crate writes every byte that is not ASCII, or that lies in the given
`AsciiSet`, as `%` and two upper-case hexadecimal digits, and every other byte as itself.
`percent_decode` reads a `%` followed by two hexadecimal digits of either case as the byte they
spell, and leaves any other `%` as it is.

`percentDecode_percentEncode_append` is the round trip: when the set holds `%` itself, decoding
an encoding followed by anything gives the bytes back, then the decoding of what follows. The
other lemmas say what an encoding cannot contain: bytes of the set, non-ASCII bytes, and (as
its last byte) anything of the set.
-/

namespace InfluxCore.PercentEncoding

/-- `percent_encoding::AsciiSet`: the ASCII bytes it holds. -/
structure AsciiSet where
  members : List Nat
  deriving DecidableEq, Repr

namespace AsciiSet

/-- `AsciiSet::contains`. -/
def contains (set : AsciiSet) (byte : Nat) : Bool :=
  byte ∈ set.members

/-- `AsciiSet::add`. -/
def add (set : AsciiSet) (byte : Nat) : AsciiSet :=
  ⟨byte :: set.members⟩

/-- `AsciiSet::should_percent_encode`: every non-ASCII byte, and the bytes of the set. -/
def shouldPercentEncode (set : AsciiSet) (byte : Nat) : Bool :=
  0x80 ≤ byte || set.contains byte

@[simp] theorem contains_add (set : AsciiSet) (added byte : Nat) :
    (set.add added).contains byte = true ↔ byte = added ∨ set.contains byte = true := by
  simp [contains, add]

end AsciiSet

/-- `CONTROLS`: the C0 control bytes and DEL. -/
def controls : AsciiSet :=
  ⟨List.range 0x20 ++ [0x7F]⟩

/-- The upper-case hexadecimal digit of a nibble. -/
def hexUpper (nibble : Nat) : Nat :=
  if nibble < 10 then 0x30 + nibble else 0x37 + nibble

/-- `percent_encode`, as the bytes of the text it displays. -/
def percentEncode (set : AsciiSet) (bytes : List Nat) : List Nat :=
  bytes.flatMap fun byte =>
    if set.shouldPercentEncode byte then [0x25, hexUpper (byte / 16), hexUpper (byte % 16)]
    else [byte]

/-- `char::from(byte).to_digit(16)`. -/
def hexValue (byte : Nat) : Option Nat :=
  if 0x30 ≤ byte ∧ byte ≤ 0x39 then some (byte - 0x30)
  else if 0x41 ≤ byte ∧ byte ≤ 0x46 then some (byte - 0x37)
  else if 0x61 ≤ byte ∧ byte ≤ 0x66 then some (byte - 0x57)
  else none

/-- `percent_decode`: a `%` and two hexadecimal digits (`after_percent_sign`) become one byte;
any other `%` stays. -/
def percentDecode : List Nat → List Nat
  | 0x25 :: tail@(high :: low :: rest) =>
    match hexValue high, hexValue low with
    | some high, some low => (high * 16 + low) :: percentDecode rest
    | _, _ => 0x25 :: percentDecode tail
  | byte :: rest => byte :: percentDecode rest
  | [] => []

theorem hexValue_hexUpper {nibble : Nat} (small : nibble < 16) :
    hexValue (hexUpper nibble) = some nibble := by
  unfold hexUpper hexValue
  split_ifs <;> first | rfl | omega | (congr 1; omega)

theorem hexUpper_lt (nibble : Nat) (small : nibble < 16) : hexUpper nibble < 0x80 := by
  unfold hexUpper; split_ifs <;> omega

@[simp] theorem percentEncode_nil (set : AsciiSet) : percentEncode set [] = [] := rfl

theorem percentEncode_cons (set : AsciiSet) (byte : Nat) (bytes : List Nat) :
    percentEncode set (byte :: bytes) =
      (if set.shouldPercentEncode byte then [0x25, hexUpper (byte / 16), hexUpper (byte % 16)]
        else [byte]) ++ percentEncode set bytes := rfl

@[simp] theorem percentEncode_append (set : AsciiSet) (first second : List Nat) :
    percentEncode set (first ++ second) = percentEncode set first ++ percentEncode set second := by
  simp [percentEncode]

theorem percentDecode_of_ne {byte : Nat} (notPercent : byte ≠ 0x25) (rest : List Nat) :
    percentDecode (byte :: rest) = byte :: percentDecode rest := by
  rw [percentDecode]
  exact fun _ _ _ isPercent _ => notPercent isPercent

theorem percentDecode_escape {byte : Nat} (small : byte < 256) (rest : List Nat) :
    percentDecode (0x25 :: hexUpper (byte / 16) :: hexUpper (byte % 16) :: rest) =
      byte :: percentDecode rest := by
  rw [percentDecode, hexValue_hexUpper (by omega), hexValue_hexUpper (by omega)]
  simp only [List.cons.injEq, and_true]
  omega

/-- A `%` not followed by two hexadecimal digits is kept. -/
theorem percentDecode_of_not_escape {high low : Nat}
    (notEscape : ∀ highValue lowValue, hexValue high = some highValue →
      hexValue low = some lowValue → False) (rest : List Nat) :
    percentDecode (0x25 :: high :: low :: rest) = 0x25 :: percentDecode (high :: low :: rest) := by
  rw [percentDecode]
  split
  · exact (notEscape _ _ ‹_› ‹_›).elim
  · rfl

/-- A last byte that is neither `%` nor a hexadecimal digit is kept, and changes nothing before
it. -/
theorem percentDecode_append_of_not_hex {last : Nat} (notPercent : last ≠ 0x25)
    (notHex : hexValue last = none) (bytes : List Nat) :
    percentDecode (bytes ++ [last]) = percentDecode bytes ++ [last] := by
  induction bytes using percentDecode.induct with
  | case1 high low rest high' low' isLow isHigh inductionHypothesis =>
    simp only [List.cons_append, percentDecode, isHigh, isLow, inductionHypothesis]
  | case2 high low rest notEscape inductionHypothesis =>
    simp only [List.cons_append, percentDecode_of_not_escape notEscape] at inductionHypothesis ⊢
    rw [inductionHypothesis]
  | case3 byte rest notEscape inductionHypothesis =>
    have kept : percentDecode (byte :: (rest ++ [last])) = byte :: percentDecode (rest ++ [last]) :=
      match rest, notEscape with
      | [], _ => percentDecode.eq_2 _ _ (by simp)
      | [_], _ =>
        if percent : byte = 0x25 then
          percent ▸ percentDecode_of_not_escape (fun _ _ _ isHex => by simp [notHex] at isHex) []
        else percentDecode_of_ne percent _
      | _ :: _ :: _, notEscape =>
        percentDecode.eq_2 _ _ fun _ _ _ isPercent _ => notEscape _ _ _ isPercent rfl
    rw [List.cons_append, kept, inductionHypothesis, percentDecode.eq_2 byte rest notEscape]
    rfl
  | case4 =>
    rw [List.nil_append, percentDecode_of_ne notPercent, percentDecode.eq_3]
    rfl

section RoundTrip

variable {set : AsciiSet} (encodesPercent : set.contains 0x25)
include encodesPercent

/-- Decoding an encoding, followed by anything, gives the bytes back. -/
theorem percentDecode_percentEncode_append (bytes rest : List Nat)
    (small : ∀ byte ∈ bytes, byte < 256) :
    percentDecode (percentEncode set bytes ++ rest) = bytes ++ percentDecode rest := by
  induction bytes with
  | nil => rfl
  | cons byte bytes inductionHypothesis =>
    have smallRest : ∀ byte ∈ bytes, byte < 256 := fun b mem => small b (.tail _ mem)
    rw [percentEncode_cons, List.append_assoc]
    split_ifs with encoded
    · rw [List.cons_append, List.cons_append, List.cons_append, List.nil_append,
        percentDecode_escape (small byte (.head _)), inductionHypothesis smallRest]
      rfl
    · have notPercent : byte ≠ 0x25 := by
        rintro rfl; simp [AsciiSet.shouldPercentEncode, encodesPercent] at encoded
      rw [List.singleton_append, percentDecode_of_ne notPercent, inductionHypothesis smallRest]
      rfl

end RoundTrip

/-- Every byte of an encoding is ASCII and outside the set, or one of `%` and the hexadecimal
digits of an escape. -/
theorem mem_percentEncode {set : AsciiSet} {bytes : List Nat} {out : Nat}
    (small : ∀ byte ∈ bytes, byte < 256) (mem : out ∈ percentEncode set bytes) :
    (out < 0x80 ∧ set.contains out = false) ∨ out = 0x25 ∨ (∃ nibble < 16, out = hexUpper nibble) := by
  simp only [percentEncode, List.mem_flatMap] at mem
  obtain ⟨byte, member, escaped⟩ := mem
  split_ifs at escaped with encoded
  · simp only [List.mem_cons, List.not_mem_nil, or_false] at escaped
    have := small byte member
    rcases escaped with rfl | rfl | rfl
    · exact .inr (.inl rfl)
    · exact .inr (.inr ⟨byte / 16, by omega, rfl⟩)
    · exact .inr (.inr ⟨byte % 16, by omega, rfl⟩)
  · simp only [List.mem_singleton] at escaped
    subst escaped
    simp only [AsciiSet.shouldPercentEncode, Bool.or_eq_true, decide_eq_true_eq, not_or] at encoded
    exact .inl ⟨by omega, by simpa using encoded.2⟩

/-- An encoding is ASCII. -/
theorem lt_of_mem_percentEncode {set : AsciiSet} {bytes : List Nat} {out : Nat}
    (small : ∀ byte ∈ bytes, byte < 256) (mem : out ∈ percentEncode set bytes) : out < 0x80 := by
  rcases mem_percentEncode small mem with ⟨ascii, -⟩ | rfl | ⟨nibble, lt, rfl⟩
  · exact ascii
  · decide
  · exact hexUpper_lt nibble lt

/-- A byte of the set other than `%` and the hexadecimal digits is never in an encoding. -/
theorem not_mem_percentEncode {set : AsciiSet} {bytes : List Nat} {byte : Nat}
    (small : ∀ byte ∈ bytes, byte < 256) (encoded : set.contains byte) (notPercent : byte ≠ 0x25)
    (notHex : ∀ nibble < 16, byte ≠ hexUpper nibble) : byte ∉ percentEncode set bytes := by
  intro mem
  rcases mem_percentEncode small mem with ⟨-, kept⟩ | percent | ⟨nibble, lt, hex⟩
  · simp [encoded] at kept
  · exact notPercent percent
  · exact notHex nibble lt hex

/-- The last byte of an encoding is the last byte encoded, or a hexadecimal digit. -/
theorem getLast_percentEncode {set : AsciiSet} {bytes : List Nat} (small : ∀ byte ∈ bytes, byte < 256)
    {last : Nat} (isLast : (percentEncode set bytes).getLast? = some last) :
    (set.contains last = false) ∨ (∃ nibble < 16, last = hexUpper nibble) := by
  induction bytes using List.reverseRecOn with
  | nil => simp at isLast
  | append_singleton bytes byte _ =>
    have := small byte (by simp)
    simp only [percentEncode_append, percentEncode_cons, percentEncode_nil, List.append_nil] at isLast
    split_ifs at isLast with encoded
    · simp [List.getLast?_append] at isLast
      exact .inr ⟨byte % 16, by omega, isLast.symm⟩
    · simp [List.getLast?_append] at isLast
      subst isLast
      simp only [AsciiSet.shouldPercentEncode, Bool.or_eq_true, decide_eq_true_eq, not_or] at encoded
      exact .inl (by simpa using encoded.2)

end InfluxCore.PercentEncoding
