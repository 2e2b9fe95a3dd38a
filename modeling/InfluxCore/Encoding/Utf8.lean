import Mathlib

/-! # UTF-8, as Rust's `str` stores it and `str::from_utf8` checks it

A string's bytes (`str::as_bytes`) are the UTF-8 encodings of its characters, one to four bytes
each (`encodeChar`, the arithmetic of `char::encode_utf8`). `str::from_utf8` accepts exactly
the well-formed sequences of RFC 3629: no overlong forms, no surrogates, nothing past
`U+10FFFF`; `decode` is that check, returning the characters.

`decode_encodeChar_append` is the one fact the partition key decoder needs: decoding the
encoding of a character followed by anything yields the character followed by what the rest
decodes to. Bytes are `Nat`s below 256.
-/

namespace InfluxCore.Utf8

/-- `char::encode_utf8`: the bytes of one Unicode scalar value. -/
def encodeChar (c : Char) : List Nat :=
  if c.toNat < 0x80 then [c.toNat]
  else if c.toNat < 0x800 then [0xC0 + c.toNat / 0x40, 0x80 + c.toNat % 0x40]
  else if c.toNat < 0x10000 then
    [0xE0 + c.toNat / 0x1000, 0x80 + c.toNat / 0x40 % 0x40, 0x80 + c.toNat % 0x40]
  else
    [0xF0 + c.toNat / 0x40000, 0x80 + c.toNat / 0x1000 % 0x40, 0x80 + c.toNat / 0x40 % 0x40,
      0x80 + c.toNat % 0x40]

/-- `str::as_bytes`. -/
def encode (chars : List Char) : List Nat :=
  chars.flatMap encodeChar

/-- A continuation byte, `10xxxxxx`. -/
def IsCont (byte : Nat) : Prop :=
  0x80 ≤ byte ∧ byte ≤ 0xBF

instance : DecidablePred IsCont := fun _ => inferInstanceAs (Decidable (_ ∧ _))

/-- The second byte a three-byte lead allows: `E0` excludes overlong forms and `ED` the
surrogates. -/
def SecondOfThree (lead byte : Nat) : Prop :=
  if lead = 0xE0 then 0xA0 ≤ byte ∧ byte ≤ 0xBF
  else if lead = 0xED then 0x80 ≤ byte ∧ byte ≤ 0x9F
  else IsCont byte

instance (lead : Nat) : DecidablePred (SecondOfThree lead) := fun _ =>
  inferInstanceAs (Decidable (ite _ _ _))

/-- The second byte a four-byte lead allows: `F0` excludes overlong forms and `F4` everything
past `U+10FFFF`. -/
def SecondOfFour (lead byte : Nat) : Prop :=
  if lead = 0xF0 then 0x90 ≤ byte ∧ byte ≤ 0xBF
  else if lead = 0xF4 then 0x80 ≤ byte ∧ byte ≤ 0x8F
  else IsCont byte

instance (lead : Nat) : DecidablePred (SecondOfFour lead) := fun _ =>
  inferInstanceAs (Decidable (ite _ _ _))

/-- The first character of a byte sequence and the bytes after it, when the sequence starts with
a well-formed encoding. -/
def decodeFirst : List Nat → Option (Char × List Nat)
  | b0 :: rest =>
    if b0 < 0x80 then some (Char.ofNat b0, rest)
    else if 0xC2 ≤ b0 ∧ b0 ≤ 0xDF then
      match rest with
      | b1 :: rest =>
        if IsCont b1 then some (Char.ofNat ((b0 - 0xC0) * 0x40 + (b1 - 0x80)), rest) else none
      | [] => none
    else if 0xE0 ≤ b0 ∧ b0 ≤ 0xEF then
      match rest with
      | b1 :: b2 :: rest =>
        if SecondOfThree b0 b1 ∧ IsCont b2 then
          some (Char.ofNat ((b0 - 0xE0) * 0x1000 + (b1 - 0x80) * 0x40 + (b2 - 0x80)), rest)
        else none
      | _ => none
    else if 0xF0 ≤ b0 ∧ b0 ≤ 0xF4 then
      match rest with
      | b1 :: b2 :: b3 :: rest =>
        if SecondOfFour b0 b1 ∧ IsCont b2 ∧ IsCont b3 then
          some (Char.ofNat ((b0 - 0xF0) * 0x40000 + (b1 - 0x80) * 0x1000 + (b2 - 0x80) * 0x40 +
            (b3 - 0x80)), rest)
        else none
      | _ => none
    else none
  | [] => none

theorem decodeFirst_shorter {bytes rest : List Nat} {c : Char}
    (first : decodeFirst bytes = some (c, rest)) : rest.length < bytes.length := by
  unfold decodeFirst at first
  split at first
  · split_ifs at first <;> (try split at first) <;> (try split_ifs at first) <;>
      simp only [Option.some.injEq, Prod.mk.injEq, reduceCtorEq] at first <;>
      (obtain ⟨-, rfl⟩ := first; simp only [List.length_cons]; omega)
  · simp at first

/-- `str::from_utf8`: the characters of a well-formed byte sequence, `none` otherwise. -/
def decode (bytes : List Nat) : Option (List Char) :=
  if bytes = [] then some []
  else
    match _first : decodeFirst bytes with
    | some (c, rest) => (decode rest).map (c :: ·)
    | none => none
termination_by bytes.length
decreasing_by exact decodeFirst_shorter _first

@[simp] theorem encode_nil : encode [] = [] := rfl

@[simp] theorem encode_cons (c : Char) (chars : List Char) :
    encode (c :: chars) = encodeChar c ++ encode chars := rfl

@[simp] theorem encode_append (first second : List Char) :
    encode (first ++ second) = encode first ++ encode second := by
  simp [encode]

/-- A `Char` is a Unicode scalar value: below `U+D800`, or past `U+DFFF` and below
`U+110000`. -/
theorem toNat_valid (c : Char) : c.toNat < 0xD800 ∨ (0xDFFF < c.toNat ∧ c.toNat < 0x110000) :=
  c.valid

@[simp] theorem decode_nil : decode [] = some [] := by
  rw [decode, if_pos rfl]

theorem decode_cons (byte : Nat) (bytes : List Nat) :
    decode (byte :: bytes) = match decodeFirst (byte :: bytes) with
      | some (c, rest) => (decode rest).map (c :: ·)
      | none => none := by
  rw [decode, if_neg (List.cons_ne_nil _ _)]
  split <;> simp_all

/-- The bytes of a character, followed by anything, start with that character. -/
theorem decodeFirst_encodeChar_append (c : Char) (rest : List Nat) :
    decodeFirst (encodeChar c ++ rest) = some (c, rest) := by
  have valid := toNat_valid c
  unfold encodeChar
  split_ifs with one two three <;>
    simp only [List.cons_append, List.nil_append, decodeFirst, Nat.add_sub_cancel_left]
  · rw [if_pos one, Char.ofNat_toNat]
  · have value : c.toNat / 0x40 * 0x40 + c.toNat % 0x40 = c.toNat := by omega
    rw [if_neg (by omega), if_pos (by omega), if_pos (by unfold IsCont; omega), value,
      Char.ofNat_toNat]
  · have value : c.toNat / 0x1000 * 0x1000 + c.toNat / 0x40 % 0x40 * 0x40 + c.toNat % 0x40 =
        c.toNat := by omega
    have second : SecondOfThree (0xE0 + c.toNat / 0x1000) (0x80 + c.toNat / 0x40 % 0x40) := by
      unfold SecondOfThree IsCont; split_ifs <;> omega
    rw [if_neg (by omega), if_neg (by omega), if_pos (by omega),
      if_pos ⟨second, by unfold IsCont; omega⟩, value, Char.ofNat_toNat]
  · have value : c.toNat / 0x40000 * 0x40000 + c.toNat / 0x1000 % 0x40 * 0x1000 +
        c.toNat / 0x40 % 0x40 * 0x40 + c.toNat % 0x40 = c.toNat := by omega
    have second : SecondOfFour (0xF0 + c.toNat / 0x40000) (0x80 + c.toNat / 0x1000 % 0x40) := by
      unfold SecondOfFour IsCont; split_ifs <;> omega
    rw [if_neg (by omega), if_neg (by omega), if_neg (by omega), if_pos (by omega),
      if_pos ⟨second, by unfold IsCont; omega, by unfold IsCont; omega⟩, value, Char.ofNat_toNat]

theorem encodeChar_ne_nil (c : Char) : encodeChar c ≠ [] := by
  unfold encodeChar; split_ifs <;> simp

/-- Decoding the encoding of a character, followed by anything, gives the character back. -/
theorem decode_encodeChar_append (c : Char) (rest : List Nat) :
    decode (encodeChar c ++ rest) = (decode rest).map (c :: ·) := by
  obtain ⟨byte, bytes, split⟩ := List.exists_cons_of_ne_nil (encodeChar_ne_nil c)
  have first := decodeFirst_encodeChar_append c rest
  rw [split, List.cons_append] at first ⊢
  rw [decode_cons, first]

/-- `str::from_utf8` accepts the bytes of every string, and gives the string back. -/
theorem decode_encode_append (chars : List Char) (rest : List Nat) :
    decode (encode chars ++ rest) = (decode rest).map (chars ++ ·) := by
  induction chars with
  | nil => simp
  | cons c chars inductionHypothesis =>
    rw [encode_cons, List.append_assoc, decode_encodeChar_append, inductionHypothesis,
      Option.map_map]
    rfl

theorem decode_encode (chars : List Char) : decode (encode chars) = some chars := by
  simpa using decode_encode_append chars []

/-- Every byte of an encoding is below 256. -/
theorem lt_of_mem_encode {chars : List Char} {byte : Nat} (mem : byte ∈ encode chars) :
    byte < 256 := by
  simp only [encode, List.mem_flatMap] at mem
  obtain ⟨c, -, mem⟩ := mem
  have := toNat_valid c
  unfold encodeChar at mem
  split_ifs at mem <;> simp at mem <;> omega

/-- `char::from_u32` of a scalar value. -/
theorem toNat_ofNat_of_valid {value : Nat}
    (valid : value < 0xD800 ∨ (0xDFFF < value ∧ value < 0x110000)) :
    (Char.ofNat value).toNat = value := by
  rw [Char.ofNat, dif_pos valid]
  rfl

theorem toNat_ofNat_of_ascii {byte : Nat} (ascii : byte < 0x80) : (Char.ofNat byte).toNat = byte :=
  toNat_ofNat_of_valid (.inl (by omega))

/-- The characters ASCII bytes number encode as those bytes. -/
theorem encode_map_ofNat {bytes : List Nat} (ascii : ∀ byte ∈ bytes, byte < 0x80) :
    encode (bytes.map Char.ofNat) = bytes := by
  induction bytes with
  | nil => rfl
  | cons byte bytes inductionHypothesis =>
    have small := ascii byte (.head _)
    rw [List.map_cons, encode_cons, inductionHypothesis fun b member => ascii b (.tail _ member),
      encodeChar, toNat_ofNat_of_ascii small, if_pos small]
    rfl

/-! The scalar values `decodeFirst` reads from two, three and four bytes encode back to those
bytes. Each proof first names the payload of every byte, so that `omega` works without
subtraction. -/

theorem encodeChar_two {b0 b1 : Nat} (lead : 0xC2 ≤ b0 ∧ b0 ≤ 0xDF) (second : IsCont b1) :
    encodeChar (Char.ofNat ((b0 - 0xC0) * 0x40 + (b1 - 0x80))) = [b0, b1] := by
  obtain ⟨y0, rfl⟩ := Nat.exists_eq_add_of_le (le_trans (by decide) lead.1 : 0xC0 ≤ b0)
  obtain ⟨y1, rfl⟩ := Nat.exists_eq_add_of_le second.1
  have := second.2
  simp only [Nat.add_sub_cancel_left]
  rw [encodeChar, toNat_ofNat_of_valid (by omega), if_neg (by omega), if_pos (by omega)]
  simp only [List.cons.injEq, and_true]
  omega

theorem encodeChar_three {b0 b1 b2 : Nat} (lead : 0xE0 ≤ b0 ∧ b0 ≤ 0xEF)
    (second : SecondOfThree b0 b1) (third : IsCont b2) :
    encodeChar (Char.ofNat ((b0 - 0xE0) * 0x1000 + (b1 - 0x80) * 0x40 + (b2 - 0x80))) =
      [b0, b1, b2] := by
  have low : 0x80 ≤ b1 := by unfold SecondOfThree IsCont at second; split_ifs at second <;> omega
  obtain ⟨y0, rfl⟩ := Nat.exists_eq_add_of_le lead.1
  obtain ⟨y1, rfl⟩ := Nat.exists_eq_add_of_le low
  obtain ⟨y2, rfl⟩ := Nat.exists_eq_add_of_le third.1
  have := third.2
  have inRange : (0x800 ≤ y0 * 0x1000 + y1 * 0x40 + y2 ∧ y0 * 0x1000 + y1 * 0x40 + y2 < 0xD800 ∨
      0xDFFF < y0 * 0x1000 + y1 * 0x40 + y2) ∧ y1 < 0x40 := by
    unfold SecondOfThree IsCont at second; split_ifs at second <;> omega
  simp only [Nat.add_sub_cancel_left]
  rw [encodeChar, toNat_ofNat_of_valid (by omega), if_neg (by omega), if_neg (by omega),
    if_pos (by omega)]
  simp only [List.cons.injEq, and_true]
  omega

theorem encodeChar_four {b0 b1 b2 b3 : Nat} (lead : 0xF0 ≤ b0 ∧ b0 ≤ 0xF4)
    (second : SecondOfFour b0 b1) (third : IsCont b2) (fourth : IsCont b3) :
    encodeChar (Char.ofNat ((b0 - 0xF0) * 0x40000 + (b1 - 0x80) * 0x1000 + (b2 - 0x80) * 0x40 +
      (b3 - 0x80))) = [b0, b1, b2, b3] := by
  have low : 0x80 ≤ b1 := by unfold SecondOfFour IsCont at second; split_ifs at second <;> omega
  obtain ⟨y0, rfl⟩ := Nat.exists_eq_add_of_le lead.1
  obtain ⟨y1, rfl⟩ := Nat.exists_eq_add_of_le low
  obtain ⟨y2, rfl⟩ := Nat.exists_eq_add_of_le third.1
  obtain ⟨y3, rfl⟩ := Nat.exists_eq_add_of_le fourth.1
  have := third.2
  have := fourth.2
  have inRange : 0x10000 ≤ y0 * 0x40000 + y1 * 0x1000 + y2 * 0x40 + y3 ∧
      y0 * 0x40000 + y1 * 0x1000 + y2 * 0x40 + y3 < 0x110000 ∧ y1 < 0x40 := by
    unfold SecondOfFour IsCont at second; split_ifs at second <;> omega
  simp only [Nat.add_sub_cancel_left]
  rw [encodeChar, toNat_ofNat_of_valid (.inr ⟨by omega, inRange.2.1⟩), if_neg (by omega),
    if_neg (by omega), if_neg (by omega)]
  simp only [List.cons.injEq, and_true]
  omega

/-- The bytes a first character is read from are that character's encoding. -/
theorem decodeFirst_eq_some {bytes rest : List Nat} {c : Char}
    (first : decodeFirst bytes = some (c, rest)) : bytes = encodeChar c ++ rest := by
  unfold decodeFirst at first
  split at first
  · split_ifs at first with one two three four
    · cases first
      rw [encodeChar, toNat_ofNat_of_ascii one, if_pos one]
      rfl
    all_goals
      split at first <;> try split_ifs at first with cont
      all_goals first
        | obtain ⟨rfl, rfl⟩ := Prod.mk.inj (Option.some.inj first)
        | cases first
    · rw [encodeChar_two two cont]
      rfl
    · rw [encodeChar_three three cont.1 cont.2]
      rfl
    · rw [encodeChar_four four cont.1 cont.2.1 cont.2.2]
      rfl
  · cases first

theorem decode_of_decodeFirst {bytes rest : List Nat} {c : Char}
    (first : decodeFirst bytes = some (c, rest)) : decode bytes = (decode rest).map (c :: ·) := by
  rw [decodeFirst_eq_some first, decode_encodeChar_append]

/-- `str::from_utf8` accepts only the encoding of what it returns. -/
theorem encode_of_decode {bytes : List Nat} {chars : List Char} (decoded : decode bytes = some chars) :
    encode chars = bytes := by
  induction bytes using decode.induct generalizing chars with
  | case1 =>
    rw [decode_nil] at decoded
    cases decoded
    rfl
  | case2 bytes _ c rest first inductionHypothesis =>
    rw [decode_of_decodeFirst first] at decoded
    obtain ⟨chars, restDecoded, rfl⟩ := Option.map_eq_some'.mp decoded
    rw [encode_cons, inductionHypothesis restDecoded, decodeFirst_eq_some first]
  | case3 bytes nonempty none =>
    obtain ⟨byte, bytes, rfl⟩ := List.exists_cons_of_ne_nil nonempty
    rw [decode_cons, none] at decoded
    cases decoded

/-- Only an ASCII character's encoding ends with an ASCII byte. -/
theorem encodeChar_of_getLast {c : Char} {byte : Nat}
    (isLast : (encodeChar c).getLast? = some byte) (ascii : byte < 0x80) : encodeChar c = [byte] := by
  unfold encodeChar at isLast ⊢
  split_ifs at isLast ⊢ <;> simp only [List.getLast?_cons_cons, List.getLast?_singleton,
    Option.some.injEq] at isLast <;> first | omega | rw [isLast]

end InfluxCore.Utf8
