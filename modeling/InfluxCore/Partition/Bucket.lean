import InfluxCore.Encoding.Utf8
import InfluxCore.Encoding.Decimal

/-! # Bucket parts: the Iceberg bucket transform and the bucket id in a key

`bucket_for_tag_value` hashes the UTF-8 bytes of a tag value with 32-bit Murmur3 (seed 0), as
Iceberg does, clears the sign bit and reduces modulo the bucket count; the id goes into the
partition key as its decimal rendering (`u32::to_string`), and `parse_part_bucket` reads it
back with `str::parse::<u32>`.

`bucketForTagValue_lt` bounds every id by the bucket count, and `parseU32_toDigits` shows the
decimal rendering of every `u32` parses back to it.
-/

namespace InfluxCore.Murmur3

/-- `u32::rotate_left`. -/
def rotateLeft (value shift : UInt32) : UInt32 :=
  (value <<< shift) ||| (value >>> (32 - shift))

/-- `calc_k`: the mixing of one block. -/
def calcK (block : UInt32) : UInt32 :=
  rotateLeft (block * 0xcc9e2d51) 15 * 0x1b873593

/-- `finish`: the final avalanche, after the length is folded in. -/
def finish (state processed : UInt32) : UInt32 :=
  let hash := state ^^^ processed
  let hash := hash ^^^ (hash >>> 16)
  let hash := hash * 0x85ebca6b
  let hash := hash ^^^ (hash >>> 13)
  let hash := hash * 0xc2b2ae35
  hash ^^^ (hash >>> 16)

/-- The loop of `murmur3_32` over the bytes still to read: whole blocks of four, then a tail of
one to three bytes. -/
def hashFrom (state processed : UInt32) : List Nat → UInt32
  | b0 :: b1 :: b2 :: b3 :: rest =>
    let block := UInt32.ofNat b0 ||| UInt32.ofNat b1 <<< 8 ||| UInt32.ofNat b2 <<< 16 |||
      UInt32.ofNat b3 <<< 24
    hashFrom (rotateLeft (state ^^^ calcK block) 13 * 5 + 0xe6546b64) (processed + 4) rest
  | [b0, b1, b2] =>
    finish (state ^^^ calcK (UInt32.ofNat b2 <<< 16 ||| UInt32.ofNat b1 <<< 8 ||| UInt32.ofNat b0))
      (processed + 3)
  | [b0, b1] => finish (state ^^^ calcK (UInt32.ofNat b1 <<< 8 ||| UInt32.ofNat b0)) (processed + 2)
  | [b0] => finish (state ^^^ calcK (UInt32.ofNat b0)) (processed + 1)
  | [] => finish state processed

/-- `murmur3::murmur3_32` over a byte slice, which never fails to read. -/
def murmur3_32 (bytes : List Nat) (seed : UInt32) : UInt32 :=
  hashFrom seed 0 bytes

end InfluxCore.Murmur3

namespace InfluxCore.DataTypes

open InfluxCore.Decimal

/-- `iceberg_hash`. -/
def icebergHash (tagValue : String) : UInt32 :=
  Murmur3.murmur3_32 (Utf8.encode tagValue.toList) 0

/-- `bucket_for_tag_value`; a count of zero is the division by zero Rust panics on. -/
def bucketForTagValue (tagValue : String) (numBuckets : UInt32) : Except String UInt32 :=
  if numBuckets = 0 then .error "attempt to calculate the remainder with a divisor of zero"
  else .ok ((icebergHash tagValue &&& 0x7FFFFFFF) % numBuckets)

example : icebergHash "iceberg" = 1210000089 := by decide

example : bucketForTagValue "abcdefg" 5 = .ok 4 := rfl

example : bucketForTagValue "测试" 12 = .ok 8 := rfl

/-- Every bucket id lies below a positive bucket count. -/
theorem bucketForTagValue_lt (tagValue : String) {numBuckets : UInt32} (positive : 0 < numBuckets) :
    ∃ id, bucketForTagValue tagValue numBuckets = .ok id ∧ id < numBuckets := by
  refine ⟨_, if_neg ?_, UInt32.mod_lt _ positive⟩
  rintro rfl
  exact absurd positive (by decide)

/-- The text after a leading `+` sign; a lone `+` stays, to be rejected as a digit. -/
def stripPlus : List Char → List Char
  | '+' :: rest@(_ :: _) => rest
  | text => text

/-- `<u32 as FromStr>::from_str`: an optional `+`, then decimal digits spelling a value below
`2^32`. -/
def parseU32 (text : List Char) : Option UInt32 :=
  let digits := stripPlus text
  if digits ≠ [] ∧ digits.all Char.isDigit then
    let value := digits.foldl accumulateDigit 0
    if value < 2 ^ 32 then some (UInt32.ofNat value) else none
  else none

theorem stripPlus_of_ne {first : Char} (notPlus : first ≠ '+') (rest : List Char) :
    stripPlus (first :: rest) = first :: rest := by
  unfold stripPlus; split <;> simp_all

/-- The decimal rendering of every `u32` parses back to it. -/
theorem parseU32_toDigits (id : UInt32) : parseU32 (Nat.toDigits 10 id.toNat) = some id := by
  obtain ⟨nonempty, allDigits, value⟩ := toDigits_spec id.toNat
  obtain ⟨first, rest, rendered⟩ := List.exists_cons_of_ne_nil nonempty
  rw [rendered] at allDigits value
  have notPlus : first ≠ '+' := fun plus => by simpa [plus] using allDigits first (.head _)
  have fits : id.toNat < 2 ^ 32 := id.toNat_lt_size
  rw [parseU32, rendered, stripPlus_of_ne notPlus,
    if_pos ⟨List.cons_ne_nil _ _, List.all_eq_true.mpr allDigits⟩]
  simp only [value]
  rw [if_pos fits, UInt32.toNat.inj (UInt32.toNat_ofNat_of_lt id.toNat_lt_size)]

end InfluxCore.DataTypes
