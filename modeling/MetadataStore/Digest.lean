import MetadataStore.Datum

/-!
# `Digest` — fingerprints of element sequences

Whether the elements of a value were changed is told by comparing sixty-four-bit digests. The
elements are first written as bytes: their number, then each element in a form that shows where it
ends. The bytes are then mixed word by word into four lanes.

## Contents
- `Digest.encode`, the bytes of a sequence of elements.
- `Digest.mix`, the digest of bytes; `Digest.ofElements`, of elements.
-/

namespace MetadataStore.Digest

/-! ## Bytes of elements -/

/-- The lowest bytes of a number, least significant first. -/
def littleEndian : Nat → Nat → List UInt8
  | 0, _ => []
  | width + 1, n => UInt8.ofNat (n % 256) :: littleEndian width (n / 256)

/-- The number of days in the first so many months of a year. -/
def daysInMonths (year : Int) : Nat → Nat
  | 0 => 0
  | month + 1 => daysInMonths year month + daysInMonth year (month + 1)

/-- The number of a day within its year, counted from one. -/
def dayOfYear (date : Date) : Nat :=
  daysInMonths date.year (date.month - 1) + date.day

/-- Four bits that belong to a year: whether it lacks a leap day, and the weekday of the day before it,
Monday being number seven and Tuesday number one. -/
def yearFlags (year : Int) : Int :=
  let past := year - 1
  (if isLeapYear year then 0 else 8) +
    ((past + past / 4 - past / 100 + past / 400 + 5) % 7 + 1)

/-- A date as one number: the year, the day within it and the flags of the year. -/
def packDate (date : Date) : Int :=
  date.year * 8192 + (dayOfYear date : Int) * 16 + yearFlags date.year

/-- The bytes of a time: its date, the seconds of its day and the fraction. -/
def encodeTime (t : DateTime) : List UInt8 :=
  littleEndian 4 (Int32.ofInt (packDate t.date)).toUInt32.toNat ++
    littleEndian 4 (t.time.hour * 3600 + t.time.minute * 60 + t.time.second) ++
    littleEndian 4 t.time.nano

/-- The bytes of an element. Texts end in a byte that no text contains; opaque bytes come after their
number; all others have a fixed width. -/
def encodeDatum : Datum → List UInt8
  | .string text => text.toUTF8.data.toList ++ [0xFF]
  | .time moment => encodeTime moment
  | .integer number => littleEndian 4 number.toUInt32.toNat
  | .long number => littleEndian 8 number.toUInt64.toNat
  | .double number => littleEndian 8 number.bits.toNat
  | .boolean truth => [if truth then 1 else 0]
  | .data bytes => littleEndian 8 bytes.length ++ bytes

/-- The bytes of a sequence of elements. -/
def encode (elements : List Datum) : List UInt8 :=
  littleEndian 8 elements.length ++ elements.flatMap encodeDatum

/-! ## Mixing -/

/-- The four lanes into which words are mixed. -/
structure Lanes where
  a : UInt64
  b : UInt64
  c : UInt64
  d : UInt64

/-- The lanes before any word. -/
def Lanes.start : Lanes :=
  ⟨0x16F11FE89B0D677C, 0xB480A793D8E6C86C, 0x6FE2E5AAF078EBC9, 0x14F994A4C5259381⟩

/-- Spreads every bit of a word over the whole word. -/
def diffuse (x : UInt64) : UInt64 :=
  let x := x * 0x6EED0E9DA4D94A4F
  let x := x ^^^ ((x >>> 32) >>> (x >>> 60))
  x * 0x6EED0E9DA4D94A4F

/-- Mixes one word into the first lane, which becomes the last. -/
def Lanes.push (lanes : Lanes) (word : UInt64) : Lanes :=
  ⟨lanes.b, lanes.c, lanes.d, diffuse (lanes.a ^^^ word)⟩

/-- The word of up to eight bytes, least significant first. -/
def wordOf (bytes : List UInt8) : UInt64 :=
  bytes.foldr (fun byte word => (word <<< 8) ||| byte.toUInt64) 0

/-- Mixes bytes word by word, the last word being short. -/
def Lanes.pushAll (lanes : Lanes) : List UInt8 → Lanes
  | b0 :: b1 :: b2 :: b3 :: b4 :: b5 :: b6 :: b7 :: rest =>
    (lanes.push (wordOf [b0, b1, b2, b3, b4, b5, b6, b7])).pushAll rest
  | [] => lanes
  | short => lanes.push (wordOf short)

/-- The digest of bytes. -/
def mix (bytes : List UInt8) : UInt64 :=
  let lanes := Lanes.start.pushAll bytes
  diffuse (lanes.a ^^^ lanes.b ^^^ lanes.c ^^^ lanes.d ^^^ UInt64.ofNat bytes.length)

/-- The digest of a sequence of elements. -/
def ofElements (elements : List Datum) : UInt64 :=
  mix (encode elements)

@[simp] theorem length_littleEndian (width n : Nat) : (littleEndian width n).length = width := by
  induction width generalizing n with
  | zero => rfl
  | succ width ih => simp [littleEndian, ih]

end MetadataStore.Digest
