import SchemaForge.Number

/-! Byte sequences: little-endian numbers, padding to a width, and a cursor that hands bytes out. -/
namespace SchemaForge

abbrev Bytes := List UInt8

namespace Bytes

inductive Refusal where
  /-- No unsigned number has this many bytes. -/
  | readWidth
  /-- No unsigned number is written with this many bytes. -/
  | writeWidth
  /-- The bytes do not fit into the width. -/
  | tooLong
  /-- Fewer bytes are left than were asked for. -/
  | exhausted
  /-- There is no room for so many bytes. -/
  | noRoom
  deriving DecidableEq, Repr

def Refusal.message? : Refusal → Option String
  | readWidth => some "Unexpected buffer size"
  | writeWidth => some "Unexpected bufferSize"
  | tooLong => some "Data size larger than allowed"
  | exhausted => some ""
  | noRoom => none

/-- Whether the refusal is about a length that a request exceeds. -/
def Refusal.isRange : Refusal → Bool
  | tooLong | exhausted | noRoom => true
  | readWidth | writeWidth => false

def littleEndian : Bytes → Nat
  | [] => 0
  | b :: rest => b.toNat + 256 * littleEndian rest

def bigEndian (bs : Bytes) : Nat := bs.foldl (fun value b => 256 * value + b.toNat) 0

/-- The lowest `width` bytes of a number, lowest first. -/
def ofNat : Nat → Nat → Bytes
  | 0, _ => []
  | width + 1, n => UInt8.ofNat n :: ofNat width (n / 256)

@[simp] theorem ofNat_length (width n : Nat) : (ofNat width n).length = width := by
  induction width generalizing n with
  | zero => rfl
  | succ width ih => simp [ofNat, ih]

/-- The byte that a number leaves when it wraps around. -/
def wrapped (n : Int) : UInt8 := UInt8.ofNat (n % 256).toNat

/-- The greatest number of bytes for which room is made. -/
def room : Nat := 1 <<< 33

def hasRoom (size : Int) : Bool := 0 ≤ size && size ≤ room

/-- Widths of the unsigned numbers that can be read and written. -/
def isNumberWidth (width : Nat) : Bool := width == 1 || width == 2 || width == 4

def toNumber (bs : Bytes) : Except Refusal Nat :=
  if isNumberWidth bs.length then .ok (littleEndian bs) else .error .readWidth

/-- Numbers out of range wrap around. -/
def ofNumber (value width : Int) : Except Refusal Bytes :=
  if !hasRoom width then .error .noRoom
  else if isNumberWidth width.toNat then
    .ok (ofNat width.toNat (value % (Nat.pow 256 width.toNat : Nat)).toNat)
  else .error .writeWidth

/-- Puts zeros in front up to the given length. -/
def fit (bs : Bytes) (size : Nat) : Except Refusal Bytes :=
  if bs.length > size then .error .tooLong
  else .ok (List.replicate (size - bs.length) 0 ++ bs)

/-- The same for any number, as far as there is room. -/
def fitInto (bs : Bytes) (size : Int) : Except Refusal Bytes :=
  if bs.length > size then .error .tooLong
  else if hasRoom size then bs.fit size.toNat else .error .noRoom

/-- The place to which a number leads in so many bytes. A negative number counts from the end. -/
def placeOf (length : Nat) (n : Int) : Nat :=
  if n < 0 then (n + length).toNat else min n.toNat length

/-- The bytes from one place to another. -/
def slice (bs : Bytes) (start stop : Int) : Bytes :=
  let first := placeOf bs.length start
  (bs.drop first).take (placeOf bs.length stop - first)

end Bytes

/-- Bytes of which the first `offset` have been handed out. A request for a negative number of bytes
moves the offset back. -/
structure Cursor where
  bytes : Bytes
  offset : Int := 0

namespace Cursor

def remaining (c : Cursor) : Int := c.bytes.length - c.offset

/-- The offset after `count` more bytes. Before the beginning it is kept to 53 binary digits. -/
def offsetAfter (c : Cursor) (count : Int) : Int :=
  let next := c.offset + count
  if next < 0 then Number.nearest next else next

theorem offsetAfter_of_nonneg (c : Cursor) {count : Int} (h : 0 ≤ c.offset + count) :
    c.offsetAfter count = c.offset + count := if_neg (by omega)

/-- Hands out the next `count` bytes. A refusal leaves the cursor where it was. -/
def take (c : Cursor) (count : Int) : Except Bytes.Refusal Bytes × Cursor :=
  let next := c.offsetAfter count
  if next > c.bytes.length then (.error .exhausted, c)
  else (.ok (c.bytes.slice c.offset next), { c with offset := next })

/-- The answers to a sequence of requests, each with the offset after it. -/
def takeAll (c : Cursor) : List Int → List (Except Bytes.Refusal Bytes × Int)
  | [] => []
  | count :: counts =>
    let (answer, c') := c.take count
    (answer, c'.offset) :: c'.takeAll counts

end Cursor
end SchemaForge
