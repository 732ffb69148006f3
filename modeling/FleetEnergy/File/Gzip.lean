import FleetEnergy.File.Fault

/-! Compressed files: a header, blocks of compressed data, and a checksum with the length of the data. -/
namespace FleetEnergy.File.Gzip
set_option autoImplicit false

/-! ## Bits -/

/-- A place in a sequence of bits; of each byte the lowest bit comes first. -/
structure Bits where
  data : ByteArray
  position : Nat

namespace Bits

def bit? (b : Bits) : Option Nat :=
  match b.data.data[b.position / 8]? with
  | none => none
  | some byte => some (byte.toNat / Nat.pow 2 (b.position % 8) % 2)

/-- The next bit and the place after it. -/
def next (b : Bits) : Except Fault (Nat × Bits) :=
  match b.bit? with
  | none => .error .incomplete
  | some v => .ok (v, { b with position := b.position + 1 })

/-- The next `n` bits as a number, lowest first. -/
def number (b : Bits) : Nat → Except Fault (Nat × Bits)
  | 0 => .ok (0, b)
  | n + 1 => do
    let (v, b) ← b.next
    let (r, b) ← b.number n
    return (v + 2 * r, b)

/-- Skips to the next whole byte. -/
def align (b : Bits) : Bits := { b with position := (b.position + 7) / 8 * 8 }

end Bits

/-! ## Prefix codes -/

/-- A code in which words of one length follow one another in the order of their symbols: how many words
there are of each length, and the symbols in the order of their words. -/
structure Code where
  counts : Array Nat
  symbols : Array Nat

namespace Code

def maxLength : Nat := 15

/-- The code in which symbol `i` has a word of the length at place `i`, or none if that is zero. -/
def ofLengths (lengths : List Nat) : Code :=
  let withLength (l : Nat) : List Nat := (lengths.zipIdx.filter (·.1 == l)).map (·.2)
  let groups := (List.range maxLength).map fun l => withLength (l + 1)
  ⟨(groups.map List.length).toArray, groups.flatten.toArray⟩

/-- How many words of the greatest length are left over; `none` if there are too many words. -/
def spare (c : Code) : Option Nat :=
  c.counts.toList.foldlM (fun left n => if n ≤ 2 * left then some (2 * left - n) else none) 1

/-- All words are used, or there is at most one word. -/
def isUsable (c : Code) : Bool :=
  match c.spare with
  | none => false
  | some left => left == 0 || c.symbols.size ≤ 1

/-- Reads a word bit by bit: `word` are the bits so far, `first` is the first word of the length that is
tried next and `index` the place of its symbol. -/
def decodeFrom (c : Code) (bits : Bits) (word first index : Nat) : List Nat → Except Fault (Nat × Bits)
  | [] => .error .corrupt
  | count :: counts => do
    let (v, bits) ← bits.next
    let word := 2 * word + v
    if word < first + count then
      match c.symbols[index + (word - first)]? with
      | some s => return (s, bits)
      | none => .error .corrupt
    else c.decodeFrom bits word (2 * (first + count)) (index + count) counts

def decode (c : Code) (bits : Bits) : Except Fault (Nat × Bits) := c.decodeFrom bits 0 0 0 c.counts.toList

end Code

/-! ## Blocks -/

def lengthBase : Array Nat :=
  #[3, 4, 5, 6, 7, 8, 9, 10, 11, 13, 15, 17, 19, 23, 27, 31, 35, 43, 51, 59, 67, 83, 99, 115, 131, 163,
    195, 227, 258]

def lengthExtra : Array Nat :=
  #[0, 0, 0, 0, 0, 0, 0, 0, 1, 1, 1, 1, 2, 2, 2, 2, 3, 3, 3, 3, 4, 4, 4, 4, 5, 5, 5, 5, 0]

def distanceBase : Array Nat :=
  #[1, 2, 3, 4, 5, 7, 9, 13, 17, 25, 33, 49, 65, 97, 129, 193, 257, 385, 513, 769, 1025, 1537, 2049,
    3073, 4097, 6145, 8193, 12289, 16385, 24577]

def distanceExtra : Array Nat :=
  #[0, 0, 0, 0, 1, 1, 2, 2, 3, 3, 4, 4, 5, 5, 6, 6, 7, 7, 8, 8, 9, 9, 10, 10, 11, 11, 12, 12, 13, 13]

/-- The byte `distance` before the end. Before the beginning there are zeros. -/
def byteBack (out : ByteArray) (distance : Nat) : UInt8 :=
  if distance ≤ out.size then out.data.getD (out.size - distance) 0 else 0

/-- Appends `n` bytes that start `distance` before the end; bytes just appended may be among them. -/
def copyBack (out : ByteArray) (distance : Nat) : Nat → ByteArray
  | 0 => out
  | n + 1 => copyBack (out.push (byteBack out distance)) distance n

/-- The value of a base and extra bits. -/
def extended (base extra : Array Nat) (symbol : Nat) (bits : Bits) : Except Fault (Nat × Bits) :=
  match base[symbol]?, extra[symbol]? with
  | some b, some n => do
    let (v, bits) ← bits.number n
    return (b + v, bits)
  | _, _ => .error .corrupt

/-- A fault, and what came out before it. -/
abbrev Interruption : Type := Fault × ByteArray

/-- A step that may fail when `out` has come out. -/
def after {α : Type} (out : ByteArray) (step : Except Fault α) : Except Interruption α :=
  step.mapError fun fault => (fault, out)

/-- Reads literal bytes and copies until the end of the block. -/
def inflateCodes (literals distances : Code) (bits : Bits) (out : ByteArray) :
    Nat → Except Interruption (Bits × ByteArray)
  | 0 => .error (.incomplete, out)
  | fuel + 1 => do
    let (symbol, bits) ← after out (literals.decode bits)
    if symbol < 256 then inflateCodes literals distances bits (out.push symbol.toUInt8) fuel
    else if symbol = 256 then return (bits, out)
    else
      let (length, bits) ← after out (extended lengthBase lengthExtra (symbol - 257) bits)
      let (symbol, bits) ← after out (distances.decode bits)
      let (distance, bits) ← after out (extended distanceBase distanceExtra symbol bits)
      inflateCodes literals distances bits (copyBack out distance length) fuel

/-- A block whose bytes are written as they are. -/
def storedBlock (bits : Bits) (out : ByteArray) : Except Interruption (Bits × ByteArray) := do
  let (length, bits) ← after out (bits.align.number 16)
  let (check, bits) ← after out (bits.number 16)
  if length + check = 65535 then
    let start := bits.position / 8
    let out := out ++ bits.data.extract start (start + length)
    if bits.data.size < start + length then .error (.incomplete, out)
    else return ({ bits with position := bits.position + 8 * length }, out)
  else .error (.corrupt, out)

def fixedLiterals : Code :=
  .ofLengths (List.replicate 144 8 ++ List.replicate 112 9 ++ List.replicate 24 7 ++ List.replicate 8 8)

def fixedDistances : Code := .ofLengths (List.replicate 30 5)

/-- The order in which the lengths of the words for lengths are given. -/
def lengthOrder : List Nat := [16, 17, 18, 0, 8, 7, 9, 6, 10, 5, 11, 4, 12, 3, 13, 2, 14, 1, 15]

/-- Reads `n` lengths; some words repeat the last one or stand for several zeros. -/
def readLengths (c : Code) (bits : Bits) (n : Nat) (out : Array Nat) :
    Nat → Except Fault (Array Nat × Bits)
  | 0 => .error .corrupt
  | fuel + 1 =>
    if n ≤ out.size then (if out.size = n then .ok (out, bits) else .error .corrupt)
    else do
      let (symbol, bits) ← c.decode bits
      if symbol < 16 then readLengths c bits n (out.push symbol) fuel
      else
        let (value, base, extra) ← match symbol, out.back? with
          | 16, none => Except.error Fault.corrupt
          | 16, some l => pure (l, 3, 2)
          | 17, _ => pure (0, 3, 3)
          | _, _ => pure (0, 11, 7)
        let (more, bits) ← bits.number extra
        readLengths c bits n (out ++ Array.replicate (base + more) value) fuel

/-- The lengths of the words for lengths, in the order of the symbols. -/
def readLengthCode (bits : Bits) (n : Nat) : Except Fault (Code × Bits) := do
  let (given, bits) ← (List.range n).foldlM (fun ((l : List Nat), (bits : Bits)) _ => do
    let (v, bits) ← bits.number 3
    return (l ++ [v], bits)) ([], bits)
  let pairs := lengthOrder.zip given
  return (.ofLengths ((List.range 19).map fun s => (pairs.lookup s).getD 0), bits)

/-- The two codes that are written in front of a block, with the lengths of at most 286 and 30 words. -/
def readCodes (bits : Bits) : Except Fault ((Code × Code) × Bits) := do
  let (hlit, bits) ← bits.number 5
  let (hdist, bits) ← bits.number 5
  let (hclen, bits) ← bits.number 4
  if 29 < hlit || 29 < hdist then throw .corrupt
  let (lengthCode, bits) ← readLengthCode bits (hclen + 4)
  if lengthCode.isUsable then
    let total := hlit + 257 + hdist + 1
    let (lengths, bits) ← readLengths lengthCode bits total #[] (total + 1)
    let literals := Code.ofLengths (lengths.toList.take (hlit + 257))
    let distances := Code.ofLengths (lengths.toList.drop (hlit + 257))
    if literals.isUsable && distances.isUsable then return ((literals, distances), bits)
    else .error .corrupt
  else .error .corrupt

/-- Reads blocks up to the last one. Every step of the loops takes a bit at least, so that the number of
bits is fuel enough. -/
def inflateBlocks (bits : Bits) (out : ByteArray) : Nat → Except Interruption (Bits × ByteArray)
  | 0 => .error (.incomplete, out)
  | fuel + 1 => do
    let (last, bits) ← after out (bits.number 1)
    let (kind, bits) ← after out (bits.number 2)
    let bound := 8 * bits.data.size + 1
    let (bits, out) ← match kind with
      | 0 => storedBlock bits out
      | 1 => inflateCodes fixedLiterals fixedDistances bits out bound
      | 2 => do
        let ((literals, distances), bits) ← after out (readCodes bits)
        inflateCodes literals distances bits out bound
      | _ => .error (.corrupt, out)
    if last = 1 then return (bits, out) else inflateBlocks bits out fuel

/-! ## Checksum -/

/-- One bit of the division by the polynomial of the checksum. -/
def checksumBit (c : UInt32) : UInt32 := if c &&& 1 = 1 then (c >>> 1) ^^^ 0xEDB88320 else c >>> 1

def checksumByte (c : UInt32) (b : UInt8) : UInt32 :=
  (List.range 8).foldl (fun c _ => checksumBit c) (c ^^^ b.toUInt32)

def checksum (data : ByteArray) : UInt32 := data.foldl checksumByte 0xFFFFFFFF ^^^ 0xFFFFFFFF

/-! ## Files -/

/-- The place after a text that ends with a zero byte. -/
def skipText (data : ByteArray) (start : Nat) : Except Fault Nat :=
  match (data.data.toList.drop start).findIdx? (· == 0) with
  | none => .error .truncated
  | some n => .ok (start + n + 1)

/-- A number of `count` bytes, the lowest first. -/
def littleEndian (data : ByteArray) (start count : Nat) : Nat :=
  (List.range count).foldr (fun (i n : Nat) => (data.data.getD (start + i) 0).toNat + 256 * n) 0

/-- The place after the header. A header may end with the lower half of its own checksum. -/
def skipHeader (data : ByteArray) : Except Fault Nat := do
  let byte (i : Nat) : Nat := (data.data.getD i 0).toNat
  if data.size < 10 then .error .truncated
  else if byte 0 ≠ 0x1F || byte 1 ≠ 0x8B || byte 2 ≠ 8 || byte 3 / 32 ≠ 0 then .error .notCompressed
  else
    let flags := byte 3
    let has (n : Nat) : Bool := flags / Nat.pow 2 n % 2 = 1
    let at_ := 10
    let at_ ← if has 2 then
        if data.size < at_ + 2 then .error .truncated
        else pure (at_ + 2 + littleEndian data at_ 2)
      else pure at_
    if data.size < at_ then .error .truncated
    let at_ ← if has 3 then skipText data at_ else pure at_
    let at_ ← if has 4 then skipText data at_ else pure at_
    if has 1 then
      if data.size < at_ + 2 then .error .truncated
      else if littleEndian data at_ 2 = (checksum (data.extract 0 at_)).toNat % Nat.pow 2 16 then
        return at_ + 2
      else .error .badChecksum
    else return at_

/-- How much comes out at a time. -/
def windowSize : Nat := 32768

/-- What can be read before a fault: of corrupt data only what came out before the window of the fault. -/
def readableBefore : Interruption → ByteArray
  | (.corrupt, out) => out.extract 0 (out.size / windowSize * windowSize)
  | (_, out) => out

/-- The data of a compressed file, and the fault with which reading ends, if any. -/
def decompress (data : ByteArray) : ByteArray × Option Fault :=
  let inflated : Except Interruption (Bits × ByteArray) := do
    let start ← after .empty (skipHeader data)
    inflateBlocks ⟨data, 8 * start⟩ .empty (8 * data.size + 1)
  match inflated with
  | .error stop => (readableBefore stop, some stop.1)
  | .ok (bits, out) =>
    let trailer := bits.align.position / 8
    if data.size < trailer + 8 then (out, some .truncated)
    else if littleEndian data trailer 4 = (checksum out).toNat
        && littleEndian data (trailer + 4) 4 = out.size % Nat.pow 2 32 then (out, none)
    else (out, some .badChecksum)

/-- The lower bytes of a number, lowest first. -/
def lowBytes (n : Nat) (count : Nat) : List UInt8 :=
  (List.range count).map fun i => (n / Nat.pow 256 i).toUInt8

/-- The blocks of a file that is not made smaller. -/
def storedBlocks (data : ByteArray) (start : Nat) : Nat → List UInt8
  | 0 => []
  | fuel + 1 =>
    let length := min 65535 (data.size - start)
    let last := data.size ≤ start + length
    (if last then 1 else 0) :: lowBytes length 2 ++ lowBytes (65535 - length) 2
      ++ (data.extract start (start + length)).data.toList
      ++ (if last then [] else storedBlocks data (start + length) fuel)

/-- A file that holds the data, in blocks that are written as they are. -/
def compress (data : ByteArray) : ByteArray :=
  ⟨([0x1F, 0x8B, 8, 0, 0, 0, 0, 0, 0, 0xFF] ++ storedBlocks data 0 (data.size + 1)
    ++ lowBytes (checksum data).toNat 4 ++ lowBytes data.size 4).toArray⟩

end FleetEnergy.File.Gzip
