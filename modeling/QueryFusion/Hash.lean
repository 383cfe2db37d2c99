/-!
# Word hashing

A running hash of 64-bit words. Texts are first folded into one word by multiplying pairs of words
and combining the two halves of the product. The hash decides which partition owns a key and which
name a generated unit carries, so equal inputs must always give equal words. Nothing else is asked
of it: a map works with any hasher.
-/

namespace QueryFusion

namespace Hash

/-- The running state; all arithmetic is modulo two to the 64. -/
structure State where
  word : UInt64
  deriving DecidableEq, Inhabited

/-- The state before any input. -/
def State.empty : State :=
  ⟨0⟩

/-- Absorbs one word. -/
def State.add (state : State) (word : UInt64) : State :=
  ⟨(state.word + word) * 0xf1357aea2e62a9c5⟩

/-- The hash of everything absorbed. -/
def State.finish (state : State) : UInt64 :=
  state.word <<< 26 ||| state.word >>> 38

/-- Low half of the 128-bit product combined with the high half. -/
def mix (left right : UInt64) : UInt64 :=
  let product := left.toNat * right.toNat
  UInt64.ofNat product ^^^ UInt64.ofNat (product / UInt64.size)

/-- The word whose bytes these are, the lowest first. -/
def littleEndian (bytes : List UInt8) : UInt64 :=
  bytes.foldr (fun byte word => word <<< 8 ||| byte.toUInt64) 0

/-- The two seeds of a text's fold. -/
def seeds : UInt64 × UInt64 :=
  (0x243f6a8885a308d3, 0x13198a2e03707344)

/-- The key of the second word of every sixteen bytes. -/
def blockKey : UInt64 :=
  0xa4093822299f31d0

/-- Folds blocks of sixteen bytes while more than sixteen are left. -/
def foldBlocks (first second : UInt64) (bytes : List UInt8) : UInt64 × UInt64 :=
  if 16 < bytes.length then
    let block := mix (first ^^^ littleEndian (bytes.take 8))
      (blockKey ^^^ littleEndian ((bytes.drop 8).take 8))
    foldBlocks second block (bytes.drop 16)
  else (first, second)
termination_by bytes.length

/-- The last `count` bytes. -/
def lastBytes (bytes : List UInt8) (count : Nat) : List UInt8 :=
  bytes.drop (bytes.length - count)

/-- One word for a string of bytes. -/
def ofBytes (bytes : List UInt8) : UInt64 :=
  let size := bytes.length
  let folded : UInt64 × UInt64 :=
    if 16 < size then
      let blocks := foldBlocks seeds.1 seeds.2 bytes
      (blocks.1 ^^^ littleEndian ((lastBytes bytes 16).take 8),
        blocks.2 ^^^ littleEndian (lastBytes bytes 8))
    else if 8 ≤ size then
      (seeds.1 ^^^ littleEndian (bytes.take 8), seeds.2 ^^^ littleEndian (lastBytes bytes 8))
    else if 4 ≤ size then
      (seeds.1 ^^^ littleEndian (bytes.take 4), seeds.2 ^^^ littleEndian (lastBytes bytes 4))
    else
      match bytes with
      | [] => seeds
      | first :: _ =>
        let last := bytes.getLastD first
        let middle := bytes.getD (size / 2) first
        (seeds.1 ^^^ first.toUInt64, seeds.2 ^^^ (last.toUInt64 <<< 8 ||| middle.toUInt64))
  mix folded.1 folded.2 ^^^ UInt64.ofNat size

/-- Absorbs a text; the closing word keeps two adjacent texts apart. -/
def State.addText (state : State) (text : String) : State :=
  (state.add (ofBytes text.toUTF8.toList)).add 0xff

end Hash

/-- A hasher: it absorbs words and texts one after the other and makes a word of them. -/
class Hasher where
  State : Type
  start : State
  add : State → UInt64 → State
  addText : State → String → State
  finish : State → UInt64

/-- The running hash of words is the hasher that programs run with. -/
instance : Hasher where
  State := Hash.State
  start := .empty
  add := Hash.State.add
  addText := Hash.State.addText
  finish := Hash.State.finish

end QueryFusion
