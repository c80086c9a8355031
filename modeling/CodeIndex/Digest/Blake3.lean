/-! The BLAKE3 hash: a binary tree of chunks of 1024 bytes, compressed block by block, with a digest
of 32 bytes. -/

namespace CodeIndex.Digest

abbrev Words := Array UInt32

/-- The initial chaining value, which is also the upper half of every compression's state. -/
def initial : Words :=
  #[0x6A09E667, 0xBB67AE85, 0x3C6EF372, 0xA54FF53A, 0x510E527F, 0x9B05688C, 0x1F83D9AB, 0x5BE0CD19]

/-- The order in which each round's message words come from those of the round before. -/
def permutation : List Nat := [2, 6, 3, 10, 7, 0, 4, 13, 1, 11, 12, 5, 9, 14, 15, 8]

def chunkStart : UInt32 := 1
def chunkEnd : UInt32 := 2
def parentFlag : UInt32 := 4
def rootFlag : UInt32 := 8

def rotateRight (x n : UInt32) : UInt32 := (x >>> n) ||| (x <<< (32 - n))

def word (w : Words) (i : Nat) : UInt32 := w.getD i 0

/-- Mixes two message words into four words of the state. -/
def quarter (v : Words) (a b c d : Nat) (x y : UInt32) : Words :=
  let va := word v a + word v b + x
  let vd := rotateRight (word v d ^^^ va) 16
  let vc := word v c + vd
  let vb := rotateRight (word v b ^^^ vc) 12
  let va := va + vb + y
  let vd := rotateRight (vd ^^^ va) 8
  let vc := vc + vd
  let vb := rotateRight (vb ^^^ vc) 7
  (((v.setIfInBounds a va).setIfInBounds b vb).setIfInBounds c vc).setIfInBounds d vd

/-- One round: the columns, then the diagonals. -/
def round (v m : Words) : Words :=
  let v := quarter v 0 4 8 12 (word m 0) (word m 1)
  let v := quarter v 1 5 9 13 (word m 2) (word m 3)
  let v := quarter v 2 6 10 14 (word m 4) (word m 5)
  let v := quarter v 3 7 11 15 (word m 6) (word m 7)
  let v := quarter v 0 5 10 15 (word m 8) (word m 9)
  let v := quarter v 1 6 11 12 (word m 10) (word m 11)
  let v := quarter v 2 7 8 13 (word m 12) (word m 13)
  quarter v 3 4 9 14 (word m 14) (word m 15)

def rounds : Nat → Words → Words → Words
  | 0, v, _ => v
  | n + 1, v, m => rounds n (round v m) (permutation.map (word m)).toArray

/-- A compression that is still to be done, so that the last one can be marked as the root. -/
structure Pending where
  chaining : Words
  block : Words
  counter : Nat
  length : Nat
  flags : UInt32

/-- The eight words of output of a compression. -/
def Pending.words (p : Pending) (extra : UInt32) : Words :=
  let start := p.chaining ++ initial.take 4 ++
    #[p.counter.toUInt32, (p.counter >>> 32).toUInt32, p.length.toUInt32, p.flags ||| extra]
  let v := rounds 7 start p.block
  (Array.range 8).map fun i => word v i ^^^ word v (i + 8)

/-- The little-endian words of a block, padded with zeros to sixteen. -/
def blockWords (bytes : List UInt8) : Words :=
  let byte (i : Nat) : UInt32 := (bytes.toArray.getD i 0).toUInt32
  (Array.range 16).map fun i =>
    byte (4 * i) ||| (byte (4 * i + 1) <<< 8) ||| (byte (4 * i + 2) <<< 16)
      ||| (byte (4 * i + 3) <<< 24)

/-- Compresses the blocks of a chunk up to its last, which stays pending. -/
def chunkFrom (counter : Nat) : Nat → Words → UInt32 → List UInt8 → Pending
  | 0, chaining, flags, bytes =>
    ⟨chaining, blockWords (bytes.take 64), counter, (bytes.take 64).length, flags ||| chunkEnd⟩
  | blocks + 1, chaining, flags, bytes =>
    let rest := bytes.drop 64
    if rest.isEmpty then
      ⟨chaining, blockWords bytes, counter, bytes.length, flags ||| chunkEnd⟩
    else
      let full : Pending := ⟨chaining, blockWords (bytes.take 64), counter, 64, flags⟩
      chunkFrom counter blocks (full.words 0) 0 rest

def chunk (counter : Nat) (bytes : List UInt8) : Pending :=
  chunkFrom counter 15 initial chunkStart bytes

def parent (left right : Pending) : Pending :=
  ⟨initial, left.words 0 ++ right.words 0, 0, 64, parentFlag⟩

/-- The greatest power of two below `n`, times `size`, found by doubling at most `steps` times. -/
def leftSize (n : Nat) : Nat → Nat → Nat
  | 0, size => size
  | steps + 1, size => if size * 2 < n then leftSize n steps (size * 2) else size

/-- The tree over the bytes: the left half is the largest power-of-two number of chunks that leaves
something on the right. -/
def tree : Nat → Nat → List UInt8 → Pending
  | 0, counter, bytes => chunk counter bytes
  | depth + 1, counter, bytes =>
    if bytes.length ≤ 1024 then chunk counter bytes
    else
      let size := leftSize bytes.length depth 1024
      parent (tree depth counter (bytes.take size))
        (tree depth (counter + size / 1024) (bytes.drop size))

def wordBytes (w : UInt32) : List UInt8 :=
  [w.toUInt8, (w >>> 8).toUInt8, (w >>> 16).toUInt8, (w >>> 24).toUInt8]

def blake3 (bytes : List UInt8) : List UInt8 :=
  ((tree (bytes.length.log2 + 1) 0 bytes).words rootFlag).toList.flatMap wordBytes

end CodeIndex.Digest
