import CodeIndex.Digest.Blake3
import CodeIndex.Text.Lowercase
import CodeIndex.Text.Word
import Std.Data.HashMap

/-! Sparse vectors: the hashed bag of words of a text.  Words are taken from the lower-cased text,
and words with one hash share a count. -/

namespace CodeIndex

/-- The first four bytes of a word's digest, as a little-endian number. -/
def tokenHash (token : List Char) : UInt32 :=
  match Digest.blake3 (String.ofList token).toUTF8.toList with
  | a :: b :: c :: d :: _ =>
    a.toUInt32 ||| (b.toUInt32 <<< 8) ||| (c.toUInt32 <<< 16) ||| (d.toUInt32 <<< 24)
  | _ => 0

/-- The words that count: those of the lower-cased text. -/
def tokens (text : List Char) : List (List Char) := Text.words (Text.lowercase text)

/-- The hashes of the words that count, in the order of the words. -/
def tokenHashes (text : List Char) : List UInt32 := (tokens text).map tokenHash

/-- Term counts by hash: `values` holds at each place the count of the hash in `indices`.  Stored
counts have 32 bits; counting can be done in other numbers, too. -/
structure SparseVector (Count : Type := UInt32) where
  indices : Array UInt32
  values : Array Count
  deriving DecidableEq, Repr

/-- A vector on which counting goes on, and where each of its hashes stands. -/
structure Tally (Count : Type := UInt32) where
  places : Std.HashMap UInt32 Nat
  vector : SparseVector Count

namespace SparseVector

variable {Count : Type}

def empty : SparseVector Count := ⟨#[], #[]⟩

def isEmpty (v : SparseVector Count) : Bool := v.indices.isEmpty

def entries (v : SparseVector Count) : List (UInt32 × Count) :=
  v.indices.toList.zip v.values.toList

/-- The count of a hash, if it occurs. -/
def count? (v : SparseVector Count) (hash : UInt32) : Option Count :=
  v.indices.idxOf? hash |>.bind (v.values[·]?)

def countOf (v : SparseVector Count) (token : List Char) : Option Count :=
  v.count? (tokenHash (Text.lowercase token))

end SparseVector

namespace Tally

variable {Count : Type}

def empty : Tally Count := ⟨∅, .empty⟩

/-- Counts one more occurrence of a hash; a new hash goes to the end. -/
def add [Add Count] [OfNat Count 1] (t : Tally Count) (hash : UInt32) : Tally Count :=
  match t.places[hash]? with
  | some i => ⟨t.places, ⟨t.vector.indices, t.vector.values.modify i (· + 1)⟩⟩
  | none =>
    ⟨t.places.insert hash t.vector.indices.size,
      ⟨t.vector.indices.push hash, t.vector.values.push 1⟩⟩

def ofHashes [Add Count] [OfNat Count 1] (hashes : List UInt32) : Tally Count :=
  hashes.foldl add empty

end Tally

namespace SparseVector

/-- The vector of a list of hashes, in order of first occurrence. -/
def ofHashes {Count : Type} [Add Count] [OfNat Count 1] (hashes : List UInt32) :
    SparseVector Count :=
  (Tally.ofHashes hashes).vector

def ofText (text : String) : SparseVector := ofHashes (tokenHashes text.toList)

end SparseVector

end CodeIndex
