import CodeIndex.Digest.Blake3

/-! Deterministic stand-in embeddings: the bytes of a text's digest, each divided by 255, repeated
to the wanted number of dimensions. -/

namespace CodeIndex.Embedding

def fingerprint (dimensions : Nat) (text : String) : Array Float32 :=
  let bytes := (Digest.blake3 text.toUTF8.toList).toArray
  (Array.range dimensions).map fun i =>
    (Float.ofNat (bytes.getD (i % bytes.size) 0).toNat).toFloat32 / (255 : Float32)

end CodeIndex.Embedding
