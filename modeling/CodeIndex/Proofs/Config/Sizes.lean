import CodeIndex.Proofs.Chunk.Sizes
import CodeIndex.Proofs.Config.Loading

/-! The sizes of fragments in settings that can be loaded, and what is computed from them.  The check
of the settings compares the size with the overlap only, so that products with it need not fit into
64 bits. -/

namespace CodeIndex.Config

open Chunk (SumsFit sizeBound textBound)

/-- Settings can be loaded with every size of fragments that is a word and greater than the overlap.
Up to a third of the words the limit for the last piece is one and a half times the size, and up to
a sixth of them the limit for joined fragments is six fifths of it; beyond, they overflow, and no source
can be chunked.  All else that is added up for a source fits into 64 bits. -/
theorem limits_exact_iff (o : Chunk.Options) :
    (Accepted o ↔ 0 < o.maxSize ∧ o.overlap < o.maxSize ∧ o.maxSize < sizeBound) ∧
    (Accepted o →
      (∀ limit, o.foldLimit = .ok limit ↔
        o.maxSize * 3 < sizeBound ∧ limit = o.maxSize * 3 / 2) ∧
      (∀ limit, o.mergeLimit = .ok limit ↔
        o.maxSize * 6 < sizeBound ∧ limit = o.maxSize * 6 / 5) ∧
      (∀ source tree, Chunk.chunk o source tree = .error .overflow ↔ sizeBound ≤ o.maxSize * 6) ∧
      ∀ source tree, source.length < textBound → SumsFit o source tree) :=
  ⟨accepted_iff, fun _ => ⟨fun _ => Chunk.foldLimit_eq_ok_iff, fun _ => Chunk.mergeLimit_eq_ok_iff,
    fun _ _ => Chunk.chunk_eq_error_iff, fun _ tree hsource => Chunk.sumsFit o tree hsource⟩⟩

/-- The greatest size whose products all fit. -/
theorem limits_exact_iff_sixth :
    Accepted ⟨3074457345618258602, 200⟩ ∧
    Chunk.Options.mergeLimit ⟨3074457345618258602, 200⟩ = .ok (3074457345618258602 * 6 / 5) ∧
    Chunk.chunk ⟨3074457345618258602, 200⟩ Chunk.commentSource Chunk.commentTree ≠
      .error .overflow ∧
    SumsFit ⟨3074457345618258602, 200⟩ Chunk.commentSource Chunk.commentTree := by
  obtain ⟨haccepted, hlimits⟩ := limits_exact_iff ⟨3074457345618258602, 200⟩
  have hsizes := haccepted.2 (by decide)
  obtain ⟨-, hmerge, hchunk, hsums⟩ := hlimits hsizes
  exact ⟨hsizes, (hmerge _).2 (by decide), fun h => absurd ((hchunk _ _).1 h) (by decide),
    hsums _ _ (by decide)⟩

/-- The next size is loaded from the environment, but its product with six is not a word, and chunking
overflows. -/
theorem chunk_overflows_loaded : ∃ s : Settings,
    load (.directory []) none (sizing ⟨3074457345618258603, 200⟩) = .ok s ∧
    sizeBound ≤ s.chunks.maxSize * 6 ∧ s.chunks.mergeLimit = .error .overflow ∧
    Chunk.chunk s.chunks Chunk.commentSource Chunk.commentTree = .error .overflow :=
  ⟨_, load_sizing (by decide) (by decide) (by decide), by decide,
    Chunk.mergeLimit_of_le (by decide), Chunk.chunk_of_le (by decide) _ _⟩

end CodeIndex.Config
