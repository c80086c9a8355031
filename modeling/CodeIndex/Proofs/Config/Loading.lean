import CodeIndex.Config.Loading
import CodeIndex.Proofs.Json.Decoding
import CodeIndex.Proofs.Numeric.Numeral

/-! What settings can be loaded.  They are the settings of the file with the environment above them,
and they have no fault.  For the sizes of fragments this means that they are words, and that the
overlap is below the size; all such sizes can be set by the environment alone. -/

namespace CodeIndex.Config

open Json (bind_eq_ok_iff)
open Numeric (lt_of_readWord? readWord?_toString twoTo)

variable {s : Settings} {env : Environment}

/-! ### Settings without fault -/

theorem guard_eq_none_iff {α : Type} {c : Prop} [Decidable c] {a : α} {rest : Option α} :
    (if c then some a else rest) = none ↔ ¬c ∧ rest = none := by
  by_cases h : c <;> simp [h]

theorem fault?_eq_none_iff : s.fault? = none ↔
    (isBlank s.embedding.baseUrl = false ∧ isBlank s.embedding.model = false ∧
      s.embedding.dimensions ≠ 0 ∧ s.embedding.timeout ≠ 0) ∧
    (isBlank s.store.url = false ∧ isBlank s.store.collection = false) ∧
    (s.chunks.maxSize ≠ 0 ∧ s.chunks.overlap < s.chunks.maxSize) ∧
    isBlank s.watch.url = false ∧ s.watch.baseInterval ≠ 0 := by
  simp only [Settings.fault?, guard_eq_none_iff, Bool.not_eq_true, Nat.not_le, and_true, and_assoc,
    ne_eq]

theorem fault?_default : ({} : Settings).fault? = none := by decide

/-! ### Words -/

theorem lt_of_word? {bits n : Nat} {v : Toml.Value} (h : word? bits v = some n) :
    n < twoTo bits := by
  cases v with
  | integer k =>
    simp only [word?, Option.ite_none_right_eq_some] at h
    obtain ⟨⟨hlow, hhigh⟩, hvalue⟩ := h
    obtain rfl := Option.some.inj hvalue
    omega
  | _ => cases h

theorem setting_cases {α : Type} {sec : Section} {name : String} {place : Nat}
    {read : Toml.Value → Option α} {default a : α}
    (h : sec.setting name place read default = some a) :
    a = default ∨ ∃ v, read v = some a := by
  rw [Section.setting] at h
  split at h
  · exact .inr ⟨_, h⟩
  · exact .inl (Option.some.inj h).symm

theorem Environment.word_lt {bits default : Nat} (name : String) (h : default < twoTo bits) :
    env.word bits name default < twoTo bits := by
  rw [Environment.word]
  cases hread : (env name).bind (Numeric.readWord? bits) with
  | none => exact h
  | some n =>
    obtain ⟨text, -, htext⟩ := Option.bind_eq_some_iff.1 hread
    exact lt_of_readWord? htext

/-! ### Sizes of fragments -/

theorem maxSize_lt_of_readChunks {sec : Section} {o : Chunk.Options}
    (h : readChunks sec = some o) : o.maxSize < twoTo 64 := by
  obtain ⟨maxSize, hsize, h⟩ := Option.bind_eq_some_iff.1 h
  obtain ⟨overlap, -, h⟩ := Option.bind_eq_some_iff.1 h
  cases h
  rcases setting_cases hsize with rfl | ⟨v, hv⟩
  · show 1000 < twoTo 64
    decide
  · exact lt_of_word? hv

theorem maxSize_lt_of_ofDocument? {text : String} (h : Settings.ofDocument? text = some s) :
    s.chunks.maxSize < twoTo 64 := by
  obtain ⟨entries, -, h⟩ := Option.bind_eq_some_iff.1 h
  simp only [Option.ite_none_right_eq_some] at h
  obtain ⟨-, h⟩ := h
  obtain ⟨embedding, -, h⟩ := Option.bind_eq_some_iff.1 h
  obtain ⟨store, -, h⟩ := Option.bind_eq_some_iff.1 h
  obtain ⟨chunks, hchunks, h⟩ := Option.bind_eq_some_iff.1 h
  obtain ⟨watch, -, h⟩ := Option.bind_eq_some_iff.1 h
  cases h
  show chunks.maxSize < twoTo 64
  rw [readSection] at hchunks
  split at hchunks
  · obtain ⟨sec, -, hread⟩ := Option.bind_eq_some_iff.1 hchunks
    exact maxSize_lt_of_readChunks hread
  · cases hchunks
    decide

theorem maxSize_lt_of_readFound {path : String} {found : Option (Except Files.IoError String)}
    (h : readFound path found = .ok s) : s.chunks.maxSize < twoTo 64 := by
  rcases found with _ | reason | text
  · cases h
    decide
  · cases h
  · rw [readFound] at h
    cases hread : Settings.ofDocument? text with
    | none =>
      rw [hread] at h
      cases h
    | some read =>
      rw [hread] at h
      cases h
      exact maxSize_lt_of_ofDocument? hread

/-- Settings are loaded if what the file and the environment give has no fault. -/
theorem loadFound_eq_ok_iff {path : String} {found : Option (Except Files.IoError String)} :
    loadFound path found env = .ok s ↔
      ∃ read, readFound path found = .ok read ∧ read.override env = s ∧ s.fault? = none := by
  simp only [loadFound, bind_eq_ok_iff]
  constructor
  · rintro ⟨read, hread, h⟩
    split at h
    · cases h
    · next hfault =>
      cases h
      exact ⟨read, hread, rfl, hfault⟩
  · rintro ⟨read, hread, rfl, hfault⟩
    refine ⟨read, hread, ?_⟩
    rw [hfault]

/-- These sizes of fragments are in settings that can be loaded. -/
def Accepted (o : Chunk.Options) : Prop :=
  ∃ files named env s, load files named env = .ok s ∧ s.chunks = o

theorem Accepted.bounds {o : Chunk.Options} (h : Accepted o) :
    0 < o.maxSize ∧ o.overlap < o.maxSize ∧ o.maxSize < Chunk.sizeBound := by
  obtain ⟨files, named, env, s, hload, rfl⟩ := h
  obtain ⟨read, hread, rfl, hfault⟩ := loadFound_eq_ok_iff.1 hload
  obtain ⟨-, -, ⟨hsize, hoverlap⟩, -⟩ := fault?_eq_none_iff.1 hfault
  exact ⟨Nat.pos_of_ne_zero hsize, hoverlap,
    Environment.word_lt _ (maxSize_lt_of_readFound hread)⟩

/-- An environment that sets the sizes of fragments and nothing else. -/
def sizing (o : Chunk.Options) : Environment := fun name =>
  if name = "CODESYNC_CHUNK_MAX_SIZE" then some (toString o.maxSize)
  else if name = "CODESYNC_CHUNK_OVERLAP" then some (toString o.overlap)
  else none

theorem load_sizing {o : Chunk.Options} (hpos : 0 < o.maxSize) (hoverlap : o.overlap < o.maxSize)
    (hlt : o.maxSize < Chunk.sizeBound) :
    load (.directory []) none (sizing o) = .ok { ({} : Settings) with chunks := o } := by
  replace hlt : o.maxSize < twoTo 64 := hlt
  have hnone : (Files.Entry.directory []).textAt? (resolvePath none (sizing o)) = none := by
    show (Files.Entry.directory []).textAt? defaultPath = none
    rfl
  have hmax : (sizing o).word 64 "CODESYNC_CHUNK_MAX_SIZE" 1000 = o.maxSize := by
    show (Numeric.readWord? 64 (toString o.maxSize)).getD 1000 = o.maxSize
    rw [readWord?_toString hlt, Option.getD_some]
  have hover : (sizing o).word 64 "CODESYNC_CHUNK_OVERLAP" 200 = o.overlap := by
    show (Numeric.readWord? 64 (toString o.overlap)).getD 200 = o.overlap
    rw [readWord?_toString (Nat.lt_trans hoverlap hlt), Option.getD_some]
  refine loadFound_eq_ok_iff.2 ⟨{}, by rw [hnone]; rfl, ?_, ?_⟩
  · show ({ ({} : Settings) with
      chunks := ⟨(sizing o).word 64 "CODESYNC_CHUNK_MAX_SIZE" 1000,
        (sizing o).word 64 "CODESYNC_CHUNK_OVERLAP" 200⟩ } : Settings) = _
    rw [hmax, hover]
  · obtain ⟨hembedding, hstore, -, hwatch⟩ := fault?_eq_none_iff.1 fault?_default
    exact fault?_eq_none_iff.2 ⟨hembedding, hstore, ⟨Nat.pos_iff_ne_zero.1 hpos, hoverlap⟩, hwatch⟩

theorem accepted_iff {o : Chunk.Options} :
    Accepted o ↔ 0 < o.maxSize ∧ o.overlap < o.maxSize ∧ o.maxSize < Chunk.sizeBound :=
  ⟨Accepted.bounds, fun ⟨hpos, hoverlap, hlt⟩ =>
    ⟨_, _, _, _, load_sizing hpos hoverlap hlt, rfl⟩⟩

end CodeIndex.Config
