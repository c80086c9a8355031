import CodeIndex.Proofs.Json.Decoding
import CodeIndex.Store.Payload
import Mathlib.Logic.Relation

/-! The JSON form of payloads.  A payload is read back from its form, and from every value that spells
the form in other words: with unknown members, or with a record given as the array of its fields.
Whatever else is found in the place of a field is refused, and so is a record that lacks one. -/

namespace CodeIndex.Store

open Json (Respelled Value bind_eq_ok_iff field?_array_iff get?_append_cons_of_ne get?_eq_some_iff
  item_eq_ok_iff item_signed_iff item_text_iff item_unsigned_iff member?_eq_ok_some_iff
  member?_signed_iff member?_text_iff member?_unsigned_iff noMore_eq_ok_iff pure_eq_ok_iff
  required_eq_ok_iff)

/-! ### The facts about a file -/

namespace Metadata

def fieldNames : List String :=
  ["filePath", "fileName", "fileExtension", "fileSize", "fileLastModified", "startLine", "endLine"]

/-- The fields that hold a count. -/
def countNames : List String := ["fileSize", "startLine", "endLine"]

/-- A value has these facts, each in the place of its field. -/
structure Spelled (m : Metadata) (v : Value) : Prop where
  filePath : v.field? fieldNames "filePath" = some (.string m.filePath)
  fileName : v.field? fieldNames "fileName" = some (.string m.fileName)
  fileExtension : v.field? fieldNames "fileExtension" = some (.string m.fileExtension)
  fileSize : v.field? fieldNames "fileSize" = some (.nat m.fileSize.toNat)
  fileLastModified :
    v.field? fieldNames "fileLastModified" = some (.int m.fileLastModified.toInt)
  startLine : v.field? fieldNames "startLine" = some (.nat m.startLine.toNat)
  endLine : v.field? fieldNames "endLine" = some (.nat m.endLine.toNat)

variable {m : Metadata} {v w : Value}

theorem spelled_toJson (m : Metadata) : m.Spelled m.toJson := ⟨rfl, rfl, rfl, rfl, rfl, rfl, rfl⟩

theorem ofJson_object_iff {ms : List (String × Value)} :
    ofJson (.object ms) = .ok m ↔ m.Spelled (.object ms) := by
  constructor
  · intro h
    simp only [ofJson, bind_eq_ok_iff, pure_eq_ok_iff, required_eq_ok_iff] at h
    obtain ⟨_, hend, _, hextension, _, htime, _, hname, _, hpath, _, hsize, _, hstart,
      _, rfl, _, rfl, _, rfl, _, rfl, _, rfl, _, rfl, _, rfl, rfl⟩ := h
    exact {
      filePath := member?_text_iff.1 hpath
      fileName := member?_text_iff.1 hname
      fileExtension := member?_text_iff.1 hextension
      fileSize := member?_unsigned_iff.1 hsize
      fileLastModified := member?_signed_iff.1 htime
      startLine := member?_unsigned_iff.1 hstart
      endLine := member?_unsigned_iff.1 hend }
  · intro h
    simp only [ofJson]
    rw [member?_unsigned_iff.2 h.endLine, member?_text_iff.2 h.fileExtension,
      member?_signed_iff.2 h.fileLastModified, member?_text_iff.2 h.fileName,
      member?_text_iff.2 h.filePath, member?_unsigned_iff.2 h.fileSize,
      member?_unsigned_iff.2 h.startLine]
    rfl

theorem ofJson_array_iff {items : List Value} :
    ofJson (.array items) = .ok m ↔ m.Spelled (.array items) := by
  constructor
  · intro h
    simp only [ofJson, bind_eq_ok_iff, pure_eq_ok_iff] at h
    obtain ⟨_, hpath, _, hname, _, hextension, _, hsize, _, htime, _, hstart, _, hend, _, hmore,
      rfl⟩ := h
    have hlength : items.length = 7 := by
      have hlow := (List.getElem?_eq_some_iff.1 (item_unsigned_iff.1 hend)).1
      have hhigh := noMore_eq_ok_iff.1 hmore
      omega
    exact {
      filePath := field?_array_iff.2 ⟨hlength, item_text_iff.1 hpath⟩
      fileName := field?_array_iff.2 ⟨hlength, item_text_iff.1 hname⟩
      fileExtension := field?_array_iff.2 ⟨hlength, item_text_iff.1 hextension⟩
      fileSize := field?_array_iff.2 ⟨hlength, item_unsigned_iff.1 hsize⟩
      fileLastModified := field?_array_iff.2 ⟨hlength, item_signed_iff.1 htime⟩
      startLine := field?_array_iff.2 ⟨hlength, item_unsigned_iff.1 hstart⟩
      endLine := field?_array_iff.2 ⟨hlength, item_unsigned_iff.1 hend⟩ }
  · intro h
    obtain ⟨hlength : items.length = 7, hpath : items[0]? = _⟩ := field?_array_iff.1 h.filePath
    obtain ⟨-, hname : items[1]? = _⟩ := field?_array_iff.1 h.fileName
    obtain ⟨-, hextension : items[2]? = _⟩ := field?_array_iff.1 h.fileExtension
    obtain ⟨-, hsize : items[3]? = _⟩ := field?_array_iff.1 h.fileSize
    obtain ⟨-, htime : items[4]? = _⟩ := field?_array_iff.1 h.fileLastModified
    obtain ⟨-, hstart : items[5]? = _⟩ := field?_array_iff.1 h.startLine
    obtain ⟨-, hend : items[6]? = _⟩ := field?_array_iff.1 h.endLine
    simp only [ofJson]
    rw [item_text_iff.2 hpath, item_text_iff.2 hname, item_text_iff.2 hextension,
      item_unsigned_iff.2 hsize, item_signed_iff.2 htime, item_unsigned_iff.2 hstart,
      item_unsigned_iff.2 hend, noMore_eq_ok_iff.2 (Nat.le_of_eq hlength)]
    rfl

theorem ofJson_eq_ok_iff : ofJson v = .ok m ↔ m.Spelled v := by
  cases v with
  | object ms => exact ofJson_object_iff
  | array items => exact ofJson_array_iff
  | null | bool | number | string =>
    constructor
    · intro h
      cases h
    · intro h
      cases h.filePath

theorem Spelled.of_field? (h : m.Spelled v)
    (same : ∀ name ∈ fieldNames, w.field? fieldNames name = v.field? fieldNames name) :
    m.Spelled w where
  filePath := (same _ (by decide)).trans h.filePath
  fileName := (same _ (by decide)).trans h.fileName
  fileExtension := (same _ (by decide)).trans h.fileExtension
  fileSize := (same _ (by decide)).trans h.fileSize
  fileLastModified := (same _ (by decide)).trans h.fileLastModified
  startLine := (same _ (by decide)).trans h.startLine
  endLine := (same _ (by decide)).trans h.endLine

theorem spelled_iff_of_respelled (h : Respelled fieldNames v w) : m.Spelled v ↔ m.Spelled w :=
  ⟨fun hv => hv.of_field? fun _ => h.field?, fun hw => hw.of_field? fun _ hn => (h.field? hn).symm⟩

/-- What no value of the facts about a file has: a field left out, an array of another length, a
number with a fraction or an exponent, or a whole number beyond the range of its field. -/
inductive Flawed : Value → Prop where
  | missing {ms : List (String × Value)} {name : String} (field : name ∈ fieldNames)
      (missing : ∀ e ∈ ms, e.1 ≠ name) : Flawed (.object ms)
  | length {items : List Value} (length : items.length ≠ fieldNames.length) :
      Flawed (.array items)
  | floating {v : Value} {name : String} {x : Float} (field : name ∈ fieldNames)
      (found : v.field? fieldNames name = some (.number (.double x))) : Flawed v
  | count {v : Value} {name : String} {n : Int} (field : name ∈ countNames)
      (found : v.field? fieldNames name = some (.int n))
      (range : n < 0 ∨ 0x10000000000000000 ≤ n) : Flawed v
  | time {v : Value} {n : Int} (found : v.field? fieldNames "fileLastModified" = some (.int n))
      (range : n < -0x8000000000000000 ∨ 0x8000000000000000 ≤ n) : Flawed v

/-- Each field of the facts has a value, which is no double. -/
theorem Spelled.exists_field? (h : m.Spelled v) {name : String} (field : name ∈ fieldNames) :
    ∃ w, v.field? fieldNames name = some w ∧ ∀ x, w ≠ .number (.double x) := by
  simp only [fieldNames, List.mem_cons, List.not_mem_nil, or_false] at field
  rcases field with rfl | rfl | rfl | rfl | rfl | rfl | rfl
  · exact ⟨_, h.filePath, by simp⟩
  · exact ⟨_, h.fileName, by simp⟩
  · exact ⟨_, h.fileExtension, by simp⟩
  · exact ⟨_, h.fileSize, by simp [Value.nat]⟩
  · exact ⟨_, h.fileLastModified, by simp [Value.int]⟩
  · exact ⟨_, h.startLine, by simp [Value.nat]⟩
  · exact ⟨_, h.endLine, by simp [Value.nat]⟩

theorem Spelled.exists_count (h : m.Spelled v) {name : String} (field : name ∈ countNames) :
    ∃ n : UInt64, v.field? fieldNames name = some (.nat n.toNat) := by
  simp only [countNames, List.mem_cons, List.not_mem_nil, or_false] at field
  rcases field with rfl | rfl | rfl
  · exact ⟨_, h.fileSize⟩
  · exact ⟨_, h.startLine⟩
  · exact ⟨_, h.endLine⟩

theorem Flawed.not_spelled (flawed : Flawed v) : ¬ m.Spelled v := by
  intro h
  cases flawed with
  | missing field missing =>
    obtain ⟨w, hw, -⟩ := h.exists_field? field
    obtain ⟨before, after, rfl, -⟩ := get?_eq_some_iff.1 hw
    exact missing (_, w) (by simp) rfl
  | length length => exact length (field?_array_iff.1 h.filePath).1
  | @floating _ _ x field found =>
    obtain ⟨w, hw, hdouble⟩ := h.exists_field? field
    rw [hw] at found
    exact hdouble x (Option.some.inj found)
  | @count _ _ n field found range =>
    obtain ⟨k, hk⟩ := h.exists_count field
    rw [hk] at found
    obtain rfl : (k.toNat : Int) = n := by simpa [Value.nat, Value.int] using found
    have := k.toNat_lt
    omega
  | @time _ n found range =>
    rw [h.fileLastModified] at found
    obtain rfl : m.fileLastModified.toInt = n := by simpa [Value.int] using found
    have := m.fileLastModified.le_toInt
    have := m.fileLastModified.toInt_lt
    omega

end Metadata

/-! ### Payloads -/

namespace Payload

def fieldNames : List String := ["codeString", "metadata"]

variable {p : Payload} {v w : Value}

/-- A value has the text of a payload and the facts about its file, each in the place of its
field. -/
structure Spelled (p : Payload) (v : Value) : Prop where
  code : v.field? fieldNames "codeString" = some (.string p.code)
  metadata : ∃ w, v.field? fieldNames "metadata" = some w ∧ p.metadata.Spelled w

theorem spelled_toJson (p : Payload) : p.Spelled p.toJson :=
  ⟨rfl, _, rfl, p.metadata.spelled_toJson⟩

theorem ofJson_object_iff {ms : List (String × Value)} :
    ofJson (.object ms) = .ok p ↔ p.Spelled (.object ms) := by
  constructor
  · intro h
    simp only [ofJson, bind_eq_ok_iff, pure_eq_ok_iff, required_eq_ok_iff] at h
    obtain ⟨_, hcode, _, hmetadata, _, rfl, _, rfl, rfl⟩ := h
    obtain ⟨w, hw, hread⟩ := member?_eq_ok_some_iff.1 hmetadata
    exact ⟨member?_text_iff.1 hcode, w, hw, Metadata.ofJson_eq_ok_iff.1 hread⟩
  · rintro ⟨hcode, w, hw, hread⟩
    simp only [ofJson]
    rw [member?_text_iff.2 hcode,
      member?_eq_ok_some_iff.2 ⟨w, hw, Metadata.ofJson_eq_ok_iff.2 hread⟩]
    rfl

theorem ofJson_array_iff {items : List Value} :
    ofJson (.array items) = .ok p ↔ p.Spelled (.array items) := by
  constructor
  · intro h
    simp only [ofJson, bind_eq_ok_iff, pure_eq_ok_iff] at h
    obtain ⟨_, hcode, _, hmetadata, _, hmore, rfl⟩ := h
    obtain ⟨w, hw, hread⟩ := item_eq_ok_iff.1 hmetadata
    have hlength : items.length = 2 := by
      have hlow := (List.getElem?_eq_some_iff.1 hw).1
      have hhigh := noMore_eq_ok_iff.1 hmore
      omega
    exact ⟨field?_array_iff.2 ⟨hlength, item_text_iff.1 hcode⟩, w,
      field?_array_iff.2 ⟨hlength, hw⟩, Metadata.ofJson_eq_ok_iff.1 hread⟩
  · rintro ⟨hcode, w, hw, hread⟩
    obtain ⟨hlength : items.length = 2, hcode : items[0]? = _⟩ := field?_array_iff.1 hcode
    obtain ⟨-, hw : items[1]? = _⟩ := field?_array_iff.1 hw
    simp only [ofJson]
    rw [item_text_iff.2 hcode, item_eq_ok_iff.2 ⟨w, hw, Metadata.ofJson_eq_ok_iff.2 hread⟩,
      noMore_eq_ok_iff.2 (Nat.le_of_eq hlength)]
    rfl

theorem ofJson_eq_ok_iff : ofJson v = .ok p ↔ p.Spelled v := by
  cases v with
  | object ms => exact ofJson_object_iff
  | array items => exact ofJson_array_iff
  | null | bool | number | string =>
    constructor
    · intro h
      cases h
    · intro h
      cases h.code

/-- The same payload in other words: the payload itself is respelled, or the facts about its file. -/
inductive Reworded : Value → Value → Prop where
  | payload {v w : Value} (respelled : Respelled fieldNames v w) : Reworded v w
  | member {before after : List (String × Value)} {v w : Value}
      (last : ∀ e ∈ after, e.1 ≠ "metadata")
      (respelled : Respelled Metadata.fieldNames v w) :
      Reworded (.object (before ++ ("metadata", v) :: after))
        (.object (before ++ ("metadata", w) :: after))
  | item {code v w : Value} (respelled : Respelled Metadata.fieldNames v w) :
      Reworded (.array [code, v]) (.array [code, w])

theorem Spelled.of_field? (h : p.Spelled v)
    (code : w.field? fieldNames "codeString" = v.field? fieldNames "codeString")
    {found found' : Value} (hfound : v.field? fieldNames "metadata" = some found)
    (hfound' : w.field? fieldNames "metadata" = some found')
    (metadata : p.metadata.Spelled found → p.metadata.Spelled found') : p.Spelled w := by
  obtain ⟨u, hu, hspelled⟩ := h.metadata
  obtain rfl := Option.some.inj (hu.symm.trans hfound)
  exact ⟨code.trans h.code, found', hfound', metadata hspelled⟩

theorem spelled_iff_of_reworded (h : Reworded v w) : p.Spelled v ↔ p.Spelled w := by
  cases h with
  | payload respelled =>
    have hcode := respelled.field? (show "codeString" ∈ fieldNames by decide)
    have hmetadata := respelled.field? (show "metadata" ∈ fieldNames by decide)
    constructor
    · rintro ⟨code, u, hu, hspelled⟩
      exact ⟨hcode.trans code, u, hmetadata.trans hu, hspelled⟩
    · rintro ⟨code, u, hu, hspelled⟩
      exact ⟨hcode.symm.trans code, u, hmetadata.symm.trans hu, hspelled⟩
  | @member before after v w last respelled =>
    have hfound : ∀ u, (Value.object (before ++ ("metadata", u) :: after)).field? fieldNames
        "metadata" = some u := fun u => get?_eq_some_iff.2 ⟨before, after, rfl, last⟩
    have hcode : ∀ u, (Value.object (before ++ ("metadata", u) :: after)).field? fieldNames
        "codeString" = (Value.object (before ++ after)).get? "codeString" :=
      fun u => get?_append_cons_of_ne (by show "metadata" ≠ "codeString"; decide)
    have hmetadata := Metadata.spelled_iff_of_respelled (m := p.metadata) respelled
    exact ⟨fun h => h.of_field? ((hcode w).trans (hcode v).symm) (hfound v) (hfound w) hmetadata.1,
      fun h => h.of_field? ((hcode v).trans (hcode w).symm) (hfound w) (hfound v) hmetadata.2⟩
  | @item code v w respelled =>
    have hmetadata := Metadata.spelled_iff_of_respelled (m := p.metadata) respelled
    exact ⟨fun h => h.of_field? rfl rfl rfl hmetadata.1,
      fun h => h.of_field? rfl rfl rfl hmetadata.2⟩

theorem spelled_iff_of_eqvGen (h : Relation.EqvGen Reworded v w) : p.Spelled v ↔ p.Spelled w := by
  induction h with
  | rel _ _ reworded => exact spelled_iff_of_reworded reworded
  | refl => exact Iff.rfl
  | symm _ _ _ ih => exact ih.symm
  | trans _ _ _ _ _ hfirst hsecond => exact hfirst.trans hsecond

/-- What no value of a payload has: a field left out, an array of another length, a number with
a fraction or an exponent, or facts about the file that are flawed. -/
inductive Flawed : Value → Prop where
  | missing {ms : List (String × Value)} {name : String} (field : name ∈ fieldNames)
      (missing : ∀ e ∈ ms, e.1 ≠ name) : Flawed (.object ms)
  | length {items : List Value} (length : items.length ≠ fieldNames.length) :
      Flawed (.array items)
  | floating {v : Value} {name : String} {x : Float} (field : name ∈ fieldNames)
      (found : v.field? fieldNames name = some (.number (.double x))) : Flawed v
  | metadata {v w : Value} (found : v.field? fieldNames "metadata" = some w)
      (flawed : Metadata.Flawed w) : Flawed v

theorem Flawed.not_spelled (flawed : Flawed v) : ¬ p.Spelled v := by
  rintro ⟨hcode, u, hu, hspelled⟩
  cases flawed with
  | @missing ms name field missing =>
    have hnone : ∀ w, (Value.object ms).get? name ≠ some w := by
      intro w hw
      obtain ⟨before, after, rfl, -⟩ := get?_eq_some_iff.1 hw
      exact missing (_, w) (by simp) rfl
    simp only [fieldNames, List.mem_cons, List.not_mem_nil, or_false] at field
    rcases field with rfl | rfl
    · exact hnone _ hcode
    · exact hnone _ hu
  | length length => exact length (field?_array_iff.1 hcode).1
  | @floating _ name x field found =>
    simp only [fieldNames, List.mem_cons, List.not_mem_nil, or_false] at field
    rcases field with rfl | rfl
    · simp [hcode] at found
    · obtain rfl := Option.some.inj (hu.symm.trans found)
      cases hspelled.filePath
  | metadata found flawed =>
    obtain rfl := Option.some.inj (hu.symm.trans found)
    exact flawed.not_spelled hspelled

theorem Flawed.refused (flawed : Flawed v) : ∃ reason, ofJson v = .error reason := by
  cases h : ofJson v with
  | error reason => exact ⟨reason, rfl⟩
  | ok p => exact absurd (ofJson_eq_ok_iff.1 h) flawed.not_spelled

/-- A payload is read back from its form.  A value from which it is read can be put in other words, with
unknown members or with its records as arrays of their fields or back, and the payload is still read
from it.  A value that lacks a field, has a number of the wrong kind or beyond the range of its
field, or has an array of the wrong length, is refused. -/
theorem ofJson_ignores_spelling :
    (∀ p : Payload, ofJson p.toJson = .ok p) ∧
    (∀ v p, ofJson v = .ok p → ∀ w, Relation.EqvGen Reworded v w → ofJson w = .ok p) ∧
    ∀ v, Flawed v → ∃ reason, ofJson v = .error reason :=
  ⟨fun p => ofJson_eq_ok_iff.2 p.spelled_toJson,
    fun _ _ h _ hw => ofJson_eq_ok_iff.2 ((spelled_iff_of_eqvGen hw).1 (ofJson_eq_ok_iff.1 h)),
    fun _ flawed => flawed.refused⟩

/-- The first line of a small file that was last changed before 1970. -/
def smallFile : Payload := ⟨"let a", ⟨"a.js", "a.js", "js", 5, -1, 1, 1⟩⟩

/-- Given as an array, with a member more among the facts about the file, it is read; without its last
item it is refused. -/
theorem ofJson_ignores_spelling_smallFile :
    ofJson (.array [.string "let a",
      .object (smallFile.metadata.toJson.members ++ [("owner", .null)])]) = .ok smallFile ∧
    ∃ reason, ofJson (.array [.string "let a"]) = .error reason := by
  have hlisted : Reworded smallFile.toJson
      (.array [.string "let a", .object smallFile.metadata.toJson.members]) :=
    .payload (.listed rfl)
  have hmember : Reworded (.array [.string "let a", .object smallFile.metadata.toJson.members])
      (.array [.string "let a",
        .object (smallFile.metadata.toJson.members ++ [("owner", .null)])]) :=
    .item (.members rfl)
  obtain ⟨hform, hspelling, hflawed⟩ := ofJson_ignores_spelling
  exact ⟨hspelling _ _ (hform smallFile) _ (.trans _ _ _ (.rel _ _ hlisted) (.rel _ _ hmember)),
    hflawed _ (.length (by decide))⟩

end Payload

end CodeIndex.Store
