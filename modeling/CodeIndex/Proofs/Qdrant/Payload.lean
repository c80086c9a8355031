import CodeIndex.Proofs.Store.Ranking
import CodeIndex.Qdrant.Client

/-! Payloads on their way to a vector server and back.  A payload is sent as the fields of a point
and read from the fields of a point that was found, which have no order.  It comes back as it was
when its counts are sent as whole numbers.  A greater count is sent as a double, which is not read
as a count, so that an error comes back and never another payload. -/

namespace CodeIndex.Store

/-- The greatest count that is sent as a whole number. -/
def maxWhole : Nat := 0x7FFFFFFFFFFFFFFF

/-- All counts among the facts about a file are sent as whole numbers. -/
structure Metadata.Whole (m : Metadata) : Prop where
  fileSize : m.fileSize.toNat ≤ maxWhole
  startLine : m.startLine.toNat ≤ maxWhole
  endLine : m.endLine.toNat ≤ maxWhole

end CodeIndex.Store

namespace CodeIndex.Qdrant

open Json (DecodeError Decoder Expected Value decodeSigned decodeText decodeUnsigned member?)
open Store (Hit Metadata Payload Record maxWhole)

/-! ### Values -/

/-- The value that comes back for one that was sent. -/
def returned (v : Value) : Value := (Content.ofJson v).toJson

theorem returned_of_whole {n : Int} (hlow : -0x8000000000000000 ≤ n)
    (hhigh : n < 0x8000000000000000) : returned (.int n) = .int n := by
  have hcontent : Content.ofJson (.int n) = .integer (Int64.ofInt n) := by
    show Content.ofNumber (.whole n) = _
    rw [Content.ofNumber, if_pos ⟨hlow, hhigh⟩]
  have hvalue : (Int64.ofInt n).toInt = n := Int64.toInt_ofInt_of_le hlow hhigh
  rw [returned, hcontent, Content.toJson, hvalue]

theorem returned_of_large {n : Nat} (h : maxWhole < n) :
    returned (.nat n) = jsonOfDouble (Float.ofInt n) := by
  have hcontent : Content.ofJson (.nat n) = .double (Float.ofInt n) := by
    show Content.ofNumber (.whole n) = _
    rw [Content.ofNumber, if_neg]
    unfold maxWhole at h
    omega
  rw [returned, hcontent, Content.toJson]

theorem decodeSigned_returned (n : Int64) : decodeSigned (returned (.int n.toInt)) = .ok n := by
  have hlow := n.le_toInt
  have hhigh := n.toInt_lt
  rw [returned_of_whole (by omega) (by omega)]
  show decodeSigned (.number (.whole n.toInt)) = _
  rw [decodeSigned, if_pos ⟨by omega, by omega⟩, Int64.ofInt_toInt]

theorem decodeUnsigned_returned {n : UInt64} (h : n.toNat ≤ maxWhole) (expected : Expected) :
    decodeUnsigned expected (returned (.nat n.toNat)) = .ok n := by
  unfold maxWhole at h
  have hreturned : returned (.nat n.toNat) = .int n.toNat :=
    returned_of_whole (by omega) (by omega)
  rw [hreturned]
  show decodeUnsigned expected (.number (.whole n.toNat)) = _
  rw [decodeUnsigned, if_pos ⟨by omega, by omega⟩, Int.toNat_natCast, UInt64.ofNat_toNat]

theorem decodeUnsigned_returned_of_large {n : UInt64} (h : maxWhole < n.toNat)
    (expected : Expected) :
    decodeUnsigned expected (returned (.nat n.toNat)) =
      .error (.wrongType (jsonOfDouble (Float.ofInt n.toNat)) expected) := by
  -- a double that is not finite comes back as nothing, which is no count either
  rw [returned_of_large h, jsonOfDouble]
  split <;> rfl

/-! ### Fields -/

theorem fieldsOf_eq_map (ms : List (String × Value)) :
    fieldsOf ms = ms.map fun e => (e.1, Content.ofJson e.2) := by
  induction ms with
  | nil => rfl
  | cons e rest ih => rw [fieldsOf, ih, List.map_cons]

theorem jsonOfFields_eq_map (fields : List (String × Content)) :
    jsonOfFields fields = fields.map fun e => (e.1, e.2.toJson) := by
  induction fields with
  | nil => rfl
  | cons e rest ih => rw [jsonOfFields, ih, List.map_cons]

theorem get?_jsonOfFields {fields : List (String × Content)} {name : String} {c : Content}
    (hnames : (fields.map Prod.fst).Nodup) (h : (name, c) ∈ fields) :
    (Value.object (jsonOfFields fields)).get? name = some c.toJson := by
  rw [Value.get?, Value.members, jsonOfFields_eq_map]
  apply Store.lookup_of_mem
  · rw [List.map_reverse, (List.reverse_perm _).nodup_iff, List.map_map]
    exact hnames
  · exact List.mem_reverse.2 (List.mem_map_of_mem h)

/-- Fields in which the facts about a file may come back. -/
def DeliversMetadata (m : Metadata) (members : List (String × Content)) : Prop :=
  members.Perm (fieldsOf m.toJson.members)

/-- Fields in which a payload may come back: the two that were sent, in some order, and the facts
about the file in an order of their own. -/
def Delivers (p : Payload) (fields : List (String × Content)) : Prop :=
  ∃ members, DeliversMetadata p.metadata members ∧
    fields.Perm [("codeString", .text p.code), ("metadata", .fields members)]

theorem delivers_payloadFields (p : Payload) : Delivers p (payloadFields p) :=
  ⟨fieldsOf p.metadata.toJson.members, List.Perm.refl _, List.Perm.refl _⟩

section

variable {m : Metadata} {members : List (String × Content)} (h : DeliversMetadata m members)
include h

theorem DeliversMetadata.member? {α : Type} {decode : Decoder α} (name : String) (v : Value)
    (hmember : (name, v) ∈ m.toJson.members := by simp [Metadata.toJson, Value.members]) :
    member? (.object (jsonOfFields members)) name decode = some <$> decode (returned v) := by
  have hnames : (members.map Prod.fst).Nodup := by
    rw [(h.map Prod.fst).nodup_iff, fieldsOf_eq_map, List.map_map]
    show ["endLine", "fileExtension", "fileLastModified", "fileName", "filePath", "fileSize",
      "startLine"].Nodup
    decide
  have hsent : (name, Content.ofJson v) ∈ members := by
    rw [h.mem_iff, fieldsOf_eq_map]
    exact List.mem_map_of_mem hmember
  rw [Json.member?, get?_jsonOfFields hnames hsent]
  rfl

/-- Only a count can be refused.  They are read in the order of their names. -/
theorem DeliversMetadata.ofJson :
    Metadata.ofJson (.object (jsonOfFields members)) = (do
      let endLine ← decodeUnsigned .size (returned (.nat m.endLine.toNat))
      let fileSize ← decodeUnsigned .unsigned (returned (.nat m.fileSize.toNat))
      let startLine ← decodeUnsigned .size (returned (.nat m.startLine.toNat))
      pure { m with fileSize, startLine, endLine }) := by
  simp only [Metadata.ofJson]
  rw [h.member? "endLine" (.nat m.endLine.toNat),
    h.member? "fileExtension" (.string m.fileExtension),
    h.member? "fileLastModified" (.int m.fileLastModified.toInt),
    h.member? "fileName" (.string m.fileName),
    h.member? "filePath" (.string m.filePath),
    h.member? "fileSize" (.nat m.fileSize.toNat),
    h.member? "startLine" (.nat m.startLine.toNat), decodeSigned_returned]
  cases decodeUnsigned .size (returned (.nat m.endLine.toNat)) with
  | error reason => rfl
  | ok endLine =>
    cases decodeUnsigned .unsigned (returned (.nat m.fileSize.toNat)) with
    | error reason => rfl
    | ok fileSize =>
      cases decodeUnsigned .size (returned (.nat m.startLine.toNat)) with
      | error reason => rfl
      | ok startLine => rfl

theorem DeliversMetadata.ofJson_of_whole (hwhole : m.Whole) :
    Metadata.ofJson (.object (jsonOfFields members)) = .ok m := by
  rw [h.ofJson, decodeUnsigned_returned hwhole.endLine, decodeUnsigned_returned hwhole.fileSize,
    decodeUnsigned_returned hwhole.startLine]
  rfl

theorem DeliversMetadata.ofJson_of_not_whole (hwhole : ¬ m.Whole) :
    ∃ reason, Metadata.ofJson (.object (jsonOfFields members)) = .error reason := by
  rw [h.ofJson]
  by_cases hend : m.endLine.toNat ≤ maxWhole
  · rw [decodeUnsigned_returned hend]
    by_cases hsize : m.fileSize.toNat ≤ maxWhole
    · rw [decodeUnsigned_returned hsize]
      have hstart : ¬ m.startLine.toNat ≤ maxWhole := fun hstart => hwhole ⟨hsize, hstart, hend⟩
      rw [decodeUnsigned_returned_of_large (Nat.lt_of_not_le hstart)]
      exact ⟨_, rfl⟩
    · rw [decodeUnsigned_returned_of_large (Nat.lt_of_not_le hsize)]
      exact ⟨_, rfl⟩
  · rw [decodeUnsigned_returned_of_large (Nat.lt_of_not_le hend)]
    exact ⟨_, rfl⟩

end

/-! ### Payloads -/

section

variable {p : Payload} {fields : List (String × Content)}

/-- What comes back of a payload whatever its counts are: its text, the texts among the facts about
the file, and the time of the last change. -/
structure Survives (p : Payload) (fields : List (String × Content)) : Prop where
  code : member? (.object (jsonOfFields fields)) "codeString" decodeText = .ok (some p.code)
  metadata : ∃ v, (Value.object (jsonOfFields fields)).get? "metadata" = some v ∧
    member? v "filePath" decodeText = .ok (some p.metadata.filePath) ∧
    member? v "fileName" decodeText = .ok (some p.metadata.fileName) ∧
    member? v "fileExtension" decodeText = .ok (some p.metadata.fileExtension) ∧
    member? v "fileLastModified" decodeSigned = .ok (some p.metadata.fileLastModified)

/-- The two fields of a payload, as they are found. -/
theorem Delivers.get? (h : Delivers p fields) :
    (Value.object (jsonOfFields fields)).get? "codeString" = some (.string p.code) ∧
    ∃ members, DeliversMetadata p.metadata members ∧
      (Value.object (jsonOfFields fields)).get? "metadata" =
        some (.object (jsonOfFields members)) := by
  obtain ⟨members, hmembers, hfields⟩ := h
  have hnames : (fields.map Prod.fst).Nodup := by
    rw [(hfields.map Prod.fst).nodup_iff]
    show ["codeString", "metadata"].Nodup
    decide
  have hcode : ("codeString", Content.text p.code) ∈ fields :=
    hfields.mem_iff.2 List.mem_cons_self
  have hmetadata : ("metadata", Content.fields members) ∈ fields :=
    hfields.mem_iff.2 (List.mem_cons_of_mem _ List.mem_cons_self)
  exact ⟨get?_jsonOfFields hnames hcode, members, hmembers, get?_jsonOfFields hnames hmetadata⟩

theorem Delivers.survives (h : Delivers p fields) : Survives p fields := by
  obtain ⟨hcode, members, hmembers, hmetadata⟩ := h.get?
  refine ⟨?_, _, hmetadata, ?_, ?_, ?_, ?_⟩
  · rw [member?, hcode]
    rfl
  · exact hmembers.member? "filePath" (.string p.metadata.filePath)
  · exact hmembers.member? "fileName" (.string p.metadata.fileName)
  · exact hmembers.member? "fileExtension" (.string p.metadata.fileExtension)
  · rw [hmembers.member? "fileLastModified" (.int p.metadata.fileLastModified.toInt),
      decodeSigned_returned]
    rfl

theorem Delivers.readPayload (h : Delivers p fields) :
    ∃ members, DeliversMetadata p.metadata members ∧
      readPayload fields =
        Payload.mk p.code <$> Metadata.ofJson (.object (jsonOfFields members)) := by
  obtain ⟨hcode, members, hmembers, hmetadata⟩ := h.get?
  refine ⟨members, hmembers, ?_⟩
  rw [Qdrant.readPayload, Payload.ofJson]
  simp only [member?, hcode, hmetadata]
  cases Metadata.ofJson (.object (jsonOfFields members)) with
  | error reason => rfl
  | ok metadata => rfl

theorem Delivers.isEmpty (h : Delivers p fields) : fields.isEmpty = false := by
  obtain ⟨members, -, hfields⟩ := h
  rw [List.isEmpty_eq_false_iff, ← List.length_pos_iff, hfields.length_eq]
  exact Nat.zero_lt_two

/-- The name of a point, or nothing for one without a name. -/
def FoundPoint.name (found : FoundPoint) : String := (found.id.join.map PointId.text).getD ""

theorem hit_of_delivers {found : FoundPoint} (h : Delivers p found.payload) :
    Client.hit true found =
      match readPayload found.payload with
      | .ok payload => .ok ⟨found.name, found.score, some payload⟩
      | .error reason => .error (.payload reason) := by
  rw [Client.hit, h.isEmpty]
  cases readPayload found.payload with
  | ok payload => rfl
  | error reason => rfl

end

/-- A payload that was sent with a record comes back with the point that is found as it was when its
counts are sent as whole numbers, and else an error comes back, never another payload.  Whatever the
counts are, the texts and the time of the last change come back as they were. -/
theorem hit_returns_payload (r : Record) :
    Delivers r.payload (Client.point r).payload ∧
    ∀ found : FoundPoint, Delivers r.payload found.payload →
      (r.payload.metadata.Whole →
        Client.hit true found = .ok ⟨found.name, found.score, some r.payload⟩) ∧
      (¬ r.payload.metadata.Whole →
        ∃ reason, Client.hit true found = .error (.payload reason)) ∧
      (∀ hit, Client.hit true found = .ok hit → hit.payload = some r.payload) ∧
      Survives r.payload found.payload := by
  refine ⟨delivers_payloadFields r.payload, fun found h => ?_⟩
  obtain ⟨members, hmembers, hread⟩ := h.readPayload
  have hwhole : r.payload.metadata.Whole →
      Client.hit true found = .ok ⟨found.name, found.score, some r.payload⟩ := by
    intro hwhole
    rw [hit_of_delivers h, hread, hmembers.ofJson_of_whole hwhole]
    rfl
  have hlarge : ¬ r.payload.metadata.Whole →
      ∃ reason, Client.hit true found = .error (.payload reason) := by
    intro hwhole
    obtain ⟨reason, hreason⟩ := hmembers.ofJson_of_not_whole hwhole
    exact ⟨reason, by rw [hit_of_delivers h, hread, hreason]; rfl⟩
  refine ⟨hwhole, hlarge, fun hit hhit => ?_, h.survives⟩
  by_cases hcounts : r.payload.metadata.Whole
  · rw [hwhole hcounts] at hhit
    cases hhit
    rfl
  · obtain ⟨reason, hreason⟩ := hlarge hcounts
    rw [hreason] at hhit
    cases hhit

/-- A record of a file of some size that was last changed before 1970. -/
def fileOfSize (size : UInt64) : Record where
  id := "1"
  vector := ⟨#[], .empty⟩
  payload := ⟨"let a", ⟨"a.js", "a.js", "js", size, -1, 1, 1⟩⟩

/-- The greatest size that is sent as a whole number comes back, also when the facts about the file
come before the text; the next one does not. -/
theorem hit_returns_payload_fileOfSize :
    Client.hit true ⟨none, 0, (Client.point (fileOfSize 0x7FFFFFFFFFFFFFFF)).payload.reverse⟩ =
      .ok ⟨"", 0, some (fileOfSize 0x7FFFFFFFFFFFFFFF).payload⟩ ∧
    ∃ reason, Client.hit true ⟨none, 0, (Client.point (fileOfSize 0x8000000000000000)).payload⟩ =
      .error (.payload reason) := by
  have hreverse : Delivers (fileOfSize 0x7FFFFFFFFFFFFFFF).payload
      (Client.point (fileOfSize 0x7FFFFFFFFFFFFFFF)).payload.reverse :=
    ⟨_, List.Perm.refl _, List.reverse_perm _⟩
  have hwhole : (fileOfSize 0x7FFFFFFFFFFFFFFF).payload.metadata.Whole :=
    ⟨by decide, by decide, by decide⟩
  have hlarge : ¬ (fileOfSize 0x8000000000000000).payload.metadata.Whole :=
    fun h => absurd h.fileSize (by decide)
  obtain ⟨hsent, hfound⟩ := hit_returns_payload (fileOfSize 0x8000000000000000)
  exact ⟨((hit_returns_payload _).2 ⟨none, 0, _⟩ hreverse).1 hwhole,
    (hfound ⟨none, 0, _⟩ hsent).2.1 hlarge⟩

end CodeIndex.Qdrant
