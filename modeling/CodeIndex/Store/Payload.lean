import CodeIndex.Json.Decoding

/-! What is stored beside a vector: the text of a fragment and the facts about the file that it
comes from, with their JSON form.  A payload is written with all its fields and read back from
them. -/

namespace CodeIndex.Store

open Json (Value Decoder member? required item noMore)

/-- The file of a fragment and the lines that it spans.  The file was last modified
`fileLastModified` milliseconds after the beginning of 1970. -/
structure Metadata where
  filePath : String
  fileName : String
  fileExtension : String
  fileSize : UInt64
  fileLastModified : Int64
  startLine : UInt64
  endLine : UInt64
  deriving DecidableEq, Repr

structure Payload where
  code : String
  metadata : Metadata
  deriving DecidableEq, Repr

namespace Metadata

def recordName : String := "FileMetadata"

def toJson (m : Metadata) : Value :=
  .object [
    ("endLine", .nat m.endLine.toNat),
    ("fileExtension", .string m.fileExtension),
    ("fileLastModified", .int m.fileLastModified.toInt),
    ("fileName", .string m.fileName),
    ("filePath", .string m.filePath),
    ("fileSize", .nat m.fileSize.toNat),
    ("startLine", .nat m.startLine.toNat)]

/-- Reads an object or an array of the fields.  The members of an object are read in the order of
their names, and only then are missing ones found, in the order of the fields. -/
def ofJson : Decoder Metadata
  | .object ms => do
    let v := Value.object ms
    let endLine ← member? v "endLine" (Json.decodeUnsigned .size)
    let fileExtension ← member? v "fileExtension" Json.decodeText
    let fileLastModified ← member? v "fileLastModified" Json.decodeSigned
    let fileName ← member? v "fileName" Json.decodeText
    let filePath ← member? v "filePath" Json.decodeText
    let fileSize ← member? v "fileSize" (Json.decodeUnsigned .unsigned)
    let startLine ← member? v "startLine" (Json.decodeUnsigned .size)
    pure {
      filePath := ← required "filePath" filePath
      fileName := ← required "fileName" fileName
      fileExtension := ← required "fileExtension" fileExtension
      fileSize := ← required "fileSize" fileSize
      fileLastModified := ← required "fileLastModified" fileLastModified
      startLine := ← required "startLine" startLine
      endLine := ← required "endLine" endLine }
  | .array items => do
    let filePath ← item items 0 recordName 7 Json.decodeText
    let fileName ← item items 1 recordName 7 Json.decodeText
    let fileExtension ← item items 2 recordName 7 Json.decodeText
    let fileSize ← item items 3 recordName 7 (Json.decodeUnsigned .unsigned)
    let fileLastModified ← item items 4 recordName 7 Json.decodeSigned
    let startLine ← item items 5 recordName 7 (Json.decodeUnsigned .size)
    let endLine ← item items 6 recordName 7 (Json.decodeUnsigned .size)
    noMore items 7
    pure ⟨filePath, fileName, fileExtension, fileSize, fileLastModified, startLine, endLine⟩
  | v => .error (.wrongType v (.record recordName))

end Metadata

namespace Payload

def recordName : String := "RecordPayload"

def toJson (p : Payload) : Value :=
  .object [("codeString", .string p.code), ("metadata", p.metadata.toJson)]

/-- Reads an object or an array of the two fields. -/
def ofJson : Decoder Payload
  | .object ms => do
    let v := Value.object ms
    let code ← member? v "codeString" Json.decodeText
    let metadata ← member? v "metadata" Metadata.ofJson
    pure { code := ← required "codeString" code, metadata := ← required "metadata" metadata }
  | .array items => do
    let code ← item items 0 recordName 2 Json.decodeText
    let metadata ← item items 1 recordName 2 Metadata.ofJson
    noMore items 2
    pure ⟨code, metadata⟩
  | v => .error (.wrongType v (.record recordName))

end Payload

end CodeIndex.Store
