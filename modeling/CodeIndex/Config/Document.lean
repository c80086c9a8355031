import CodeIndex.Config.Basic
import CodeIndex.Numeric.Power
import CodeIndex.Toml.Reader

/-! Settings written in a document: sections with settings, of which any may be left out.  Unknown
sections and settings are ignored. -/

namespace CodeIndex.Config

open Numeric (tenTo twoTo)
open Toml (Value)

/-- The settings of a section: under their names, or as a list in their order. -/
inductive Section where
  | named (entries : List (String × Value))
  | listed (items : List Value)

def Section.ofValue? : Value → Option Section
  | .table es => some (.named es)
  | .array items => some (.listed items)
  | _ => none

/-- The value of a setting, by its name or its place. -/
def Section.get? (s : Section) (name : String) (place : Nat) : Option Value :=
  match s with
  | named es => es.lookup name
  | listed items => items[place]?

/-- A setting that is read with `read`, or its default. -/
def Section.setting {α : Type} (s : Section) (name : String) (place : Nat)
    (read : Value → Option α) (default : α) : Option α :=
  match s.get? name place with
  | some v => read v
  | none => some default

def text? : Value → Option String
  | .string s => some s
  | _ => none

/-- A whole number from 0 to below `2 ^ bits`. -/
def word? (bits : Nat) : Value → Option Nat
  | .integer n => if 0 ≤ n ∧ n < Numeric.twoTo bits then some n.toNat else none
  | _ => none

/-- A number that can be held: an integer of at most 128 bits, or a float that is not beyond the
doubles. -/
def isHeldFloat (text : String) : Bool :=
  let cs := (Toml.splitSign (text.toList.filter (· != '_'))).2
  if cs = "inf".toList ∨ cs = "nan".toList then true
  else
    let (mantissa, exponent) := Toml.splitAtFirst (fun c => c == 'e' || c == 'E') cs
    let (whole, fraction) := Toml.splitAtFirst (· == '.') mantissa
    let fraction := fraction.getD []
    let digits := Toml.numeralValue 10 (whole ++ fraction)
    let (negative, es) := Toml.splitSign (exponent.getD ['0'])
    let size : Int := Toml.numeralValue 10 es
    let scale : Int := (if negative then -size else size) - fraction.length
    let places : Int := (Nat.toDigits 10 digits).length
    if digits = 0 ∨ places + scale < 300 then true
    else if places + scale > 310 then false
    else if 0 ≤ scale then digits * tenTo scale.toNat < twoTo 1024 - twoTo 970
    else digits < (twoTo 1024 - twoTo 970) * tenTo (-scale).toNat

mutual

/-- All numbers of a value can be held. -/
def isHeld : Value → Bool
  | .integer n => -(twoTo 127 : Int) ≤ n && n < twoTo 128
  | .float text => isHeldFloat text
  | .array items => allHeld items
  | .table es => entriesHeld es
  | _ => true

def allHeld : List Value → Bool
  | [] => true
  | v :: rest => isHeld v && allHeld rest

def entriesHeld : List (String × Value) → Bool
  | [] => true
  | (_, v) :: rest => isHeld v && entriesHeld rest

end

/-- Reads a section of the document, or takes its defaults. -/
def readSection {α : Type} (entries : List (String × Value)) (name : String)
    (read : Section → Option α) (default : α) : Option α :=
  match entries.lookup name with
  | some v => (Section.ofValue? v).bind read
  | none => some default

def readEmbedding (s : Section) : Option EmbeddingSettings := do
  let d : EmbeddingSettings := {}
  pure {
    baseUrl := ← s.setting "base_url" 0 text? d.baseUrl
    model := ← s.setting "model" 1 text? d.model
    apiKey := ← s.setting "api_key" 2 (fun v => (text? v).map fun key => some ⟨key⟩) d.apiKey
    dimensions := ← s.setting "dimensions" 3 (word? 64) d.dimensions
    timeout := ← s.setting "timeout_secs" 4 (word? 64) d.timeout }

def readStore (s : Section) : Option StoreSettings := do
  let d : StoreSettings := {}
  pure {
    url := ← s.setting "url" 0 text? d.url
    collection := ← s.setting "collection" 1 text? d.collection }

def readChunks (s : Section) : Option Chunk.Options := do
  let d : Chunk.Options := {}
  pure {
    maxSize := ← s.setting "max_size" 0 (word? 64) d.maxSize
    overlap := ← s.setting "overlap" 1 (word? 64) d.overlap }

def readWatch (s : Section) : Option WatchSettings := do
  let d : WatchSettings := {}
  pure {
    url := ← s.setting "url" 0 text? d.url
    baseInterval := ← s.setting "base_interval_ms" 1 (word? 64) d.baseInterval
    maxAttempts := ← s.setting "max_reconnect_attempts" 2 (word? 32) d.maxAttempts }

/-- The values that are looked at can be held: all of a table, and of a list those that stand for
settings. -/
def sectionHeld (fields : Nat) : Value → Bool
  | .array items => allHeld (items.take fields)
  | v => isHeld v

def documentHeld (entries : List (String × Value)) : Bool :=
  entries.all fun (name, v) =>
    if name = "embedding" then sectionHeld 5 v
    else if name = "qdrant" ∨ name = "chunker" then sectionHeld 2 v
    else if name = "watch" then sectionHeld 3 v
    else isHeld v

/-- The settings of a document, with the defaults of those left out. -/
def Settings.ofDocument? (text : String) : Option Settings := do
  let entries ← Toml.read? text
  if documentHeld entries then
    pure {
      embedding := ← readSection entries "embedding" readEmbedding {}
      store := ← readSection entries "qdrant" readStore {}
      chunks := ← readSection entries "chunker" readChunks {}
      watch := ← readSection entries "watch" readWatch {} }
  else none

end CodeIndex.Config
