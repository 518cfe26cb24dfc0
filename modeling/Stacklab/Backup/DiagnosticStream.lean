import Stacklab.Lib.GoText
import Stacklab.Lib.LineFraming
import Stacklab.Lib.Utf8

/-! The stream that reads restic's diagnostics while restic writes them. -/
namespace Stacklab.Backup

open Lib

variable {ρ : Type}

def maxDiagnosticRecordBytes : ℕ := 2 ^ 20

structure DiagnosticRecord where
  message : String
  errorRecord : Bool
  summary : Bool
  deriving DecidableEq, Repr

/-- The fields that a structured line is decoded to. -/
structure EncodedDiagnostic where
  messageType : String
  message : String
  numErrors : ℤ
  deriving DecidableEq, Repr

/-- The evidence so far: the two fields that the stream itself sets, and all others. -/
structure DiagnosticEvidence (ρ : Type) where
  cancelled : Bool
  incomplete : Bool
  findings : ρ

/-- The standard library's JSON decoder and case table, and how a record adds to the evidence. -/
structure DiagnosticEnv (ρ : Type) where
  jsonValid : String → Bool
  jsonUnmarshal : String → Option EncodedDiagnostic
  unicodeToLower : Char → Char
  add : DiagnosticEvidence ρ → DiagnosticRecord → DiagnosticEvidence ρ

section Records

variable (env : DiagnosticEnv ρ)

def toLower (s : String) : String :=
  String.ofList (s.toList.map fun c => if c.toNat < 128 then c.toLower else env.unicodeToLower c)

/-- The fields of a structured line. -/
def encodedOf (line : String) : Option EncodedDiagnostic :=
  if hasPrefix (trimSpace line) "\x7b" then (env.jsonUnmarshal line).filter (·.messageType ≠ "")
  else none

/-- The record of a line, as it was written. -/
def decodedRecord (line : String) : DiagnosticRecord :=
  match encodedOf env line with
  | none => { message := line, errorRecord := false, summary := false }
  | some encoded =>
    { message := if encoded.messageType = "summary" ∧ encoded.numErrors > 0 then
          "repository contains errors" else encoded.message
      errorRecord := encoded.messageType = "error"
      summary := encoded.messageType = "summary" ∨ encoded.messageType = "exit_error" }

/-- The message in lower case and without its blank lines. -/
def messageText (message : String) : String :=
  "\n".intercalate (((splitChar '\n' (toLower env message)).map String.ofList).filter
    (trimSpace · ≠ ""))

/-- The record of one line, if it is not blank. -/
def recordOf (line : String) : List DiagnosticRecord :=
  let record := decodedRecord env line
  let message := messageText env record.message
  if message ≠ "" ∨ record.summary then [{ record with message := message }] else []

/-- Where a structured record starts within a line, but not at its start. -/
def structuredSuffix (line : String) : Option (String × String) :=
  let start := line.toList.tails.findIdx ("\x7b\"message_type\"".toList.isPrefixOf ·)
  let suffix := String.ofList (line.toList.drop start)
  if 0 < start ∧ start < line.length ∧ env.jsonValid suffix then
    some (String.ofList (line.toList.take start), suffix)
  else none

/-- The text before a structured suffix has none itself. -/
def parseResticDiagnostics (diagnostic : String) : List DiagnosticRecord :=
  ((splitChar '\n' diagnostic).map String.ofList).flatMap fun line =>
    match structuredSuffix env line with
    | some (before, suffix) => recordOf env before ++ recordOf env suffix
    | none => recordOf env line

end Records

/-- A line that is short enough to be parsed. -/
abbrev DiagnosticLine : Type := { line : Bytes // line.length ≤ maxDiagnosticRecordBytes }

/-- The evidence, and what has happened so far: the lines that were parsed and the records passed
to `onRecord`. -/
structure StreamState (ρ : Type) where
  evidence : DiagnosticEvidence ρ
  parsed : List DiagnosticLine := []
  records : List DiagnosticRecord := []

section Reading

variable (env : DiagnosticEnv ρ)

def StreamState.addRecord (s : StreamState ρ) (record : DiagnosticRecord) : StreamState ρ :=
  { s with evidence := env.add s.evidence record, records := s.records ++ [record] }

def StreamState.consume (s : StreamState ρ) (line : DiagnosticLine) : StreamState ρ :=
  (parseResticDiagnostics env (String.ofList (runes line.1))).foldl (StreamState.addRecord env)
    { s with parsed := s.parsed ++ [line] }

def StreamState.overflow (s : StreamState ρ) : StreamState ρ :=
  if s.evidence.cancelled then s else { s with evidence := { s.evidence with incomplete := true } }

/-- The stream without a `cancelled` callback. -/
def diagnosticStream : Framer UInt8 (StreamState ρ) where
  newline := 10
  limit := maxDiagnosticRecordBytes
  consume := StreamState.consume env
  overflow := StreamState.overflow

/-- A new stream after all writes and `finish`. -/
def readChunks (evidence : DiagnosticEvidence ρ) (chunks : List Bytes) : StreamState ρ :=
  let stream := diagnosticStream env
  (stream.finish (chunks.foldl stream.write { state := { evidence := evidence } })).state

end Reading

theorem readChunks_flatten (env : DiagnosticEnv ρ) (evidence : DiagnosticEvidence ρ)
    (chunks : List Bytes) :
    readChunks env evidence chunks = readChunks env evidence [chunks.flatten] := by
  unfold readChunks
  dsimp only
  rw [Framer.foldl_write]
  rfl

/-- However the diagnostics are cut into chunks, they give the evidence and the records of one
write, and no longer record is parsed. -/
theorem chunks_read_as_whole (env : DiagnosticEnv ρ) (evidence : DiagnosticEvidence ρ)
    (chunks : List Bytes) :
    let split := readChunks env evidence chunks
    let whole := readChunks env evidence [chunks.flatten]
    split.evidence = whole.evidence ∧ split.records = whole.records ∧
      ∀ line ∈ split.parsed, line.1.length ≤ maxDiagnosticRecordBytes := by
  dsimp only
  rw [readChunks_flatten]
  exact ⟨rfl, rfl, fun line _ => line.2⟩

end Stacklab.Backup
