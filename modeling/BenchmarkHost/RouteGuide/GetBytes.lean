import BenchmarkHost.Library.Restart
import BenchmarkHost.RouteGuide.Slice

/-! A file sent in chunks and in one message.

`GetBytes` cuts `testBytes` at indices computed in wrapping arithmetic, and its
handler swallows whatever the body raises, so that the client sees a stream
that has ended. The client starts over at a first chunk and appends the others.
-/

set_option autoImplicit false

namespace BenchmarkHost

open Library Extensions

structure Chunk where
  firstChunk : Bool
  chunkBytes : List UInt8
  lastChunk : Bool
  deriving DecidableEq, Repr

structure FullFile where
  allBytes : List UInt8
  deriving DecidableEq, Repr

/-- `testString` is held as its UTF-16 code units. -/
structure RouteGuideImpl where
  testBytes : ManagedArray UInt8
  testString : Option (ManagedArray UInt16)
  chunkSize : Int32

/-- A part of the body of `GetBytes`. -/
inductive Part where
  | small
  | chunk (i : Int32)
  deriving DecidableEq

/-- What a part calls, in this order. -/
inductive Callee where
  | slice
  | copyFrom
  | writeAsync
  deriving DecidableEq

/-- The exceptions that come from outside: memory, the stream. -/
abbrev Faults := Part → Callee → Option RuntimeException

def noFault : Faults := fun _ _ => none

/-- The chunks a handler has written and how it came to an end. -/
structure Reply where
  written : List Chunk
  raised : Option RuntimeException
  deriving DecidableEq, Repr

namespace Reply

def nothing : Reply := ⟨[], none⟩

def andThen (first second : Reply) : Reply :=
  match first.raised with
  | some raised => ⟨first.written, some raised⟩
  | none => ⟨first.written ++ second.written, second.raised⟩

end Reply

namespace RouteGuideImpl

-- No statement of the source assigns `testString`.
def create (testBytes : ManagedArray UInt8) : RouteGuideImpl := ⟨testBytes, none, 64 * 1000⟩

/-- `Math.Ceiling` of the quotient. The quotient of a length is never too large
to be converted back. -/
def numberOfChunks (service : RouteGuideImpl) : Except RuntimeException Int32 :=
  if service.chunkSize = 0 then .error .divideByZero
  else .ok (.ofInt (-(-service.testBytes.length.toInt).fdiv service.chunkSize.toInt))

def attempt : Option RuntimeException → Except RuntimeException Unit
  | some raised => .error raised
  | none => .ok ()

def makeChunk (service : RouteGuideImpl) (faults : Faults) (part : Part) (firstChunk : Bool)
    (startIndex endIndex : Int32) : Except RuntimeException Chunk := do
  attempt (faults part .slice)
  let bytes ← slice service.testBytes startIndex endIndex
  attempt (faults part .copyFrom)
  return ⟨firstChunk, bytes, false⟩

def writeChunk (faults : Faults) (part : Part) : Except RuntimeException Chunk → Reply
  | .error raised => ⟨[], some raised⟩
  | .ok chunk =>
    match faults part .writeAsync with
    | some raised => ⟨[], some raised⟩
    | none => ⟨[chunk], none⟩

-- The length read here is that of `testString`, not of `testBytes`.
def sendSmall (service : RouteGuideImpl) (faults : Faults) : Reply :=
  if service.testBytes.length ≤ service.chunkSize then
    writeChunk faults .small <|
      match service.testString with
      | none => .error .nullReference
      | some testString => service.makeChunk faults .small true 0 testString.length
  else .nothing

def startIndex (service : RouteGuideImpl) (i : Int32) : Int32 := i * service.chunkSize

def endIndex (service : RouteGuideImpl) (i : Int32) : Int32 :=
  let endIndex := service.startIndex i + service.chunkSize
  if endIndex > service.testBytes.length then service.testBytes.length else endIndex

def sendChunk (service : RouteGuideImpl) (faults : Faults) (i : Int32) : Reply :=
  writeChunk faults (.chunk i) <|
    service.makeChunk faults (.chunk i) (i == 0) (service.startIndex i) (service.endIndex i)

/-- The loop from index `i` on, with its number of turns left. -/
def sendLoop (service : RouteGuideImpl) (faults : Faults) : Nat → Int32 → Reply
  | 0, _ => .nothing
  | turns + 1, i => (service.sendChunk faults i).andThen (service.sendLoop faults turns (i + 1))

def body (service : RouteGuideImpl) (faults : Faults) (numberOfChunks : Int32) : Reply :=
  (service.sendSmall faults).andThen (service.sendLoop faults numberOfChunks.toNatClampNeg 0)

def getBytes (service : RouteGuideImpl) (faults : Faults) : Reply :=
  match service.numberOfChunks with
  | .error raised => ⟨[], some raised⟩
  -- The `catch` block is empty.
  | .ok numberOfChunks => ⟨(service.body faults numberOfChunks).written, none⟩

def getAllBytes (service : RouteGuideImpl) : FullFile := ⟨service.testBytes.elements⟩

end RouteGuideImpl

namespace RouteGuideClient

def receive (responseBytes : List UInt8) (chunk : Chunk) : List UInt8 :=
  if chunk.firstChunk then chunk.chunkBytes else responseBytes ++ chunk.chunkBytes

/-- The client reads every chunk and then the end of the call. -/
def getBytes (reply : Reply) : Except RuntimeException (List UInt8) :=
  match reply.raised with
  | some raised => .error raised
  | none => .ok (reply.written.foldl receive [])

end RouteGuideClient

/-! ### Reassembly

The client is an accumulator that starts over at a first chunk.
-/

namespace RouteGuideClient

theorem receive_eq : receive = accumulate (·.firstChunk) (·.chunkBytes) := rfl

theorem getBytes_of_completed (chunks : List Chunk) :
    getBytes ⟨chunks, none⟩ = .ok (chunks.foldl receive []) := rfl

/-- The client's bytes are those since the last first chunk, however the chunks
were cut and whatever came before. -/
theorem reassembled (chunks : List Chunk) :
    getBytes ⟨chunks, none⟩ =
      .ok ((sinceRestart (·.firstChunk) chunks).flatMap (·.chunkBytes)) ∧
    (∀ before chunk after, chunks = before ++ chunk :: after → chunk.firstChunk = true →
      (∀ later ∈ after, later.firstChunk = false) →
      getBytes ⟨chunks, none⟩ = .ok (chunk.chunkBytes ++ after.flatMap (·.chunkBytes))) ∧
    ((∀ chunk ∈ chunks, chunk.firstChunk = false) →
      getBytes ⟨chunks, none⟩ = .ok (chunks.flatMap (·.chunkBytes))) ∧
    (∀ aborted first rest, chunks = first :: rest → first.firstChunk = true →
      getBytes ⟨aborted ++ chunks, none⟩ = getBytes ⟨chunks, none⟩) ∧
    (∀ before cut after others, chunks = before ++ cut ++ after →
      (∀ chunk ∈ cut, chunk.firstChunk = false) → (∀ chunk ∈ others, chunk.firstChunk = false) →
      cut.flatMap (·.chunkBytes) = others.flatMap (·.chunkBytes) →
      getBytes ⟨before ++ others ++ after, none⟩ = getBytes ⟨chunks, none⟩) := by
  have whole : chunks.foldl receive [] =
      (sinceRestart (·.firstChunk) chunks).flatMap (·.chunkBytes) := by
    rw [receive_eq, foldl_accumulate, ite_self, List.nil_append]
  simp only [getBytes_of_completed, Except.ok.injEq]
  refine ⟨whole, ?_, ?_, ?_, ?_⟩
  · rintro before chunk after rfl begins none
    rw [whole, sinceRestart_split begins none, List.flatMap_cons]
  · intro none
    rw [whole, sinceRestart_of_none none]
  · rintro aborted first rest rfl begins
    exact foldl_accumulate_restart begins aborted rest []
  · rintro before cut after others rfl continues continued same
    exact foldl_accumulate_cut continued continues same.symm before after []

end RouteGuideClient

end BenchmarkHost
