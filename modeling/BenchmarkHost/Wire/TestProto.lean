import BenchmarkHost.Library.UnknownFields
import BenchmarkHost.Library.MapField
import BenchmarkHost.RouteGuide.GetBytes
import BenchmarkHost.RouteGuide.RecordRoute
import BenchmarkHost.RouteGuide.InvokeFunction

/-! The messages of the route guide as they are generated.

Fields that no case of a reading loop selects are dropped.
-/

set_option autoImplicit false

namespace BenchmarkHost

open Library

structure ChunReq where
  chunkCounter : Int32
  deriving DecidableEq, Repr

section
variable (coding : Coding)

/-! ### `Point` -/

namespace Point

def new : Point where
  latitude := 0
  longitude := 0

def writeTo (message : Point) : List UInt8 :=
  (if message.latitude != 0 then [8] ++ coding.int32.write message.latitude else []) ++
  (if message.longitude != 0 then [16] ++ coding.int32.write message.longitude else [])

def calculateSize (message : Point) : Int32 :=
  (if message.latitude != 0 then 1 + coding.int32.size message.latitude else 0) +
  (if message.longitude != 0 then 1 + coding.int32.size message.longitude else 0)

def select (number : UInt32) (message : Point) : Reader Point :=
  match number with
  | 8 => coding.int32.through fun value => some { message with latitude := value }
  | 16 => coding.int32.through fun value => some { message with longitude := value }
  | other => (coding.skip other).through fun _ => some message

def mergeFrom (message other : Point) : Point where
  latitude := if other.latitude != 0 then other.latitude else message.latitude
  longitude := if other.longitude != 0 then other.longitude else message.longitude

def type : MessageType Point where
  new := new
  writeTo := writeTo coding
  calculateSize := calculateSize coding
  select := select coding

def latitudeSlot : Slot Point Int32 where
  get := (·.latitude)
  put value message := { message with latitude := value }

def longitudeSlot : Slot Point Int32 where
  get := (·.longitude)
  put value message := { message with longitude := value }

def fields (message : Point) : List (TaggedField Point) :=
  optional (message.latitude != 0)
    (coding.int32.field [8] latitudeSlot message.latitude) ++
  optional (message.longitude != 0)
    (coding.int32.field [16] longitudeSlot message.longitude)

variable {coding}

theorem actAll_fields (message other : Point) :
    actAll (fields coding other) message = mergeFrom message other := by
  simp only [fields, actAll_append, actAll_optional]
  unfold mergeFrom
  split <;> split <;> rfl

theorem new_mergeFrom (message : Point) : mergeFrom new message = message := by
  simp only [mergeFrom, new, unless_default]

theorem describes : coding.Describes (type coding) (fun _ => True) (fields coding) where
  toPart := .append (.value 8 (by decide) rfl (by decide) fun _ => rfl)
    (.value 16 (by decide) rfl (by decide) fun _ => rfl)
  rebuilt message := (actAll_fields new message).trans (new_mergeFrom message)

def known : List UInt32 := [8, 16]

theorem tolerates : coding.Tolerates (type coding) (fields coding) known id where
  dropped := by
    intro number other message
    change select coding number message = _
    unfold select
    split <;> first | rfl | simp [known] at other
  respects _ field _ _ _ same := congrArg field.act same
  commutes := by
    intro message first one second two other
    simp only [fields, List.mem_append, mem_optional] at one two
    rcases one with ⟨_, rfl⟩ | ⟨_, rfl⟩ <;>
      rcases two with ⟨_, rfl⟩ | ⟨_, rfl⟩ <;>
      rfl

end Point

/-! ### `Rectangle` -/

namespace Rectangle

def new : Rectangle where
  lo := none
  hi := none

def writeTo (message : Rectangle) : List UInt8 :=
  (message.lo.elim [] fun lo =>
    [10] ++ coding.writeMessage (Point.type coding) lo) ++
  (message.hi.elim [] fun hi =>
    [18] ++ coding.writeMessage (Point.type coding) hi)

def calculateSize (message : Rectangle) : Int32 :=
  (message.lo.elim 0 fun lo =>
    1 + coding.computeMessageSize (Point.type coding) lo) +
  (message.hi.elim 0 fun hi =>
    1 + coding.computeMessageSize (Point.type coding) hi)

def select (number : UInt32) (message : Rectangle) : Reader Rectangle :=
  match number with
  | 10 =>
    (coding.readMessage (Point.type coding) (message.lo.getD Point.new)).through
      fun lo => some { message with lo := some lo }
  | 18 =>
    (coding.readMessage (Point.type coding) (message.hi.getD Point.new)).through
      fun hi => some { message with hi := some hi }
  | other => (coding.skip other).through fun _ => some message

def mergeFrom (message other : Rectangle) : Rectangle where
  lo := other.lo.elim message.lo fun lo =>
    some ((message.lo.getD Point.new).mergeFrom lo)
  hi := other.hi.elim message.hi fun hi =>
    some ((message.hi.getD Point.new).mergeFrom hi)

def type : MessageType Rectangle where
  new := new
  writeTo := writeTo coding
  calculateSize := calculateSize coding
  select := select coding

def fields (message : Rectangle) : List (TaggedField Rectangle) :=
  (message.lo.elim [] fun lo =>
    [coding.messageField (Point.type coding) (Point.fields coding) [10]
      (fun other => other.lo.getD Point.new)
      (fun lo other => { other with lo := some lo }) lo]) ++
  (message.hi.elim [] fun hi =>
    [coding.messageField (Point.type coding) (Point.fields coding) [18]
      (fun other => other.hi.getD Point.new)
      (fun hi other => { other with hi := some hi }) hi])

variable {coding}

theorem actAll_fields (message other : Rectangle) :
    actAll (fields coding other) message = mergeFrom message other := by
  obtain ⟨lo, hi⟩ := other
  cases lo <;> cases hi <;>
    simp [fields, mergeFrom, Coding.messageField, Point.actAll_fields]

theorem new_mergeFrom (message : Rectangle) : mergeFrom new message = message := by
  obtain ⟨lo, hi⟩ := message
  cases lo <;> cases hi <;>
    simp [mergeFrom, new, Point.new_mergeFrom]

theorem describes : coding.Describes (type coding) (fun _ => True) (fields coding) where
  toPart := .append
    (Point.describes.part 10 (by decide) rfl (by decide) (fun _ => rfl) fun _ _ _ _ => trivial)
    (Point.describes.part 18 (by decide) rfl (by decide) (fun _ => rfl) fun _ _ _ _ => trivial)
  rebuilt message := (actAll_fields new message).trans (new_mergeFrom message)

def known : List UInt32 := [10, 18]

theorem tolerates : coding.Tolerates (type coding) (fields coding) known id where
  dropped := by
    intro number other message
    change select coding number message = _
    unfold select
    split <;> first | rfl | simp [known] at other
  respects _ field _ _ _ same := congrArg field.act same
  commutes := by
    intro message first one second two other
    simp only [fields, List.mem_append, mem_elim] at one two
    rcases one with ⟨_, chosen, rfl⟩ | ⟨_, chosen, rfl⟩ <;>
      rcases two with ⟨_, again, rfl⟩ | ⟨_, again, rfl⟩ <;>
      first | rfl | (cases chosen.symm.trans again; rfl)

end Rectangle

/-! ### `Feature` -/

namespace Feature

def new : Feature where
  name := ""
  location := none

def writeTo (message : Feature) : List UInt8 :=
  (if message.name.length != 0 then [10] ++ coding.string.write message.name else []) ++
  (message.location.elim [] fun location =>
    [18] ++ coding.writeMessage (Point.type coding) location)

def calculateSize (message : Feature) : Int32 :=
  (if message.name.length != 0 then 1 + coding.string.size message.name else 0) +
  (message.location.elim 0 fun location =>
    1 + coding.computeMessageSize (Point.type coding) location)

def select (number : UInt32) (message : Feature) : Reader Feature :=
  match number with
  | 10 => coding.string.through fun value => some { message with name := value }
  | 18 =>
    (coding.readMessage (Point.type coding) (message.location.getD Point.new)).through
      fun location => some { message with location := some location }
  | other => (coding.skip other).through fun _ => some message

def mergeFrom (message other : Feature) : Feature where
  name := if other.name.length != 0 then other.name else message.name
  location := other.location.elim message.location fun location =>
    some ((message.location.getD Point.new).mergeFrom location)

def type : MessageType Feature where
  new := new
  writeTo := writeTo coding
  calculateSize := calculateSize coding
  select := select coding

def nameSlot : Slot Feature String where
  get := (·.name)
  put value message := { message with name := value }

def fields (message : Feature) : List (TaggedField Feature) :=
  optional (message.name.length != 0)
    (coding.string.field [10] nameSlot message.name) ++
  (message.location.elim [] fun location =>
    [coding.messageField (Point.type coding) (Point.fields coding) [18]
      (fun other => other.location.getD Point.new)
      (fun location other => { other with location := some location }) location])

variable {coding}

theorem actAll_fields (message other : Feature) :
    actAll (fields coding other) message = mergeFrom message other := by
  obtain ⟨name, location⟩ := other
  simp only [fields, actAll_append, actAll_optional]
  unfold mergeFrom
  cases location with
  | none => split <;> rfl
  | some location =>
    simp only [Option.elim, actAll_cons, actAll_nil, Coding.messageField, Point.actAll_fields]
    split <;> rfl

theorem new_mergeFrom (message : Feature) : mergeFrom new message = message := by
  obtain ⟨name, location⟩ := message
  cases location <;>
    simp [mergeFrom, new, Point.new_mergeFrom]

theorem describes : coding.Describes (type coding) (fun _ => True) (fields coding) where
  toPart := .append (.value 10 (by decide) rfl (by decide) fun _ => rfl)
    (Point.describes.part 18 (by decide) rfl (by decide) (fun _ => rfl) fun _ _ _ _ => trivial)
  rebuilt message := (actAll_fields new message).trans (new_mergeFrom message)

def known : List UInt32 := [10, 18]

theorem tolerates : coding.Tolerates (type coding) (fields coding) known id where
  dropped := by
    intro number other message
    change select coding number message = _
    unfold select
    split <;> first | rfl | simp [known] at other
  respects _ field _ _ _ same := congrArg field.act same
  commutes := by
    intro message first one second two other
    simp only [fields, List.mem_append, mem_optional, mem_elim] at one two
    rcases one with ⟨_, rfl⟩ | ⟨_, chosen, rfl⟩ <;>
      rcases two with ⟨_, rfl⟩ | ⟨_, again, rfl⟩ <;>
      first | rfl | (cases chosen.symm.trans again; rfl)

end Feature

/-! ### `RouteNote` -/

namespace RouteNote

def new : RouteNote where
  location := none
  message := ""

def writeTo (message : RouteNote) : List UInt8 :=
  (message.location.elim [] fun location =>
    [10] ++ coding.writeMessage (Point.type coding) location) ++
  (if message.message.length != 0 then [18] ++ coding.string.write message.message else [])

def calculateSize (message : RouteNote) : Int32 :=
  (message.location.elim 0 fun location =>
    1 + coding.computeMessageSize (Point.type coding) location) +
  (if message.message.length != 0 then 1 + coding.string.size message.message else 0)

def select (number : UInt32) (message : RouteNote) : Reader RouteNote :=
  match number with
  | 10 =>
    (coding.readMessage (Point.type coding) (message.location.getD Point.new)).through
      fun location => some { message with location := some location }
  | 18 => coding.string.through fun value => some { message with message := value }
  | other => (coding.skip other).through fun _ => some message

def mergeFrom (message other : RouteNote) : RouteNote where
  location := other.location.elim message.location fun location =>
    some ((message.location.getD Point.new).mergeFrom location)
  message := if other.message.length != 0 then other.message else message.message

def type : MessageType RouteNote where
  new := new
  writeTo := writeTo coding
  calculateSize := calculateSize coding
  select := select coding

def messageSlot : Slot RouteNote String where
  get := (·.message)
  put value message := { message with message := value }

def fields (message : RouteNote) : List (TaggedField RouteNote) :=
  (message.location.elim [] fun location =>
    [coding.messageField (Point.type coding) (Point.fields coding) [10]
      (fun other => other.location.getD Point.new)
      (fun location other => { other with location := some location }) location]) ++
  optional (message.message.length != 0)
    (coding.string.field [18] messageSlot message.message)

variable {coding}

theorem actAll_fields (message other : RouteNote) :
    actAll (fields coding other) message = mergeFrom message other := by
  obtain ⟨location, message⟩ := other
  simp only [fields, actAll_append, actAll_optional]
  unfold mergeFrom
  cases location with
  | none => split <;> rfl
  | some location =>
    simp only [Option.elim, actAll_cons, actAll_nil, Coding.messageField, Point.actAll_fields]
    split <;> rfl

theorem new_mergeFrom (message : RouteNote) : mergeFrom new message = message := by
  obtain ⟨location, message⟩ := message
  cases location <;>
    simp [mergeFrom, new, Point.new_mergeFrom]

theorem describes : coding.Describes (type coding) (fun _ => True) (fields coding) where
  toPart := .append
    (Point.describes.part 10 (by decide) rfl (by decide) (fun _ => rfl) fun _ _ _ _ => trivial)
    (.value 18 (by decide) rfl (by decide) fun _ => rfl)
  rebuilt message := (actAll_fields new message).trans (new_mergeFrom message)

def known : List UInt32 := [10, 18]

theorem tolerates : coding.Tolerates (type coding) (fields coding) known id where
  dropped := by
    intro number other message
    change select coding number message = _
    unfold select
    split <;> first | rfl | simp [known] at other
  respects _ field _ _ _ same := congrArg field.act same
  commutes := by
    intro message first one second two other
    simp only [fields, List.mem_append, mem_optional, mem_elim] at one two
    rcases one with ⟨_, chosen, rfl⟩ | ⟨_, rfl⟩ <;>
      rcases two with ⟨_, again, rfl⟩ | ⟨_, rfl⟩ <;>
      first | rfl | (cases chosen.symm.trans again; rfl)

end RouteNote

/-! ### `RouteSummary` -/

namespace RouteSummary

def new : RouteSummary where
  pointCount := 0
  featureCount := 0
  distance := 0
  elapsedTime := 0

def writeTo (message : RouteSummary) : List UInt8 :=
  (if message.pointCount != 0 then [8] ++ coding.int32.write message.pointCount else []) ++
  (if message.featureCount != 0 then [16] ++ coding.int32.write message.featureCount else []) ++
  (if message.distance != 0 then [24] ++ coding.int32.write message.distance else []) ++
  (if message.elapsedTime != 0 then [32] ++ coding.int32.write message.elapsedTime else [])

def calculateSize (message : RouteSummary) : Int32 :=
  (if message.pointCount != 0 then 1 + coding.int32.size message.pointCount else 0) +
  (if message.featureCount != 0 then 1 + coding.int32.size message.featureCount else 0) +
  (if message.distance != 0 then 1 + coding.int32.size message.distance else 0) +
  (if message.elapsedTime != 0 then 1 + coding.int32.size message.elapsedTime else 0)

def select (number : UInt32) (message : RouteSummary) : Reader RouteSummary :=
  match number with
  | 8 => coding.int32.through fun value => some { message with pointCount := value }
  | 16 => coding.int32.through fun value => some { message with featureCount := value }
  | 24 => coding.int32.through fun value => some { message with distance := value }
  | 32 => coding.int32.through fun value => some { message with elapsedTime := value }
  | other => (coding.skip other).through fun _ => some message

def mergeFrom (message other : RouteSummary) : RouteSummary where
  pointCount := if other.pointCount != 0 then other.pointCount else message.pointCount
  featureCount := if other.featureCount != 0 then other.featureCount else message.featureCount
  distance := if other.distance != 0 then other.distance else message.distance
  elapsedTime := if other.elapsedTime != 0 then other.elapsedTime else message.elapsedTime

def type : MessageType RouteSummary where
  new := new
  writeTo := writeTo coding
  calculateSize := calculateSize coding
  select := select coding

def pointCountSlot : Slot RouteSummary Int32 where
  get := (·.pointCount)
  put value message := { message with pointCount := value }

def featureCountSlot : Slot RouteSummary Int32 where
  get := (·.featureCount)
  put value message := { message with featureCount := value }

def distanceSlot : Slot RouteSummary Int32 where
  get := (·.distance)
  put value message := { message with distance := value }

def elapsedTimeSlot : Slot RouteSummary Int32 where
  get := (·.elapsedTime)
  put value message := { message with elapsedTime := value }

def fields (message : RouteSummary) : List (TaggedField RouteSummary) :=
  optional (message.pointCount != 0)
    (coding.int32.field [8] pointCountSlot message.pointCount) ++
  optional (message.featureCount != 0)
    (coding.int32.field [16] featureCountSlot message.featureCount) ++
  optional (message.distance != 0)
    (coding.int32.field [24] distanceSlot message.distance) ++
  optional (message.elapsedTime != 0)
    (coding.int32.field [32] elapsedTimeSlot message.elapsedTime)

variable {coding}

theorem actAll_fields (message other : RouteSummary) :
    actAll (fields coding other) message = mergeFrom message other := by
  simp only [fields, actAll_append, actAll_optional]
  unfold mergeFrom
  split <;> split <;> split <;> split <;> rfl

theorem new_mergeFrom (message : RouteSummary) : mergeFrom new message = message := by
  simp only [mergeFrom, new, unless_default]

theorem describes : coding.Describes (type coding) (fun _ => True) (fields coding) where
  toPart := .append
    (.append
      (.append (.value 8 (by decide) rfl (by decide) fun _ => rfl)
        (.value 16 (by decide) rfl (by decide) fun _ => rfl))
      (.value 24 (by decide) rfl (by decide) fun _ => rfl))
    (.value 32 (by decide) rfl (by decide) fun _ => rfl)
  rebuilt message := (actAll_fields new message).trans (new_mergeFrom message)

def known : List UInt32 := [8, 16, 24, 32]

theorem tolerates : coding.Tolerates (type coding) (fields coding) known id where
  dropped := by
    intro number other message
    change select coding number message = _
    unfold select
    split <;> first | rfl | simp [known] at other
  respects _ field _ _ _ same := congrArg field.act same
  commutes := by
    intro message first one second two other
    simp only [fields, List.mem_append, mem_optional] at one two
    rcases one with ((⟨_, rfl⟩ | ⟨_, rfl⟩) | ⟨_, rfl⟩) | ⟨_, rfl⟩ <;>
      rcases two with ((⟨_, rfl⟩ | ⟨_, rfl⟩) | ⟨_, rfl⟩) | ⟨_, rfl⟩ <;>
      rfl

end RouteSummary

/-! ### `Chunk` -/

namespace Chunk

def new : Chunk where
  chunkBytes := []
  lastChunk := false
  firstChunk := false

def writeTo (message : Chunk) : List UInt8 :=
  (if message.chunkBytes.length != 0 then [10] ++ coding.bytes.write message.chunkBytes else []) ++
  (if message.lastChunk != false then [16] ++ coding.bool.write message.lastChunk else []) ++
  (if message.firstChunk != false then [24] ++ coding.bool.write message.firstChunk else [])

def calculateSize (message : Chunk) : Int32 :=
  (if message.chunkBytes.length != 0 then 1 + coding.bytes.size message.chunkBytes else 0) +
  (if message.lastChunk != false then 1 + 1 else 0) +
  (if message.firstChunk != false then 1 + 1 else 0)

def select (number : UInt32) (message : Chunk) : Reader Chunk :=
  match number with
  | 10 => coding.bytes.through fun value => some { message with chunkBytes := value }
  | 16 => coding.bool.through fun value => some { message with lastChunk := value }
  | 24 => coding.bool.through fun value => some { message with firstChunk := value }
  | other => (coding.skip other).through fun _ => some message

def mergeFrom (message other : Chunk) : Chunk where
  chunkBytes := if other.chunkBytes.length != 0 then other.chunkBytes else message.chunkBytes
  lastChunk := if other.lastChunk != false then other.lastChunk else message.lastChunk
  firstChunk := if other.firstChunk != false then other.firstChunk else message.firstChunk

def type : MessageType Chunk where
  new := new
  writeTo := writeTo coding
  calculateSize := calculateSize coding
  select := select coding

def chunkBytesSlot : Slot Chunk (List UInt8) where
  get := (·.chunkBytes)
  put value message := { message with chunkBytes := value }

def lastChunkSlot : Slot Chunk Bool where
  get := (·.lastChunk)
  put value message := { message with lastChunk := value }

def firstChunkSlot : Slot Chunk Bool where
  get := (·.firstChunk)
  put value message := { message with firstChunk := value }

def fields (message : Chunk) : List (TaggedField Chunk) :=
  optional (message.chunkBytes.length != 0)
    (coding.bytes.field [10] chunkBytesSlot message.chunkBytes) ++
  optional (message.lastChunk != false)
    (coding.bool.field [16] lastChunkSlot message.lastChunk) ++
  optional (message.firstChunk != false)
    (coding.bool.field [24] firstChunkSlot message.firstChunk)

variable {coding}

theorem actAll_fields (message other : Chunk) :
    actAll (fields coding other) message = mergeFrom message other := by
  simp only [fields, actAll_append, actAll_optional]
  unfold mergeFrom
  split <;> split <;> split <;> rfl

theorem new_mergeFrom (message : Chunk) : mergeFrom new message = message := by
  simp only [mergeFrom, new, unless_default, unless_nil]

theorem describes : coding.Describes (type coding) (fun _ => True) (fields coding) where
  toPart := .resize
    (.append
      (.append (.value 10 (by decide) rfl (by decide) fun _ => rfl)
        (.value 16 (by decide) rfl (by decide) fun _ => rfl))
      (.value 24 (by decide) rfl (by decide) fun _ => rfl))
    fun message => by
      rw [coding.bool_size, coding.bool_size]
      rfl
  rebuilt message := (actAll_fields new message).trans (new_mergeFrom message)

def known : List UInt32 := [10, 16, 24]

theorem tolerates : coding.Tolerates (type coding) (fields coding) known id where
  dropped := by
    intro number other message
    change select coding number message = _
    unfold select
    split <;> first | rfl | simp [known] at other
  respects _ field _ _ _ same := congrArg field.act same
  commutes := by
    intro message first one second two other
    simp only [fields, List.mem_append, mem_optional] at one two
    rcases one with (⟨_, rfl⟩ | ⟨_, rfl⟩) | ⟨_, rfl⟩ <;>
      rcases two with (⟨_, rfl⟩ | ⟨_, rfl⟩) | ⟨_, rfl⟩ <;>
      rfl

end Chunk

/-! ### `FullFile` -/

namespace FullFile

def new : FullFile where
  allBytes := []

def writeTo (message : FullFile) : List UInt8 :=
  (if message.allBytes.length != 0 then [10] ++ coding.bytes.write message.allBytes else [])

def calculateSize (message : FullFile) : Int32 :=
  (if message.allBytes.length != 0 then 1 + coding.bytes.size message.allBytes else 0)

def select (number : UInt32) (message : FullFile) : Reader FullFile :=
  match number with
  | 10 => coding.bytes.through fun value => some { message with allBytes := value }
  | other => (coding.skip other).through fun _ => some message

def mergeFrom (message other : FullFile) : FullFile where
  allBytes := if other.allBytes.length != 0 then other.allBytes else message.allBytes

def type : MessageType FullFile where
  new := new
  writeTo := writeTo coding
  calculateSize := calculateSize coding
  select := select coding

def allBytesSlot : Slot FullFile (List UInt8) where
  get := (·.allBytes)
  put value message := { message with allBytes := value }

def fields (message : FullFile) : List (TaggedField FullFile) :=
  optional (message.allBytes.length != 0)
    (coding.bytes.field [10] allBytesSlot message.allBytes)

variable {coding}

theorem actAll_fields (message other : FullFile) :
    actAll (fields coding other) message = mergeFrom message other := by
  simp only [fields, actAll_optional]
  unfold mergeFrom
  split <;> rfl

theorem new_mergeFrom (message : FullFile) : mergeFrom new message = message := by
  simp only [mergeFrom, new, unless_nil]

theorem describes : coding.Describes (type coding) (fun _ => True) (fields coding) where
  toPart := .value 10 (by decide) rfl (by decide) fun _ => rfl
  rebuilt message := (actAll_fields new message).trans (new_mergeFrom message)

def known : List UInt32 := [10]

theorem tolerates : coding.Tolerates (type coding) (fields coding) known id where
  dropped := by
    intro number other message
    change select coding number message = _
    unfold select
    split <;> first | rfl | simp [known] at other
  respects _ field _ _ _ same := congrArg field.act same
  commutes := by
    intro message first one second two other
    simp only [fields, mem_optional] at one two
    rw [one.2, two.2]

end FullFile

/-! ### `ChunReq` -/

namespace ChunReq

def new : ChunReq where
  chunkCounter := 0

def writeTo (message : ChunReq) : List UInt8 :=
  (if message.chunkCounter != 0 then [8] ++ coding.int32.write message.chunkCounter else [])

def calculateSize (message : ChunReq) : Int32 :=
  (if message.chunkCounter != 0 then 1 + coding.int32.size message.chunkCounter else 0)

def select (number : UInt32) (message : ChunReq) : Reader ChunReq :=
  match number with
  | 8 => coding.int32.through fun value => some { message with chunkCounter := value }
  | other => (coding.skip other).through fun _ => some message

def mergeFrom (message other : ChunReq) : ChunReq where
  chunkCounter := if other.chunkCounter != 0 then other.chunkCounter else message.chunkCounter

def type : MessageType ChunReq where
  new := new
  writeTo := writeTo coding
  calculateSize := calculateSize coding
  select := select coding

def chunkCounterSlot : Slot ChunReq Int32 where
  get := (·.chunkCounter)
  put value message := { message with chunkCounter := value }

def fields (message : ChunReq) : List (TaggedField ChunReq) :=
  optional (message.chunkCounter != 0)
    (coding.int32.field [8] chunkCounterSlot message.chunkCounter)

variable {coding}

theorem actAll_fields (message other : ChunReq) :
    actAll (fields coding other) message = mergeFrom message other := by
  simp only [fields, actAll_optional]
  unfold mergeFrom
  split <;> rfl

theorem new_mergeFrom (message : ChunReq) : mergeFrom new message = message := by
  simp only [mergeFrom, new, unless_default]

theorem describes : coding.Describes (type coding) (fun _ => True) (fields coding) where
  toPart := .value 8 (by decide) rfl (by decide) fun _ => rfl
  rebuilt message := (actAll_fields new message).trans (new_mergeFrom message)

def known : List UInt32 := [8]

theorem tolerates : coding.Tolerates (type coding) (fields coding) known id where
  dropped := by
    intro number other message
    change select coding number message = _
    unfold select
    split <;> first | rfl | simp [known] at other
  respects _ field _ _ _ same := congrArg field.act same
  commutes := by
    intro message first one second two other
    simp only [fields, mem_optional] at one two
    rw [one.2, two.2]

end ChunReq

end

/-! ### `FunctionMetadata` -/

namespace Wire

/-- The metadata as it is generated, over whatever its map fields are. -/
structure FunctionMetadata (Map : Type) where
  invocationId : String
  functionName : String
  input : Map
  output : Map

namespace FunctionMetadata

/-- The metadata as `InvokeFunction` handles it. -/
def ofMetadata (metadata : BenchmarkHost.FunctionMetadata) :
    FunctionMetadata (Dictionary String (List UInt8)) :=
  ⟨metadata.invocationId, metadata.functionName, metadata.input, metadata.output⟩

section
variable (coding : Coding)

/-- The codec of both maps, but for the tag in front of an entry. -/
def mapCodec (number : UInt32) (large : 8 ≤ number) : MapCodec String (List UInt8) where
  key := ⟨10, coding.string, by decide⟩
  value := ⟨18, coding.bytes, by decide⟩
  number
  large
  distinct := show (10 : UInt32) ≠ 18 by decide

def mapInputCodec : MapCodec String (List UInt8) := mapCodec coding 122 (by decide)

def mapOutputCodec : MapCodec String (List UInt8) := mapCodec coding 130 (by decide)

end

variable {coding : Coding} {Map : Type} (maps : MapField coding String (List UInt8) Map)

def new : FunctionMetadata Map where
  invocationId := ""
  functionName := ""
  input := maps.new
  output := maps.new

def writeTo (message : FunctionMetadata Map) : List UInt8 :=
  (if message.invocationId.length != 0 then
    [10] ++ coding.string.write message.invocationId else []) ++
  (if message.functionName.length != 0 then
    [18] ++ coding.string.write message.functionName else []) ++
  maps.writeTo (mapInputCodec coding) message.input ++
  maps.writeTo (mapOutputCodec coding) message.output

def calculateSize (message : FunctionMetadata Map) : Int32 :=
  (if message.invocationId.length != 0 then
    1 + coding.string.size message.invocationId else 0) +
  (if message.functionName.length != 0 then
    1 + coding.string.size message.functionName else 0) +
  maps.calculateSize (mapInputCodec coding) message.input +
  maps.calculateSize (mapOutputCodec coding) message.output

-- `AddEntriesFrom` goes on while the tag of its map comes next, and so does the loop around it.
def select (number : UInt32) (message : FunctionMetadata Map) : Reader (FunctionMetadata Map) :=
  match number with
  | 10 => coding.string.through fun value => some { message with invocationId := value }
  | 18 => coding.string.through fun value => some { message with functionName := value }
  | 122 =>
    (maps.addEntryFrom (mapInputCodec coding) message.input).through fun map =>
      some { message with input := map }
  | 130 =>
    (maps.addEntryFrom (mapOutputCodec coding) message.output).through fun map =>
      some { message with output := map }
  | other => (coding.skip other).through fun _ => some message

/-- Adding the entries of another map raises when a key is bound already. -/
def mergeFrom (message other : FunctionMetadata Map) :
    Except RuntimeException (FunctionMetadata Map) :=
  let invocationId :=
    if other.invocationId.length != 0 then other.invocationId else message.invocationId
  let functionName :=
    if other.functionName.length != 0 then other.functionName else message.functionName
  match maps.addAll message.input other.input with
  | none => .error .argument
  | some input =>
    match maps.addAll message.output other.output with
    | none => .error .argument
    | some output => .ok { invocationId, functionName, input, output }

/-- Reading another message into one: its entries replace those there are. -/
def absorb (message other : FunctionMetadata Map) : FunctionMetadata Map where
  invocationId :=
    if other.invocationId.length != 0 then other.invocationId else message.invocationId
  functionName :=
    if other.functionName.length != 0 then other.functionName else message.functionName
  input := maps.setAll (maps.toList other.input) message.input
  output := maps.setAll (maps.toList other.output) message.output

def type : MessageType (FunctionMetadata Map) where
  new := new maps
  writeTo := writeTo maps
  calculateSize := calculateSize maps
  select := select maps

def invocationIdSlot : Slot (FunctionMetadata Map) String where
  get := (·.invocationId)
  put value message := { message with invocationId := value }

def functionNameSlot : Slot (FunctionMetadata Map) String where
  get := (·.functionName)
  put value message := { message with functionName := value }

def inputSlot : Slot (FunctionMetadata Map) Map where
  get := (·.input)
  put input message := { message with input }

def outputSlot : Slot (FunctionMetadata Map) Map where
  get := (·.output)
  put output message := { message with output }

def fields (message : FunctionMetadata Map) : List (TaggedField (FunctionMetadata Map)) :=
  optional (message.invocationId.length != 0)
    (coding.string.field [10] invocationIdSlot message.invocationId) ++
  optional (message.functionName.length != 0)
    (coding.string.field [18] functionNameSlot message.functionName) ++
  maps.fields inputSlot (mapInputCodec coding) message.input ++
  maps.fields outputSlot (mapOutputCodec coding) message.output

variable {maps}

theorem actAll_fields (message other : FunctionMetadata Map) :
    actAll (fields maps other) message = absorb maps message other := by
  simp only [fields, actAll_append, actAll_optional, MapField.actAll_fields]
  unfold absorb
  split <;> split <;> rfl

theorem new_absorb (message : FunctionMetadata Map) : absorb maps (new maps) message = message := by
  have rebuilt : ∀ map, maps.setAll (maps.toList map) maps.new = map := maps.rebuilt
  simp only [absorb, new, unless_empty, rebuilt]

theorem describes : coding.Describes (type maps) (fun _ => True) (fields maps) where
  toPart := .append
    (.append
      (.append (.value 10 (by decide) rfl (by decide) fun _ => rfl)
        (.value 18 (by decide) rfl (by decide) fun _ => rfl))
      (MapField.part fun _ => rfl))
    (MapField.part fun _ => rfl)
  rebuilt message := (actAll_fields (new maps) message).trans (new_absorb message)

def known : List UInt32 := [10, 18, 122, 130]

variable (maps) in
/-- What is in a message. The entries of a map have no order. -/
def content (message : FunctionMetadata Map) :
    String × String × (String → Option (List UInt8)) × (String → Option (List UInt8)) :=
  (message.invocationId, message.functionName, maps.tryGetValue message.input,
    maps.tryGetValue message.output)

theorem act_cases {message : FunctionMetadata Map} {field : TaggedField (FunctionMetadata Map)}
    (member : field ∈ fields maps message) :
    field.act = invocationIdSlot.put message.invocationId ∨
    field.act = functionNameSlot.put message.functionName ∨
    (∃ entry ∈ maps.toList message.input, field.act =
      fun other => { other with input := maps.set other.input entry.1 entry.2 }) ∨
    (∃ entry ∈ maps.toList message.output, field.act =
      fun other => { other with output := maps.set other.output entry.1 entry.2 }) := by
  simp only [fields, List.mem_append, mem_optional] at member
  rcases member with ((⟨_, rfl⟩ | ⟨_, rfl⟩) | input) | output
  · exact .inl rfl
  · exact .inr (.inl rfl)
  · exact .inr (.inr (.inl (MapField.act_fields input)))
  · exact .inr (.inr (.inr (MapField.act_fields output)))

theorem tolerates : coding.Tolerates (type maps) (fields maps) known (content maps) where
  dropped := by
    intro number other message
    change select maps number message = _
    unfold select
    split <;> first | rfl | simp [known] at other
  respects := by
    intro message field member first second same
    simp only [content, Prod.mk.injEq] at same ⊢
    obtain ⟨invocationId, functionName, input, output⟩ := same
    rcases act_cases member with act | act | ⟨entry, _, act⟩ | ⟨entry, _, act⟩ <;> rw [act]
    · exact ⟨rfl, functionName, input, output⟩
    · exact ⟨invocationId, rfl, input, output⟩
    · exact ⟨invocationId, functionName, maps.tryGetValue_set_congr input _ _, output⟩
    · exact ⟨invocationId, functionName, input, maps.tryGetValue_set_congr output _ _⟩
  commutes := by
    -- Only two entries of one map meet in the same place.
    intro message first one second two other
    rcases act_cases one with act | act | ⟨entry, listed, act⟩ | ⟨entry, listed, act⟩ <;>
      rw [act] <;>
      rcases act_cases two with act | act | ⟨later, too, act⟩ | ⟨later, too, act⟩ <;>
      rw [act] <;> try rfl
    · simp only [content, MapField.tryGetValue_set_set listed too]
    · simp only [content, MapField.tryGetValue_set_set listed too]

end FunctionMetadata
end Wire
end BenchmarkHost
