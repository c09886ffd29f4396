import BenchmarkHost.Library.Dictionary
import BenchmarkHost.Library.Fifo
import BenchmarkHost.Library.Managed
import BenchmarkHost.Library.Precedence
import BenchmarkHost.RouteGuide.Points

/-! `RouteChat`: notes left at points, and replies with the earlier ones.

All streams share the dictionary `routeNotes`. A note is added under the lock,
in one step with the copy of the notes before it; the copy is written back one
note at a time, while other streams go on adding.
-/

set_option autoImplicit false

namespace BenchmarkHost

open Library

abbrev StreamId := Nat

/-- A `RouteNote` object: the stream it came on, and how many came before it there. -/
structure ReceivedNote where
  stream : StreamId
  number : Nat
  note : RouteNote
  deriving DecidableEq, Repr

/-- Where the handler of a stream stands. A `foreach` with nothing left goes
back to `MoveNext`. -/
inductive ChatPhase where
  | moveNext
  | addNote (note : ReceivedNote)
  | writing (note : ReceivedNote) (prevNotes : List ReceivedNote)
  /-- `AddNoteForLocation` has raised. -/
  | faulted (note : ReceivedNote)
  /-- A `WriteAsync` has raised. -/
  | failed (note : ReceivedNote) (prevNotes : List ReceivedNote)
  | ended
  deriving DecidableEq, Repr

structure RouteChat where
  routeNotes : Dictionary Point (List ReceivedNote)
  streams : StreamId → ChatPhase
  /-- How many notes were read from a stream; it tells note objects apart. -/
  received : StreamId → Nat

inductive ChatAction where
  | moveNext (stream : StreamId) (note : RouteNote)
  | addNote (stream : StreamId)
  | write (stream : StreamId) (succeeds : Bool)
  | finish (stream : StreamId)
  deriving DecidableEq, Repr

inductive ChatObservation where
  | received (note : ReceivedNote)
  | added (note : ReceivedNote)
  | raised (note : ReceivedNote)
  | replied (note prevNote : ReceivedNote)
  | failed (note : ReceivedNote)
  | ended (stream : StreamId)
  deriving DecidableEq, Repr

def ChatPhase.atMoveNext : ChatPhase → Bool
  | .moveNext | .writing _ [] => true
  | _ => false

namespace RouteChat

def initial : RouteChat := ⟨.empty, fun _ => .moveNext, fun _ => 0⟩

/-- The dictionary with the note added, and the notes before it at its location. -/
def addNoteForLocation (routeNotes : Dictionary Point (List ReceivedNote))
    (location : Option Point) (note : ReceivedNote) :
    Except RuntimeException (Dictionary Point (List ReceivedNote) × List ReceivedNote) :=
  match location with
  | none => .error .argumentNull
  | some location => do
    let (routeNotes, notes) ←
      match routeNotes.tryGetValue location with
      | some notes => .ok (routeNotes, notes)
      | none =>
        match routeNotes.add location [] with
        | some extended => .ok (extended, [])
        | none => .error .argument
    let preexistingNotes := notes
    return (routeNotes.modify location (· ++ [note]), preexistingNotes)

def setStream (chat : RouteChat) (stream : StreamId) (phase : ChatPhase) : RouteChat :=
  { chat with streams := Function.update chat.streams stream phase }

theorem streams_setStream (chat : RouteChat) (stream other : StreamId) (phase : ChatPhase) :
    (chat.setStream stream phase).streams other =
      if other = stream then phase else chat.streams other :=
  Function.update_apply ..

def moveNext (chat : RouteChat) (stream : StreamId) (note : RouteNote) :
    Option (RouteChat × List ChatObservation) :=
  if (chat.streams stream).atMoveNext then
    let current : ReceivedNote := ⟨stream, chat.received stream, note⟩
    some ({ chat.setStream stream (.addNote current) with
        received := Function.update chat.received stream (chat.received stream + 1) },
      [.received current])
  else none

def addNote (chat : RouteChat) (stream : StreamId) : Option (RouteChat × List ChatObservation) :=
  match chat.streams stream with
  | .addNote note =>
    match addNoteForLocation chat.routeNotes note.note.location note with
    | .error _ => some (chat.setStream stream (.faulted note), [.raised note])
    | .ok (routeNotes, prevNotes) =>
      some ({ chat.setStream stream (.writing note prevNotes) with routeNotes := routeNotes },
        [.added note])
  | _ => none

def write (chat : RouteChat) (stream : StreamId) (succeeds : Bool) :
    Option (RouteChat × List ChatObservation) :=
  match chat.streams stream with
  | .writing note (prevNote :: rest) =>
    if succeeds then
      some (chat.setStream stream (.writing note rest), [.replied note prevNote])
    else some (chat.setStream stream (.failed note (prevNote :: rest)), [.failed note])
  | _ => none

-- The stream is complete, or reading from it raises.
def finish (chat : RouteChat) (stream : StreamId) : Option (RouteChat × List ChatObservation) :=
  if (chat.streams stream).atMoveNext then
    some (chat.setStream stream .ended, [.ended stream])
  else none

def step (chat : RouteChat) : ChatAction → Option (RouteChat × List ChatObservation)
  | .moveNext stream note => chat.moveNext stream note
  | .addNote stream => chat.addNote stream
  | .write stream succeeds => chat.write stream succeeds
  | .finish stream => chat.finish stream

/-! ### What each action does -/

theorem addNoteForLocation_some (routeNotes : Dictionary Point (List ReceivedNote))
    (location : Point) (note : ReceivedNote) :
    ∃ after, addNoteForLocation routeNotes (some location) note =
        .ok (after, (routeNotes.tryGetValue location).getD []) ∧
      ∀ other, (after.tryGetValue other).getD [] =
        (routeNotes.tryGetValue other).getD [] ++ if other = location then [note] else [] := by
  cases found : routeNotes.tryGetValue location with
  | some notes =>
    refine ⟨routeNotes.modify location (· ++ [note]), ?_, fun other => ?_⟩
    · simp only [addNoteForLocation, found]
      rfl
    · rw [Dictionary.tryGetValue_modify]
      by_cases same : other = location
      · simp [same, found]
      · simp [same]
  | none =>
    obtain ⟨extended, added⟩ : ∃ extended, routeNotes.add location [] = some extended :=
      ⟨_, Dictionary.add_eq_some.mpr ⟨found, rfl⟩⟩
    refine ⟨extended.modify location (· ++ [note]), ?_, fun other => ?_⟩
    · simp only [addNoteForLocation, found, added]
      rfl
    · rw [Dictionary.tryGetValue_modify, Dictionary.tryGetValue_add added,
        Dictionary.tryGetValue_add added]
      by_cases same : other = location
      · simp [same, found]
      · simp [same]

theorem moveNext_some {chat after : RouteChat} {stream : StreamId} {note : RouteNote}
    {out : List ChatObservation} (stepped : chat.moveNext stream note = some (after, out)) :
    (chat.streams stream).atMoveNext = true ∧
      after = { chat.setStream stream (.addNote ⟨stream, chat.received stream, note⟩) with
        received := Function.update chat.received stream (chat.received stream + 1) } ∧
      out = [.received ⟨stream, chat.received stream, note⟩] := by
  unfold moveNext at stepped
  split at stepped <;> cases stepped
  rename_i waits
  exact ⟨waits, rfl, rfl⟩

theorem addNote_some {chat after : RouteChat} {stream : StreamId} {out : List ChatObservation}
    (stepped : chat.addNote stream = some (after, out)) :
    ∃ note, chat.streams stream = .addNote note ∧
      ((note.note.location = none ∧ after = chat.setStream stream (.faulted note) ∧
          out = [.raised note]) ∨
        ∃ location routeNotes, note.note.location = some location ∧
          (∀ other, (routeNotes.tryGetValue other).getD [] =
            (chat.routeNotes.tryGetValue other).getD [] ++
              if other = location then [note] else []) ∧
          after = { chat.setStream stream
              (.writing note ((chat.routeNotes.tryGetValue location).getD [])) with
            routeNotes := routeNotes } ∧
          out = [.added note]) := by
  unfold addNote at stepped
  cases phase : chat.streams stream <;> rw [phase] at stepped <;>
    simp only [reduceCtorEq] at stepped
  rename_i note
  refine ⟨note, rfl, ?_⟩
  cases located : note.note.location with
  | none =>
    rw [located] at stepped
    cases stepped
    exact .inl ⟨rfl, rfl, rfl⟩
  | some location =>
    obtain ⟨routeNotes, added, values⟩ := addNoteForLocation_some chat.routeNotes location note
    rw [located, added] at stepped
    cases stepped
    exact .inr ⟨location, routeNotes, rfl, values, rfl, rfl⟩

theorem write_some {chat after : RouteChat} {stream : StreamId} {succeeds : Bool}
    {out : List ChatObservation} (stepped : chat.write stream succeeds = some (after, out)) :
    ∃ note prevNote rest, chat.streams stream = .writing note (prevNote :: rest) ∧
      ((after = chat.setStream stream (.writing note rest) ∧ out = [.replied note prevNote]) ∨
        (after = chat.setStream stream (.failed note (prevNote :: rest)) ∧
          out = [.failed note])) := by
  unfold write at stepped
  split at stepped
  · rename_i note prevNote rest phase
    refine ⟨note, prevNote, rest, phase, ?_⟩
    split at stepped <;> cases stepped
    · exact .inl ⟨rfl, rfl⟩
    · exact .inr ⟨rfl, rfl⟩
  · cases stepped

theorem finish_some {chat after : RouteChat} {stream : StreamId} {out : List ChatObservation}
    (stepped : chat.finish stream = some (after, out)) :
    (chat.streams stream).atMoveNext = true ∧ after = chat.setStream stream .ended ∧
      out = [.ended stream] := by
  unfold finish at stepped
  split at stepped <;> cases stepped
  rename_i waits
  exact ⟨waits, rfl, rfl⟩

end RouteChat

def chatMachine : Machine RouteChat ChatAction ChatObservation := ⟨.initial, RouteChat.step⟩

/-! ### Histories -/

namespace ChatObservation

def addedNote : ChatObservation → Option ReceivedNote
  | .added note => some note
  | _ => none

def addedAt (location : Option Point) : ChatObservation → Option ReceivedNote
  | .added note => if note.note.location = location then some note else none
  | _ => none

def addedOn (stream : StreamId) : ChatObservation → Option ReceivedNote
  | .added note => if note.stream = stream then some note else none
  | _ => none

def receivedOn (stream : StreamId) : ChatObservation → Option ReceivedNote
  | .received note => if note.stream = stream then some note else none
  | _ => none

def repliedTo (note : ReceivedNote) : ChatObservation → Option ReceivedNote
  | .replied other prevNote => if other = note then some prevNote else none
  | _ => none

def writtenOn (stream : StreamId) : ChatObservation → Option ReceivedNote
  | .replied note prevNote => if note.stream = stream then some prevNote else none
  | _ => none

def replayedAt (location : Option Point) : ChatObservation → Option ReceivedNote
  | .replied note _ => if note.note.location = location then some note else none
  | _ => none

end ChatObservation

/-- The notes added at a note's location before it. -/
def earlier (seen : List ChatObservation) (note : ReceivedNote) : List ReceivedNote :=
  preceding (seen.filterMap (·.addedAt note.note.location)) note

namespace ChatPhase

def unadded : ChatPhase → List ReceivedNote
  | .addNote note | .faulted note => [note]
  | _ => []

/-- The note whose reply is being written or was given up. -/
def answering : ChatPhase → Option ReceivedNote
  | .writing note _ | .failed note _ => some note
  | _ => none

def rest (note : ReceivedNote) : ChatPhase → List ReceivedNote
  | .writing other prevNotes | .failed other prevNotes => if other = note then prevNotes else []
  | _ => []

theorem of_atMoveNext {phase : ChatPhase} (waits : phase.atMoveNext = true) :
    phase.unadded = [] ∧ ∀ note, phase.rest note = [] := by
  unfold atMoveNext at waits
  split at waits
  · exact ⟨rfl, fun _ => rfl⟩
  · exact ⟨rfl, fun _ => ite_self _⟩
  · cases waits

end ChatPhase

def RouteChat.pendingReply (chat : RouteChat) (note : ReceivedNote) : List ReceivedNote :=
  (chat.streams note.stream).rest note

open ChatObservation

/-- The history of the streams, of the board and of the replies. -/
structure Noted (seen : List ChatObservation) (chat : RouteChat) : Prop where
  numbered : ∀ stream, (seen.filterMap (·.receivedOn stream)).map (·.number) =
    List.range (chat.received stream)
  arrived : ∀ stream, seen.filterMap (·.receivedOn stream) =
    seen.filterMap (·.addedOn stream) ++ (chat.streams stream).unadded
  once : (seen.filterMap addedNote).Nodup
  located : ∀ note, .added note ∈ seen → note.note.location ≠ none
  board : ∀ point, (chat.routeNotes.tryGetValue point).getD [] =
    seen.filterMap (·.addedAt (some point))
  last : ∀ stream note, (chat.streams stream).answering = some note →
    ∃ before, seen.filterMap (·.addedOn stream) = before ++ [note]
  replies : ∀ note, .added note ∈ seen →
    seen.filterMap (·.repliedTo note) ++ chat.pendingReply note = earlier seen note
  unasked : ∀ note, .added note ∉ seen → seen.filterMap (·.repliedTo note) = []
  inOrder : ∀ stream, seen.filterMap (·.writtenOn stream) =
    (seen.filterMap (·.addedOn stream)).flatMap fun note => seen.filterMap (·.repliedTo note)

theorem filterMap_snoc {Kept : Type} (choose : ChatObservation → Option Kept)
    (seen : List ChatObservation) (observation : ChatObservation) :
    (seen ++ [observation]).filterMap choose =
      seen.filterMap choose ++ (choose observation).toList := by
  rw [List.filterMap_append]
  cases shown : choose observation <;> simp [shown]

theorem filterMap_ignored {Kept : Type} {choose : ChatObservation → Option Kept}
    {observation : ChatObservation} (ignored : choose observation = none)
    (seen : List ChatObservation) :
    (seen ++ [observation]).filterMap choose = seen.filterMap choose := by
  rw [filterMap_snoc, ignored]
  exact List.append_nil _

theorem mem_addedNote {seen : List ChatObservation} {note : ReceivedNote} :
    note ∈ seen.filterMap addedNote ↔ .added note ∈ seen := by
  rw [List.mem_filterMap]
  constructor
  · rintro ⟨observation, member, shown⟩
    cases observation <;> cases shown
    exact member
  · exact fun member => ⟨_, member, rfl⟩

theorem mem_addedAt {seen : List ChatObservation} {location : Option Point} {note : ReceivedNote} :
    note ∈ seen.filterMap (·.addedAt location) ↔
      .added note ∈ seen ∧ note.note.location = location := by
  rw [List.mem_filterMap]
  constructor
  · rintro ⟨observation, member, shown⟩
    cases observation <;>
      simp only [addedAt, reduceCtorEq, Option.ite_none_right_eq_some, Option.some.injEq] at shown
    obtain ⟨same, rfl⟩ := shown
    exact ⟨member, same⟩
  · rintro ⟨member, same⟩
    exact ⟨_, member, by simp [addedAt, same]⟩

theorem mem_addedOn {seen : List ChatObservation} {stream : StreamId} {note : ReceivedNote} :
    note ∈ seen.filterMap (·.addedOn stream) ↔ .added note ∈ seen ∧ note.stream = stream := by
  rw [List.mem_filterMap]
  constructor
  · rintro ⟨observation, member, shown⟩
    cases observation <;>
      simp only [addedOn, reduceCtorEq, Option.ite_none_right_eq_some, Option.some.injEq] at shown
    obtain ⟨same, rfl⟩ := shown
    exact ⟨member, same⟩
  · rintro ⟨member, same⟩
    exact ⟨_, member, by simp [addedOn, same]⟩

theorem addedOn_sublist (stream : StreamId) (seen : List ChatObservation) :
    (seen.filterMap (·.addedOn stream)).Sublist (seen.filterMap addedNote) := by
  refine filterMap_sublist (fun observation note shown => ?_) seen
  cases observation <;>
    simp only [addedOn, reduceCtorEq, Option.ite_none_right_eq_some, Option.some.injEq] at shown
  exact congrArg some shown.2

theorem addedAt_sublist (location : Option Point) (seen : List ChatObservation) :
    (seen.filterMap (·.addedAt location)).Sublist (seen.filterMap addedNote) := by
  refine filterMap_sublist (fun observation note shown => ?_) seen
  cases observation <;>
    simp only [addedAt, reduceCtorEq, Option.ite_none_right_eq_some, Option.some.injEq] at shown
  exact congrArg some shown.2

theorem stream_of_receivedOn {seen : List ChatObservation} {stream : StreamId}
    {note : ReceivedNote} (member : note ∈ seen.filterMap (·.receivedOn stream)) :
    note.stream = stream := by
  obtain ⟨observation, _, shown⟩ := List.mem_filterMap.mp member
  cases observation <;>
    simp only [receivedOn, reduceCtorEq, Option.ite_none_right_eq_some, Option.some.injEq] at shown
  exact shown.2 ▸ shown.1

theorem earlier_append {seen : List ChatObservation} {note : ReceivedNote}
    (added : .added note ∈ seen) (out : List ChatObservation) :
    earlier (seen ++ out) note = earlier seen note := by
  rw [earlier, List.filterMap_append, preceding_append (mem_addedAt.mpr ⟨added, rfl⟩)]
  rfl

def ChatObservation.quiet : ChatObservation → Bool
  | .added _ | .replied _ _ => false
  | _ => true

theorem Noted.frame {seen : List ChatObservation} {chat after : RouteChat}
    {observation : ChatObservation} (noted : Noted seen chat) (quiet : observation.quiet = true)
    (routeNotes : after.routeNotes = chat.routeNotes)
    (rest : ∀ stream note, (after.streams stream).rest note = (chat.streams stream).rest note)
    (answering : ∀ stream note, (after.streams stream).answering = some note →
      (chat.streams stream).answering = some note)
    (numbered : ∀ stream, ((seen ++ [observation]).filterMap (·.receivedOn stream)).map
      (·.number) = List.range (after.received stream))
    (arrived : ∀ stream, (seen ++ [observation]).filterMap (·.receivedOn stream) =
      seen.filterMap (·.addedOn stream) ++ (after.streams stream).unadded) :
    Noted (seen ++ [observation]) after := by
  have all : (seen ++ [observation]).filterMap addedNote = seen.filterMap addedNote :=
    filterMap_ignored (by cases observation <;> first | rfl | cases quiet) seen
  have spot : ∀ location, (seen ++ [observation]).filterMap (·.addedAt location) =
      seen.filterMap (·.addedAt location) := fun location =>
    filterMap_ignored (by cases observation <;> first | rfl | cases quiet) seen
  have own : ∀ stream, (seen ++ [observation]).filterMap (·.addedOn stream) =
      seen.filterMap (·.addedOn stream) := fun stream =>
    filterMap_ignored (by cases observation <;> first | rfl | cases quiet) seen
  have reply : ∀ note, (seen ++ [observation]).filterMap (·.repliedTo note) =
      seen.filterMap (·.repliedTo note) := fun note =>
    filterMap_ignored (by cases observation <;> first | rfl | cases quiet) seen
  have wrote : ∀ stream, (seen ++ [observation]).filterMap (·.writtenOn stream) =
      seen.filterMap (·.writtenOn stream) := fun stream =>
    filterMap_ignored (by cases observation <;> first | rfl | cases quiet) seen
  have member : ∀ note, .added note ∈ seen ++ [observation] ↔ .added note ∈ seen := by
    intro note
    rw [← mem_addedNote, all, mem_addedNote]
  constructor
  case numbered => exact numbered
  case arrived => simpa only [own] using arrived
  case once =>
    rw [all]
    exact noted.once
  case located => exact fun note added => noted.located note ((member note).mp added)
  case board =>
    intro point
    rw [routeNotes, spot]
    exact noted.board point
  case last =>
    intro stream note current
    rw [own]
    exact noted.last stream note (answering stream note current)
  case replies =>
    intro note added
    have before := (member note).mp added
    rw [earlier_append before, reply, RouteChat.pendingReply, rest]
    exact noted.replies note before
  case unasked =>
    intro note absent
    rw [reply]
    exact noted.unasked note fun before => absent ((member note).mpr before)
  case inOrder =>
    intro stream
    simp only [wrote, own, reply]
    exact noted.inOrder stream

theorem Noted.stay {seen : List ChatObservation} {chat : RouteChat}
    {observation : ChatObservation} (noted : Noted seen chat) (quiet : observation.quiet = true)
    (unread : ∀ stream, observation.receivedOn stream = none) {stream : StreamId}
    {phase : ChatPhase} (unadded : phase.unadded = (chat.streams stream).unadded)
    (rest : ∀ note, phase.rest note = (chat.streams stream).rest note)
    (answering : ∀ note, phase.answering = some note →
      (chat.streams stream).answering = some note) :
    Noted (seen ++ [observation]) (chat.setStream stream phase) := by
  have received : ∀ other, (seen ++ [observation]).filterMap (·.receivedOn other) =
      seen.filterMap (·.receivedOn other) := fun other => filterMap_ignored (unread other) seen
  refine noted.frame quiet rfl ?_ ?_ ?_ ?_
  · intro other note
    rw [RouteChat.streams_setStream]
    split
    · rename_i same
      rw [same, rest]
    · rfl
  · intro other note current
    rw [RouteChat.streams_setStream] at current
    split at current
    · rename_i same
      exact same ▸ answering note current
    · exact current
  · intro other
    rw [received]
    exact noted.numbered other
  · intro other
    rw [received, noted.arrived, RouteChat.streams_setStream]
    split
    · rename_i same
      rw [same, unadded]
    · rfl

theorem Noted.moveNext {seen out : List ChatObservation} {chat after : RouteChat}
    (noted : Noted seen chat) {stream : StreamId} {note : RouteNote}
    (stepped : chat.moveNext stream note = some (after, out)) : Noted (seen ++ out) after := by
  obtain ⟨waits, rfl, rfl⟩ := RouteChat.moveNext_some stepped
  obtain ⟨unadded, rest⟩ := ChatPhase.of_atMoveNext waits
  set current : ReceivedNote := ⟨stream, chat.received stream, note⟩ with shown
  have received : ∀ other, (seen ++ [ChatObservation.received current]).filterMap
      (·.receivedOn other) =
        seen.filterMap (·.receivedOn other) ++ if other = stream then [current] else [] := by
    intro other
    rw [filterMap_snoc]
    by_cases same : other = stream
    · simp [receivedOn, shown, same]
    · simp [receivedOn, shown, same, Ne.symm same]
  refine noted.frame rfl rfl ?_ ?_ ?_ ?_
  · intro other note
    show ((chat.setStream stream (.addNote current)).streams other).rest note = _
    rw [RouteChat.streams_setStream]
    split
    · rename_i same
      rw [same, rest]
      rfl
    · rfl
  · intro other note answered
    change ((chat.setStream stream (.addNote current)).streams other).answering = _ at answered
    rw [RouteChat.streams_setStream] at answered
    split at answered
    · cases answered
    · exact answered
  · intro other
    -- The number of a note is how many its stream has read before it.
    rw [received, List.map_append, noted.numbered]
    by_cases same : other = stream
    · subst same
      simp [shown, List.range_succ]
    · simp [same]
  · intro other
    show _ = _ ++ ((chat.setStream stream (.addNote current)).streams other).unadded
    rw [received, noted.arrived, RouteChat.streams_setStream]
    split
    · rename_i same
      rw [same, unadded, List.append_nil]
      rfl
    · rw [List.append_nil]

theorem Noted.fresh {seen : List ChatObservation} {chat : RouteChat} (noted : Noted seen chat)
    {stream : StreamId} {note : ReceivedNote} (held : chat.streams stream = .addNote note) :
    note.stream = stream ∧ .added note ∉ seen := by
  have arrived := noted.arrived stream
  rw [held] at arrived
  have member : note ∈ seen.filterMap (·.receivedOn stream) := by
    rw [arrived]
    exact List.mem_append_right _ List.mem_cons_self
  have own : note.stream = stream := stream_of_receivedOn member
  -- The numbers keep equal notes of one stream apart.
  have once : (seen.filterMap (·.receivedOn stream)).Nodup := by
    refine List.Nodup.of_map (·.number) ?_
    rw [noted.numbered]
    exact List.nodup_range
  rw [arrived, List.nodup_append] at once
  exact ⟨own, fun added => once.2.2 note (mem_addedOn.mpr ⟨added, own⟩) note List.mem_cons_self rfl⟩

theorem Noted.addNote {seen out : List ChatObservation} {chat after : RouteChat}
    (noted : Noted seen chat) {stream : StreamId}
    (stepped : chat.addNote stream = some (after, out)) : Noted (seen ++ out) after := by
  obtain ⟨note, held, outcome⟩ := RouteChat.addNote_some stepped
  rcases outcome with ⟨_, rfl, rfl⟩ | ⟨location, routeNotes, located, values, rfl, rfl⟩
  · refine noted.stay rfl (fun _ => rfl) ?_ ?_ ?_ <;> rw [held]
    · rfl
    · exact fun _ => rfl
    · exact fun _ current => current
  · obtain ⟨own, absent⟩ := noted.fresh held
    have streams : ∀ other, Function.update chat.streams stream
        (.writing note ((chat.routeNotes.tryGetValue location).getD [])) other =
          if other = stream then .writing note ((chat.routeNotes.tryGetValue location).getD [])
          else chat.streams other := fun other => Function.update_apply ..
    have reply : ∀ other, (seen ++ [ChatObservation.added note]).filterMap (·.repliedTo other) =
        seen.filterMap (·.repliedTo other) := fun _ => filterMap_ignored rfl seen
    have spot : ∀ other, (seen ++ [ChatObservation.added note]).filterMap (·.addedAt other) =
        seen.filterMap (·.addedAt other) ++ if other = some location then [note] else [] := by
      intro other
      rw [filterMap_snoc]
      by_cases same : other = some location
      · simp [addedAt, located, same]
      · simp [addedAt, located, same, Ne.symm same]
    have on : ∀ other, (seen ++ [ChatObservation.added note]).filterMap (·.addedOn other) =
        seen.filterMap (·.addedOn other) ++ if other = stream then [note] else [] := by
      intro other
      rw [filterMap_snoc]
      by_cases same : other = stream
      · simp [addedOn, own, same]
      · simp [addedOn, own, same, Ne.symm same]
    have read : ∀ other, (seen ++ [ChatObservation.added note]).filterMap (·.receivedOn other) =
        seen.filterMap (·.receivedOn other) := fun _ => filterMap_ignored rfl seen
    have wrote : ∀ other, (seen ++ [ChatObservation.added note]).filterMap (·.writtenOn other) =
        seen.filterMap (·.writtenOn other) := fun _ => filterMap_ignored rfl seen
    constructor
    case numbered =>
      intro other
      rw [read]
      exact noted.numbered other
    case arrived =>
      intro other
      show _ = _ ++ (Function.update chat.streams stream _ other).unadded
      rw [read, on, noted.arrived, streams]
      by_cases same : other = stream
      · subst same
        simp [held, ChatPhase.unadded]
      · simp [same]
    case once =>
      rw [filterMap_snoc]
      exact List.nodup_append.mpr ⟨noted.once, List.nodup_singleton note,
        fun other before next now same => by
          cases List.mem_singleton.mp now
          exact absent (mem_addedNote.mp (same ▸ before))⟩
    case located =>
      intro other added
      rcases List.mem_append.mp added with before | now
      · exact noted.located other before
      · cases List.mem_singleton.mp now
        simp [located]
    case board =>
      intro point
      show (routeNotes.tryGetValue point).getD [] = _
      rw [values, spot, noted.board]
      simp
    case last =>
      intro other current answered
      change (Function.update chat.streams stream _ other).answering = _ at answered
      rw [streams] at answered
      rw [on]
      by_cases same : other = stream
      · rw [if_pos same] at answered ⊢
        cases answered
        exact ⟨_, rfl⟩
      · rw [if_neg same] at answered ⊢
        rw [List.append_nil]
        exact noted.last other current answered
    case replies =>
      intro other added
      show _ ++ (Function.update chat.streams stream _ other.stream).rest other = _
      rw [reply, streams]
      by_cases same : other = note
      · -- The copy is taken in the step that adds the note.
        subst same
        rw [noted.unasked other absent, if_pos own, noted.board, earlier, located, spot, if_pos rfl,
          preceding_last fun member => absent (mem_addedAt.mp member).1]
        simp [ChatPhase.rest]
      · have before : .added other ∈ seen := by
          rcases List.mem_append.mp added with before | now
          · exact before
          · exact absurd (ChatObservation.added.inj (List.mem_singleton.mp now)) same
        rw [earlier_append before, ← noted.replies other before, RouteChat.pendingReply]
        by_cases here : other.stream = stream
        · rw [if_pos here, here, held]
          simp [ChatPhase.rest, Ne.symm same]
        · rw [if_neg here]
    case unasked =>
      intro other unknown
      rw [reply]
      exact noted.unasked other fun before => unknown (List.mem_append_left _ before)
    case inOrder =>
      intro other
      simp only [wrote, on, reply, List.flatMap_append, noted.inOrder]
      by_cases same : other = stream
      · simp [same, noted.unasked note absent]
      · simp [same]

theorem Noted.write {seen out : List ChatObservation} {chat after : RouteChat}
    (noted : Noted seen chat) {stream : StreamId} {succeeds : Bool}
    (stepped : chat.write stream succeeds = some (after, out)) : Noted (seen ++ out) after := by
  obtain ⟨note, prevNote, rest, held, outcome⟩ := RouteChat.write_some stepped
  rcases outcome with ⟨rfl, rfl⟩ | ⟨rfl, rfl⟩
  · -- The note that is answered is the last one added on its stream.
    obtain ⟨before, lastOn⟩ := noted.last stream note (by rw [held]; rfl)
    have asked : .added note ∈ seen ∧ note.stream = stream := by
      rw [← mem_addedOn, lastOn]
      exact List.mem_append_right _ List.mem_cons_self
    obtain ⟨added, own⟩ := asked
    have reply : ∀ other, (seen ++ [ChatObservation.replied note prevNote]).filterMap
        (·.repliedTo other) = seen.filterMap (·.repliedTo other) ++
          if note = other then [prevNote] else [] := by
      intro other
      rw [filterMap_snoc]
      by_cases same : note = other <;> simp [repliedTo, same]
    have member : ∀ other, .added other ∈ seen ++ [.replied note prevNote] ↔
        .added other ∈ seen := by
      simp
    constructor
    case numbered =>
      intro other
      rw [filterMap_ignored rfl]
      exact noted.numbered other
    case arrived =>
      intro other
      rw [filterMap_ignored rfl, filterMap_ignored rfl, noted.arrived, RouteChat.streams_setStream]
      split
      · rename_i same
        rw [same, held]
        rfl
      · rfl
    case once =>
      rw [filterMap_ignored rfl]
      exact noted.once
    case located => exact fun other asked => noted.located other ((member other).mp asked)
    case board =>
      intro point
      rw [filterMap_ignored rfl]
      exact noted.board point
    case last =>
      intro other current answered
      rw [filterMap_ignored rfl]
      rw [RouteChat.streams_setStream] at answered
      split at answered
      · rename_i same
        refine noted.last other current ?_
        rw [same, held]
        exact answered
      · exact noted.last other current answered
    case replies =>
      intro other asked
      have earlierAdded := (member other).mp asked
      rw [earlier_append earlierAdded, ← noted.replies other earlierAdded, reply,
        RouteChat.pendingReply, RouteChat.pendingReply, RouteChat.streams_setStream]
      by_cases same : note = other
      · subst same
        rw [if_pos own, own, held]
        simp [ChatPhase.rest]
      · by_cases here : other.stream = stream
        · rw [if_pos here, here, held]
          simp [ChatPhase.rest, same]
        · rw [if_neg here, if_neg same, List.append_nil]
    case unasked =>
      intro other unknown
      have before : .added other ∉ seen := fun there => unknown ((member other).mpr there)
      have different : note ≠ other := fun same => before (same ▸ added)
      rw [reply, if_neg different, List.append_nil]
      exact noted.unasked other before
    case inOrder =>
      intro other
      simp only [reply]
      rw [filterMap_snoc, noted.inOrder, filterMap_ignored rfl]
      by_cases same : other = stream
      · -- The note answered is the last one of its stream, and is there once.
        subst same
        have once := noted.once.sublist (addedOn_sublist other seen)
        rw [lastOn, List.nodup_append] at once
        have absent : note ∉ before := fun there =>
          once.2.2 note there note List.mem_cons_self rfl
        rw [lastOn, flatMap_grow_last absent]
        simp [writtenOn, own]
      · have absent : note ∉ seen.filterMap (·.addedOn other) := fun there =>
          same ((mem_addedOn.mp there).2.symm.trans own)
        rw [flatMap_grow_absent absent]
        simp [writtenOn, own, Ne.symm same]
  · refine noted.stay rfl (fun _ => rfl) ?_ ?_ ?_ <;> rw [held]
    · rfl
    · exact fun _ => rfl
    · exact fun _ current => current

theorem Noted.step {seen out : List ChatObservation} {chat after : RouteChat}
    (noted : Noted seen chat) {action : ChatAction}
    (stepped : chat.step action = some (after, out)) : Noted (seen ++ out) after := by
  cases action with
  | moveNext stream note => exact noted.moveNext stepped
  | addNote stream => exact noted.addNote stepped
  | write stream succeeds => exact noted.write stepped
  | finish stream =>
    obtain ⟨waits, rfl, rfl⟩ := RouteChat.finish_some stepped
    obtain ⟨unadded, rest⟩ := ChatPhase.of_atMoveNext waits
    refine noted.stay rfl (fun _ => rfl) unadded.symm (fun note => (rest note).symm) ?_
    exact fun _ current => nomatch current

theorem noted_of_run {actions : List ChatAction} {seen : List ChatObservation} {chat : RouteChat}
    (run : chatMachine.Run actions seen chat) : Noted seen chat := by
  induction run with
  | start =>
    constructor <;> intros <;>
      simp_all [chatMachine, RouteChat.initial, ChatPhase.unadded, ChatPhase.answering]
  | next earlier stepped ih => exact ih.step stepped

/-! ### A linearizable board -/

/-- The replies are those of a board on which one note after the other is put,
each together with a look at the notes before it. -/
structure Linearizable (seen : List ChatObservation) (chat : RouteChat) : Prop where
  arrivals : ∀ stream,
    seen.filterMap (·.addedOn stream) <+: seen.filterMap (·.receivedOn stream)
  once : (seen.filterMap addedNote).Nodup
  replies : ∀ note, .added note ∈ seen →
    seen.filterMap (·.repliedTo note) ++ chat.pendingReply note = earlier seen note
  unasked : ∀ note, .added note ∉ seen → seen.filterMap (·.repliedTo note) = []
  distinct : ∀ note, (seen.filterMap (·.repliedTo note)).Nodup ∧
    note ∉ seen.filterMap (·.repliedTo note)
  sameLocation : ∀ note, ∀ prevNote ∈ seen.filterMap (·.repliedTo note),
    prevNote.note.location = note.note.location
  inOrder : ∀ stream, seen.filterMap (·.writtenOn stream) =
    (seen.filterMap (·.addedOn stream)).flatMap fun note => seen.filterMap (·.repliedTo note)
  oneOfTwo : ∀ first second, .added first ∈ seen → .added second ∈ seen → first ≠ second →
    first.note.location = second.note.location → chat.pendingReply first = [] →
    chat.pendingReply second = [] →
    (first ∈ seen.filterMap (·.repliedTo second) ↔ second ∉ seen.filterMap (·.repliedTo first))
  replays : ∀ point,
    (∀ note ∈ seen.filterMap (·.addedAt (some point)), chat.pendingReply note = []) →
    (seen.filterMap (·.replayedAt (some point))).length =
      (seen.filterMap (·.addedAt (some point))).length *
        ((seen.filterMap (·.addedAt (some point))).length - 1) / 2
  located : ∀ note, .added note ∈ seen → note.note.location ≠ none
  refused : ∀ stream note, chat.streams stream = .addNote note → note.note.location = none →
    RouteChat.addNoteForLocation chat.routeNotes note.note.location note = .error .argumentNull ∧
      ∃ after, chat.step (.addNote stream) = some (after, [.raised note]) ∧
        after.routeNotes = chat.routeNotes ∧
        ∀ other, other ≠ stream → after.streams other = chat.streams other

theorem Noted.reply_sublist {seen : List ChatObservation} {chat : RouteChat}
    (noted : Noted seen chat) (note : ReceivedNote) :
    (seen.filterMap (·.repliedTo note)).Sublist (earlier seen note) := by
  by_cases added : .added note ∈ seen
  · rw [← noted.replies note added]
    exact List.sublist_append_left _ _
  · rw [noted.unasked note added]
    exact List.nil_sublist _

theorem Noted.reply_whole {seen : List ChatObservation} {chat : RouteChat}
    (noted : Noted seen chat) {note : ReceivedNote} (added : .added note ∈ seen)
    (written : chat.pendingReply note = []) :
    seen.filterMap (·.repliedTo note) = earlier seen note := by
  rw [← noted.replies note added, written, List.append_nil]

theorem count_replayedAt (seen : List ChatObservation) {location : Option Point}
    {note : ReceivedNote} (located : note.note.location = location) :
    (seen.filterMap (·.replayedAt location)).count note =
      (seen.filterMap (·.repliedTo note)).length := by
  induction seen with
  | nil => rfl
  | cons observation rest ih =>
    cases observation with
    | replied other prevNote =>
      have shownAt : (replied other prevNote).replayedAt location =
          if other.note.location = location then some other else none := rfl
      have shownTo : (replied other prevNote).repliedTo note =
          if other = note then some prevNote else none := rfl
      by_cases same : other = note
      · rw [if_pos (same ▸ located)] at shownAt
        rw [if_pos same] at shownTo
        rw [List.filterMap_cons_some shownAt, List.filterMap_cons_some shownTo, same,
          List.count_cons_self, List.length_cons, ih]
      · rw [if_neg same] at shownTo
        rw [List.filterMap_cons_none shownTo]
        by_cases here : other.note.location = location
        · rw [if_pos here] at shownAt
          rw [List.filterMap_cons_some shownAt, List.count_cons_of_ne same, ih]
        · rw [if_neg here] at shownAt
          rw [List.filterMap_cons_none shownAt, ih]
    | _ => exact ih

theorem Noted.replays {seen : List ChatObservation} {chat : RouteChat} (noted : Noted seen chat)
    (point : Point)
    (written : ∀ note ∈ seen.filterMap (·.addedAt (some point)), chat.pendingReply note = []) :
    (seen.filterMap (·.replayedAt (some point))).length =
      (seen.filterMap (·.addedAt (some point))).length *
        ((seen.filterMap (·.addedAt (some point))).length - 1) / 2 := by
  have once := noted.once.sublist (addedAt_sublist (some point) seen)
  have among : ∀ note ∈ seen.filterMap (·.replayedAt (some point)),
      note ∈ seen.filterMap (·.addedAt (some point)) := by
    intro note member
    obtain ⟨observation, shown, same⟩ := List.mem_filterMap.mp member
    cases observation <;> simp only [replayedAt, reduceCtorEq, Option.ite_none_right_eq_some,
      Option.some.injEq] at same
    rename_i other prevNote
    obtain ⟨located, rfl⟩ := same
    refine mem_addedAt.mpr ⟨?_, located⟩
    by_contra unknown
    have nothing := List.filterMap_eq_nil_iff.mp (noted.unasked other unknown) _ shown
    simp [repliedTo] at nothing
  rw [length_eq_sum_count once among, ← sum_length_preceding once]
  congr 1
  refine List.map_congr_left fun note member => ?_
  obtain ⟨added, located⟩ := mem_addedAt.mp member
  rw [count_replayedAt seen located, noted.reply_whole added (written note member), earlier,
    located]

theorem route_chat_linearizable {actions : List ChatAction} {seen : List ChatObservation}
    {chat : RouteChat} (run : chatMachine.Run actions seen chat) : Linearizable seen chat := by
  have noted := noted_of_run run
  constructor
  · intro stream
    rw [noted.arrived]
    exact List.prefix_append _ _
  · exact noted.once
  · exact noted.replies
  · exact noted.unasked
  · intro note
    have whole := noted.once.sublist (addedAt_sublist note.note.location seen)
    have among := noted.reply_sublist note
    exact ⟨whole.sublist (among.trans (preceding_sublist _ _)),
      fun member => not_mem_preceding _ _ (among.subset member)⟩
  · intro note prevNote member
    have among := (noted.reply_sublist note).trans (preceding_sublist _ _)
    exact (mem_addedAt.mp (among.subset member)).2
  · exact noted.inOrder
  · intro first second one two different same writtenFirst writtenSecond
    rw [noted.reply_whole one writtenFirst, noted.reply_whole two writtenSecond, earlier, earlier,
      same]
    exact preceding_total (mem_addedAt.mpr ⟨one, same⟩) (mem_addedAt.mpr ⟨two, rfl⟩) different
  · exact noted.replays
  · exact noted.located
  · intro stream note held unset
    have raises : RouteChat.addNoteForLocation chat.routeNotes note.note.location note =
        .error .argumentNull := by
      rw [unset]
      rfl
    refine ⟨raises, chat.setStream stream (.faulted note), ?_, rfl, fun other different => ?_⟩
    · simp only [RouteChat.step, RouteChat.addNote, held, raises]
    · rw [RouteChat.streams_setStream, if_neg different]

/-- Three streams at one point, one of them slow, and a note without a location. -/
def raceAtOrigin : List ChatAction :=
  let origin : Point := ⟨0, 0⟩
  [.moveNext 0 ⟨some origin, "a"⟩, .moveNext 1 ⟨some origin, "b"⟩, .addNote 1,
    .moveNext 1 ⟨none, "?"⟩,
    .addNote 0, .moveNext 2 ⟨some ⟨1, -1⟩, "c"⟩, .addNote 2, .moveNext 2 ⟨some origin, "d"⟩,
    .addNote 1, .addNote 2, .write 2 true, .write 0 true, .write 2 true, .finish 2]

theorem route_chat_linearizable_race :
    ∃ chat seen, chatMachine.exec .initial raceAtOrigin = some (chat, seen) ∧
      Linearizable seen chat ∧
      (seen.filterMap (·.replayedAt (some ⟨0, 0⟩))).map (·.note.message) = ["d", "a", "d"] :=
  ⟨_, _, rfl, route_chat_linearizable
    (@Machine.Run.of_exec _ _ _ chatMachine raceAtOrigin _ _ rfl), by decide⟩

end BenchmarkHost
