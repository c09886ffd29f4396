import BenchmarkHost.Library.Settling
import BenchmarkHost.RouteGuide.RouteChat

/-! `RouteChat` of the client, and the handlers it talks to.

A client starts a reader, writes its notes, completes its side of the call and
waits for the reader. Calls may be opened at any time; all share the notes of
the service. A stream takes a window of notes, and a write to a full one waits.
Connections do not fail here.
-/

set_option autoImplicit false

namespace BenchmarkHost

open Library

inductive ClientPhase where
  | idle
  | sending
  /-- `CompleteAsync` has returned. -/
  | completed
  | finished
  | raised
  deriving DecidableEq, Repr

inductive ResponseReader where
  | reading | ended | raised
  deriving DecidableEq, Repr

structure ChatClient where
  phase : ClientPhase
  /-- The notes that are still to be written. -/
  requests : List RouteNote
  reader : ResponseReader
  deriving DecidableEq, Repr

structure Conversations where
  chat : RouteChat
  clients : StreamId → ChatClient
  requestStream : StreamId → List RouteNote
  responseStream : StreamId → List RouteNote

structure NoteArguments where
  message : String
  lat : Int32
  lon : Int32
  deriving DecidableEq, Repr

def newNote (arguments : NoteArguments) : RouteNote :=
  ⟨some ⟨arguments.lat, arguments.lon⟩, arguments.message⟩

inductive ConversationAction where
  | openCall (stream : StreamId) (requests : List NoteArguments)
  | write (stream : StreamId)
  | complete (stream : StreamId)
  | moveNext (stream : StreamId)
  | addNote (stream : StreamId)
  | reply (stream : StreamId)
  | endRequests (stream : StreamId)
  | read (stream : StreamId)
  | endResponses (stream : StreamId)
  | awaitReader (stream : StreamId)
  deriving DecidableEq, Repr

/-- Every action but the opening of a call is taken by a thread on its own. -/
def ConversationAction.own : ConversationAction → Bool
  | .openCall _ _ => false
  | _ => true

inductive ConversationObservation where
  | opened (stream : StreamId) (requests : List RouteNote)
  | chat (observation : ChatObservation)
  | got (stream : StreamId) (note : RouteNote)
  | raised (stream : StreamId)
  | finished (stream : StreamId)
  deriving DecidableEq, Repr

namespace Conversations

def initial : Conversations :=
  ⟨.initial, fun _ => ⟨.idle, [], .reading⟩, fun _ => [], fun _ => []⟩

def setClient (all : Conversations) (stream : StreamId) (client : ChatClient) : Conversations :=
  { all with clients := Function.update all.clients stream client }

/-- `client.RouteChat` and the start of the reader. -/
def openCall (all : Conversations) (stream : StreamId) (requests : List NoteArguments) :
    Option (Conversations × List ConversationObservation) :=
  match (all.clients stream).phase with
  | .idle =>
    some (all.setClient stream ⟨.sending, requests.map newNote, .reading⟩,
      [.opened stream (requests.map newNote)])
  | _ => none

/-- The next note is logged with its location, and written. -/
def write (window : Nat) (all : Conversations) (stream : StreamId) :
    Option (Conversations × List ConversationObservation) :=
  let client := all.clients stream
  match client.phase, client.requests with
  | .sending, note :: rest =>
    -- `Log` reads `request.Location.Latitude` before anything is written.
    match note.location with
    | none => some (all.setClient stream { client with phase := .raised }, [.raised stream])
    | some _ =>
      if (all.requestStream stream).length < window then
        some ({ all.setClient stream { client with requests := rest } with
            requestStream := Function.update all.requestStream stream
              (all.requestStream stream ++ [note]) }, [])
      -- `WriteAsync` has not returned while the stream is full.
      else none
  | _, _ => none

def complete (all : Conversations) (stream : StreamId) :
    Option (Conversations × List ConversationObservation) :=
  let client := all.clients stream
  match client.phase, client.requests with
  | .sending, [] => some (all.setClient stream { client with phase := .completed }, [])
  | _, _ => none

/-- A step of a handler. The notes it replies with are put on its response stream. -/
def handlerStep (all : Conversations) (action : ChatAction) :
    Option (Conversations × List ConversationObservation) :=
  match all.chat.step action with
  | none => none
  | some (chat, out) =>
    some ({ all with
        chat := chat
        responseStream := fun stream =>
          all.responseStream stream ++ (out.filterMap (·.writtenOn stream)).map (·.note) },
      out.map .chat)

def moveNext (all : Conversations) (stream : StreamId) :
    Option (Conversations × List ConversationObservation) :=
  match all.requestStream stream with
  | [] => none
  | note :: rest =>
    match all.handlerStep (.moveNext stream note) with
    | none => none
    | some (after, out) =>
      some ({ after with requestStream := Function.update after.requestStream stream rest }, out)

def reply (window : Nat) (all : Conversations) (stream : StreamId) :
    Option (Conversations × List ConversationObservation) :=
  if (all.responseStream stream).length < window then all.handlerStep (.write stream true)
  else none

/-- `MoveNext` of the handler has the end of a stream that the client completed. -/
def endRequests (all : Conversations) (stream : StreamId) :
    Option (Conversations × List ConversationObservation) :=
  match all.requestStream stream, (all.clients stream).phase with
  | [], .completed | [], .finished => all.handlerStep (.finish stream)
  | _, _ => none

/-- The reader logs the next note with its location. -/
def read (all : Conversations) (stream : StreamId) :
    Option (Conversations × List ConversationObservation) :=
  let client := all.clients stream
  match client.phase, client.reader, all.responseStream stream with
  | .idle, _, _ => none
  | _, .reading, note :: rest =>
    -- Here it is the reader's task that fails, which the client sees at its `await`.
    match note.location with
    | none => some (all.setClient stream { client with reader := .raised }, [.raised stream])
    | some _ =>
      some ({ all with responseStream := Function.update all.responseStream stream rest },
        [.got stream note])
  | _, _, _ => none

/-- The reader has the end of the stream: the handler has returned, or it raised. -/
def endResponses (all : Conversations) (stream : StreamId) :
    Option (Conversations × List ConversationObservation) :=
  let client := all.clients stream
  match client.reader, all.responseStream stream, all.chat.streams stream with
  | .reading, [], .ended => some (all.setClient stream { client with reader := .ended }, [])
  -- A handler that raised ends the call for its client with an `RpcException`.
  | .reading, [], .faulted _ | .reading, [], .failed _ _ =>
    some (all.setClient stream { client with reader := .raised }, [.raised stream])
  | _, _, _ => none

/-- The client waits for its reader, and raises what the reader has raised. -/
def awaitReader (all : Conversations) (stream : StreamId) :
    Option (Conversations × List ConversationObservation) :=
  let client := all.clients stream
  match client.phase, client.reader with
  | .completed, .ended =>
    some (all.setClient stream { client with phase := .finished }, [.finished stream])
  | .completed, .raised =>
    some (all.setClient stream { client with phase := .raised }, [.raised stream])
  | _, _ => none

def step (window : Nat) (all : Conversations) :
    ConversationAction → Option (Conversations × List ConversationObservation)
  | .openCall stream requests => all.openCall stream requests
  | .write stream => all.write window stream
  | .complete stream => all.complete stream
  | .moveNext stream => all.moveNext stream
  | .addNote stream => all.handlerStep (.addNote stream)
  | .reply stream => all.reply window stream
  | .endRequests stream => all.endRequests stream
  | .read stream => all.read stream
  | .endResponses stream => all.endResponses stream
  | .awaitReader stream => all.awaitReader stream

end Conversations

/-- Both streams of every call take up to `window` notes. -/
def conversationMachine (window : Nat) :
    Machine Conversations ConversationAction ConversationObservation :=
  ⟨.initial, Conversations.step window⟩

namespace ConversationObservation

def chatPart : ConversationObservation → Option ChatObservation
  | .chat observation => some observation
  | _ => none

def offeredOn (stream : StreamId) : ConversationObservation → Option (List RouteNote)
  | .opened other requests => if other = stream then some requests else none
  | _ => none

def gotOn (stream : StreamId) : ConversationObservation → Option RouteNote
  | .got other note => if other = stream then some note else none
  | _ => none

end ConversationObservation

open ConversationObservation

theorem chatPart_chat (shown : List ChatObservation) :
    (shown.map ConversationObservation.chat).filterMap chatPart = shown := by
  apply filterMap_map_some
  intro observation
  rfl

/-! ### What each action does to its call -/

/-- One call: the client, the handler and the two streams between them. -/
structure Conversation where
  client : ChatClient
  handler : ChatPhase
  requests : List RouteNote
  responses : List RouteNote

def Conversations.call (all : Conversations) (stream : StreamId) : Conversation :=
  ⟨all.clients stream, all.chat.streams stream, all.requestStream stream,
    all.responseStream stream⟩

/-- A step of one call, whether a thread takes it by itself, and what is observed of it. -/
inductive Converses (window : Nat) (stream : StreamId) :
    Bool → Conversation → Conversation → List ConversationObservation → Prop where
  | openCall {call : Conversation} (requests : List RouteNote) (idle : call.client.phase = .idle)
      (located : ∀ note ∈ requests, note.location ≠ none) :
      Converses window stream false call { call with client := ⟨.sending, requests, .reading⟩ }
        [.opened stream requests]
  | write {call : Conversation} {note : RouteNote} {rest : List RouteNote}
      (sending : call.client.phase = .sending) (unsent : call.client.requests = note :: rest)
      (located : note.location ≠ none) (room : call.requests.length < window) :
      Converses window stream true call
        { call with
          client := { call.client with requests := rest }
          requests := call.requests ++ [note] } []
  | writeRaised {call : Conversation} {note : RouteNote} {rest : List RouteNote}
      (sending : call.client.phase = .sending) (unsent : call.client.requests = note :: rest)
      (unlocated : note.location = none) :
      Converses window stream true call
        { call with client := { call.client with phase := .raised } } [.raised stream]
  | complete {call : Conversation} (sending : call.client.phase = .sending)
      (unsent : call.client.requests = []) :
      Converses window stream true call
        { call with client := { call.client with phase := .completed } } []
  | moveNext {call : Conversation} {note : RouteNote} {rest : List RouteNote} (number : Nat)
      (waits : call.handler.atMoveNext = true) (waiting : call.requests = note :: rest) :
      Converses window stream true call
        { call with handler := .addNote ⟨stream, number, note⟩, requests := rest }
        [.chat (.received ⟨stream, number, note⟩)]
  | addNote {call : Conversation} {note : ReceivedNote} (prevNotes : List ReceivedNote)
      (held : call.handler = .addNote note) :
      Converses window stream true call { call with handler := .writing note prevNotes }
        [.chat (.added note)]
  | addRaised {call : Conversation} {note : ReceivedNote} (held : call.handler = .addNote note)
      (unlocated : note.note.location = none) :
      Converses window stream true call { call with handler := .faulted note } [.chat (.raised note)]
  | reply {call : Conversation} {note prevNote : ReceivedNote} {rest : List ReceivedNote}
      (own : note.stream = stream) (held : call.handler = .writing note (prevNote :: rest))
      (room : call.responses.length < window) :
      Converses window stream true call
        { call with
          handler := .writing note rest
          responses := call.responses ++ [prevNote.note] }
        [.chat (.replied note prevNote)]
  | endRequests {call : Conversation} (waits : call.handler.atMoveNext = true)
      (drained : call.requests = [])
      (closed : call.client.phase = .completed ∨ call.client.phase = .finished) :
      Converses window stream true call { call with handler := .ended } [.chat (.ended stream)]
  | read {call : Conversation} {note : RouteNote} {rest : List RouteNote}
      (opened : call.client.phase ≠ .idle) (reading : call.client.reader = .reading)
      (waiting : call.responses = note :: rest) (located : note.location ≠ none) :
      Converses window stream true call { call with responses := rest } [.got stream note]
  | readRaised {call : Conversation} {note : RouteNote} {rest : List RouteNote}
      (reading : call.client.reader = .reading) (waiting : call.responses = note :: rest)
      (unlocated : note.location = none) :
      Converses window stream true call
        { call with client := { call.client with reader := .raised } } [.raised stream]
  | endResponses {call : Conversation} (reading : call.client.reader = .reading)
      (drained : call.responses = []) (returned : call.handler = .ended) :
      Converses window stream true call
        { call with client := { call.client with reader := .ended } } []
  | handlerRaised {call : Conversation} (note : ReceivedNote)
      (reading : call.client.reader = .reading)
      (stopped : call.handler = .faulted note ∨ ∃ rest, call.handler = .failed note rest) :
      Converses window stream true call
        { call with client := { call.client with reader := .raised } } [.raised stream]
  | awaitReader {call : Conversation} (completed : call.client.phase = .completed)
      (ended : call.client.reader = .ended) :
      Converses window stream true call
        { call with client := { call.client with phase := .finished } } [.finished stream]
  | readerRaised {call : Conversation} (completed : call.client.phase = .completed)
      (raised : call.client.reader = .raised) :
      Converses window stream true call
        { call with client := { call.client with phase := .raised } } [.raised stream]

namespace Conversations

theorem call_setClient (all : Conversations) (stream other : StreamId) (client : ChatClient) :
    (all.setClient stream client).call other =
      if other = stream then { all.call other with client } else all.call other := by
  by_cases here : other = stream
  · subst here
    simp [call, setClient]
  · simp [call, setClient, here]

/-- The step is one of this call, and no other call takes part. -/
structure Moves (window : Nat) (own : Bool) (all after : Conversations) (stream : StreamId)
    (out : List ConversationObservation) : Prop where
  moved : Converses window stream own (all.call stream) (after.call stream) out
  others : ∀ other, other ≠ stream → after.call other = all.call other
  chat : after.chat = all.chat ∧ out.filterMap chatPart = [] ∨
    ∃ action, all.chat.step action = some (after.chat, out.filterMap chatPart)

theorem moves_setClient {window : Nat} {own : Bool} {all : Conversations} {stream : StreamId}
    {client : ChatClient} {out : List ConversationObservation}
    (moved : Converses window stream own (all.call stream) { all.call stream with client } out)
    (silent : out.filterMap chatPart = []) :
    Moves window own all (all.setClient stream client) stream out where
  moved := by rwa [call_setClient, if_pos rfl]
  others other different := by rw [call_setClient, if_neg different]
  chat := .inl ⟨rfl, silent⟩

theorem handlerStep_some {all after : Conversations} {action : ChatAction}
    {out : List ConversationObservation} (stepped : all.handlerStep action = some (after, out)) :
    ∃ shown, all.chat.step action = some (after.chat, shown) ∧ out = shown.map .chat ∧
      after.requestStream = all.requestStream ∧ ∀ stream, after.call stream =
        { all.call stream with
          handler := after.chat.streams stream
          responses := all.responseStream stream ++
            (shown.filterMap (·.writtenOn stream)).map (·.note) } := by
  unfold handlerStep at stepped
  split at stepped <;> cases stepped
  rename_i chat shown moved
  exact ⟨shown, moved, rfl, rfl, fun _ => rfl⟩

theorem Moves.of_eq {window : Nat} {own : Bool} {all after : Conversations} {stream : StreamId}
    {call : Conversation} {out : List ConversationObservation}
    (moved : Converses window stream own (all.call stream) call out) (same : after.call stream = call)
    (others : ∀ other, other ≠ stream → after.call other = all.call other)
    (chat : after.chat = all.chat ∧ out.filterMap chatPart = [] ∨
      ∃ action, all.chat.step action = some (after.chat, out.filterMap chatPart)) :
    Moves window own all after stream out :=
  ⟨same ▸ moved, others, chat⟩

section
variable {window : Nat} {all after : Conversations} {stream : StreamId}
  {out : List ConversationObservation}

theorem openCall_moves {requests : List NoteArguments}
    (stepped : all.openCall stream requests = some (after, out)) :
    Moves window false all after stream out := by
  unfold openCall at stepped
  split at stepped <;> cases stepped
  rename_i idle
  refine moves_setClient (.openCall _ idle ?_) rfl
  intro note member
  obtain ⟨arguments, _, rfl⟩ := List.mem_map.mp member
  simp [newNote]

theorem write_moves (stepped : all.write window stream = some (after, out)) :
    Moves window true all after stream out := by
  unfold write at stepped
  dsimp only at stepped
  split at stepped
  · rename_i note rest sending unsent
    split at stepped
    · rename_i unlocated
      cases stepped
      exact moves_setClient (.writeRaised sending unsent unlocated) rfl
    · rename_i location located
      split at stepped <;> cases stepped
      rename_i room
      have placed : note.location ≠ none := by simp [located]
      apply Moves.of_eq (.write sending unsent placed room)
      · simp [call, setClient]
      · intro other different
        simp [call, setClient, different]
      · exact .inl ⟨rfl, rfl⟩
  · cases stepped

theorem complete_moves (stepped : all.complete stream = some (after, out)) :
    Moves window true all after stream out := by
  unfold complete at stepped
  dsimp only at stepped
  split at stepped <;> cases stepped
  rename_i sending unsent
  exact moves_setClient (.complete sending unsent) rfl

theorem awaitReader_moves (stepped : all.awaitReader stream = some (after, out)) :
    Moves window true all after stream out := by
  unfold awaitReader at stepped
  dsimp only at stepped
  split at stepped <;> cases stepped
  · rename_i completed ended
    exact moves_setClient (.awaitReader completed ended) rfl
  · rename_i completed raised
    exact moves_setClient (.readerRaised completed raised) rfl

theorem endResponses_moves (stepped : all.endResponses stream = some (after, out)) :
    Moves window true all after stream out := by
  unfold endResponses at stepped
  dsimp only at stepped
  split at stepped <;> cases stepped
  · rename_i reading drained returned
    exact moves_setClient (.endResponses reading drained returned) rfl
  · rename_i note reading _ stopped
    exact moves_setClient (.handlerRaised note reading (.inl stopped)) rfl
  · rename_i note rest reading _ stopped
    exact moves_setClient (.handlerRaised note reading (.inr ⟨rest, stopped⟩)) rfl

theorem read_moves (stepped : all.read stream = some (after, out)) :
    Moves window true all after stream out := by
  unfold read at stepped
  dsimp only at stepped
  split at stepped
  · cases stepped
  · rename_i note rest reading waiting opened
    split at stepped <;> cases stepped
    · rename_i unlocated
      exact moves_setClient (.readRaised reading waiting unlocated) rfl
    · rename_i location located
      have placed : note.location ≠ none := by simp [located]
      apply Moves.of_eq (.read opened reading waiting placed)
      · simp [call]
      · intro other different
        simp [call, different]
      · exact .inl ⟨rfl, rfl⟩
  · cases stepped

theorem handler_moves {action : ChatAction} {shown : List ChatObservation} {phase : ChatPhase}
    (stepped : all.handlerStep action = some (after, shown.map .chat))
    (streams : after.chat.streams = Function.update all.chat.streams stream phase)
    (silent : ∀ other, other ≠ stream → shown.filterMap (·.writtenOn other) = [])
    (move : Converses window stream true (all.call stream)
      { all.call stream with
        handler := phase
        responses := (all.call stream).responses ++
          (shown.filterMap (·.writtenOn stream)).map (·.note) } (shown.map .chat)) :
    Moves window true all after stream (shown.map .chat) := by
  obtain ⟨told, moved, same, requests, calls⟩ := handlerStep_some stepped
  have listed : shown = told := List.map_injective_iff.mpr (fun _ _ => by simp) same
  subst listed
  apply Moves.of_eq move
  · rw [calls, streams, Function.update_self]
    rfl
  · intro other different
    rw [calls, streams, Function.update_of_ne different, silent other different]
    simp [call]
  · exact .inr ⟨action, by rwa [chatPart_chat]⟩

theorem addNote_moves (stepped : all.handlerStep (.addNote stream) = some (after, out)) :
    Moves window true all after stream out := by
  obtain ⟨shown, moved, rfl, requests, calls⟩ := handlerStep_some stepped
  obtain ⟨note, held, rest⟩ := RouteChat.addNote_some moved
  rcases rest with ⟨unlocated, same, rfl⟩ | ⟨location, routeNotes, _, _, same, rfl⟩
  · have streams := congrArg RouteChat.streams same
    apply handler_moves stepped streams
    · simp [ChatObservation.writtenOn]
    · simpa [ChatObservation.writtenOn] using Converses.addRaised held unlocated
  · have streams := congrArg RouteChat.streams same
    apply handler_moves stepped streams
    · simp [ChatObservation.writtenOn]
    · simpa [ChatObservation.writtenOn] using Converses.addNote _ held

theorem reply_moves
    (numbered : ∀ note prevNotes, all.chat.streams stream = .writing note prevNotes →
      note.stream = stream)
    (stepped : all.reply window stream = some (after, out)) :
    Moves window true all after stream out := by
  unfold reply at stepped
  split at stepped
  · rename_i room
    obtain ⟨shown, moved, rfl, requests, calls⟩ := handlerStep_some stepped
    have succeeds : all.chat.write stream true = some (after.chat, shown) := moved
    unfold RouteChat.write at succeeds
    split at succeeds
    · rename_i note prevNote rest held
      simp only [if_true, Option.some.injEq, Prod.mk.injEq] at succeeds
      obtain ⟨same, rfl⟩ := succeeds
      have own := numbered note _ held
      have streams := congrArg RouteChat.streams same
      apply handler_moves stepped streams.symm
      · intro other different
        have elsewhere : note.stream ≠ other := fun here => different (here ▸ own)
        simp [ChatObservation.writtenOn, elsewhere]
      · simpa [ChatObservation.writtenOn, own] using Converses.reply own held room
    · cases succeeds
  · cases stepped

theorem endRequests_moves (stepped : all.endRequests stream = some (after, out)) :
    Moves window true all after stream out := by
  have finishing (drained : all.requestStream stream = [])
      (closed : (all.clients stream).phase = .completed ∨ (all.clients stream).phase = .finished)
      (finished : all.handlerStep (.finish stream) = some (after, out)) :
      Moves window true all after stream out := by
    obtain ⟨shown, moved, rfl, _, _⟩ := handlerStep_some finished
    obtain ⟨waits, same, rfl⟩ := RouteChat.finish_some moved
    have streams := congrArg RouteChat.streams same
    apply handler_moves finished streams
    · simp [ChatObservation.writtenOn]
    · simpa [ChatObservation.writtenOn] using Converses.endRequests waits drained closed
  unfold endRequests at stepped
  split at stepped
  · rename_i drained completed
    exact finishing drained (.inl completed) stepped
  · rename_i drained finished
    exact finishing drained (.inr finished) stepped
  · cases stepped

theorem moveNext_moves (stepped : all.moveNext stream = some (after, out)) :
    Moves window true all after stream out := by
  unfold moveNext at stepped
  split at stepped
  · cases stepped
  · rename_i note rest waiting
    split at stepped <;> cases stepped
    rename_i between inner
    obtain ⟨shown, moved, rfl, requests, calls⟩ := handlerStep_some inner
    obtain ⟨waits, same, rfl⟩ := RouteChat.moveNext_some moved
    have streams := congrArg RouteChat.streams same
    have updated (other : StreamId) :
        Conversations.call { between with
          requestStream := Function.update between.requestStream stream rest } other =
        { all.call other with
          handler := if other = stream then .addNote ⟨stream, all.chat.received stream, note⟩
            else all.chat.streams other
          requests := if other = stream then rest else all.requestStream other } := by
      have whole := calls other
      simp only [call, Conversation.mk.injEq] at whole ⊢
      -- The step of the handler itself leaves the request stream alone and writes nothing.
      refine ⟨whole.1, ?_, ?_, whole.2.2.2.trans (List.append_nil _)⟩
      · rw [streams]
        exact Function.update_apply ..
      · rw [requests]
        exact Function.update_apply ..
    apply Moves.of_eq (.moveNext (all.chat.received stream) waits waiting)
    · rw [updated, if_pos rfl, if_pos rfl]
    · intro other different
      rw [updated, if_neg different, if_neg different]
      rfl
    · exact .inr ⟨_, moved⟩

theorem moves_of_step
    (numbered : ∀ stream note prevNotes, all.chat.streams stream = .writing note prevNotes →
      note.stream = stream) {action : ConversationAction}
    (stepped : all.step window action = some (after, out)) :
    ∃ stream, Moves window action.own all after stream out := by
  cases action with
  | openCall stream requests => exact ⟨stream, openCall_moves stepped⟩
  | write stream => exact ⟨stream, write_moves stepped⟩
  | complete stream => exact ⟨stream, complete_moves stepped⟩
  | moveNext stream => exact ⟨stream, moveNext_moves stepped⟩
  | addNote stream => exact ⟨stream, addNote_moves stepped⟩
  | reply stream => exact ⟨stream, reply_moves (numbered stream) stepped⟩
  | endRequests stream => exact ⟨stream, endRequests_moves stepped⟩
  | read stream => exact ⟨stream, read_moves stepped⟩
  | endResponses stream => exact ⟨stream, endResponses_moves stepped⟩
  | awaitReader stream => exact ⟨stream, awaitReader_moves stepped⟩

end

end Conversations

/-! ### The invariant of a call -/

structure Located (call : Conversation) : Prop where
  unsent : ∀ note ∈ call.client.requests, note.location ≠ none
  unread : ∀ note ∈ call.requests, note.location ≠ none
  held : ∀ note, call.handler = .addNote note → note.note.location ≠ none
  pending : ∀ note prevNotes, call.handler = .writing note prevNotes →
    ∀ prevNote ∈ prevNotes, prevNote.note.location ≠ none
  unseen : ∀ note ∈ call.responses, note.location ≠ none

/-- How far the client, its reader and the handler have got. -/
structure InStep (call : Conversation) : Prop where
  unopened : call.client.phase = .idle → call.client.requests = [] ∧ call.client.reader = .reading ∧
    call.handler = .moveNext ∧ call.requests = [] ∧ call.responses = []
  client : call.client.phase ≠ .raised
  reader : call.client.reader ≠ .raised
  faulted : ∀ note, call.handler ≠ .faulted note
  failed : ∀ note rest, call.handler ≠ .failed note rest
  sent : call.client.phase = .completed ∨ call.client.phase = .finished → call.client.requests = []
  served : call.handler = .ended → call.requests = [] ∧
    (call.client.phase = .completed ∨ call.client.phase = .finished)
  drained : call.client.reader = .ended → call.handler = .ended ∧ call.responses = []
  awaited : call.client.phase = .finished → call.client.reader = .ended

section
variable {window : Nat} {stream : StreamId} {own : Bool} {call after : Conversation}
  {out : List ConversationObservation}

theorem Located.step (located : Located call) (moved : Converses window stream own call after out)
    (pending : ∀ note prevNotes, after.handler = .writing note prevNotes →
      ∀ prevNote ∈ prevNotes, prevNote.note.location ≠ none) : Located after := by
  -- A note moves from one of these places to the next, so one hypothesis serves each case.
  obtain ⟨unsent, unread, held, earlier, unseen⟩ := located
  cases moved with
  | openCall requests idle placed => exact ⟨placed, unread, held, pending, unseen⟩
  | write sending more placed room =>
    rw [more] at unsent
    have appended := List.forall_mem_append.mpr ⟨unread, List.forall_mem_singleton.mpr placed⟩
    exact ⟨(List.forall_mem_cons.mp unsent).2, appended, held, pending, unseen⟩
  | moveNext number waits waiting =>
    rw [waiting] at unread
    obtain ⟨placed, others⟩ := List.forall_mem_cons.mp unread
    refine ⟨unsent, others, fun note now => ?_, pending, unseen⟩
    cases now
    exact placed
  | addNote prevNotes now =>
    exact ⟨unsent, unread, fun note => nofun, pending, unseen⟩
  | reply own now room =>
    obtain ⟨placed, _⟩ := List.forall_mem_cons.mp (earlier _ _ now)
    have appended := List.forall_mem_append.mpr ⟨unseen, List.forall_mem_singleton.mpr placed⟩
    exact ⟨unsent, unread, fun note => nofun, pending, appended⟩
  | read opened reading waiting placed =>
    rw [waiting] at unseen
    exact ⟨unsent, unread, held, pending, (List.forall_mem_cons.mp unseen).2⟩
  | endRequests waits empty closed => exact ⟨unsent, unread, fun note => nofun, pending, unseen⟩
  | addRaised now unlocated => exact ⟨unsent, unread, fun note => nofun, pending, unseen⟩
  | _ => exact ⟨unsent, unread, held, pending, unseen⟩

theorem InStep.step (inStep : InStep call) (located : Located call)
    (moved : Converses window stream own call after out) : InStep after := by
  obtain ⟨unopened, client, reader, faulted, failed, sent, served, drained, awaited⟩ := inStep
  have starts (idle : call.client.phase = .idle) : call.handler = .moveNext := (unopened idle).2.2.1
  have returned (ended : call.client.reader = .ended) : call.handler = .ended := (drained ended).1
  -- In each case the fields that the step does not touch stay as they were.
  cases moved with
  | openCall requests idle placed =>
    constructor
    case served =>
      intro ended
      rw [starts idle] at ended
      cases ended
    case unopened | client | reader | sent | drained | awaited => simp
    case faulted => exact faulted
    case failed => exact failed
  | write sending more placed room =>
    constructor
    case unopened | sent | awaited => simp [sending]
    -- The handler has not seen the end of a stream that is still written to.
    case served => exact fun ended => by simpa [sending] using (served ended).2
    all_goals assumption
  -- Every way to raise needs a note without a location, or a handler that raised.
  | writeRaised _ more unlocated =>
    exact absurd unlocated (located.unsent _ (more ▸ List.mem_cons_self))
  | complete sending more =>
    constructor
    case unopened | client | awaited => simp
    case sent => exact fun _ => more
    case served => exact fun ended => ⟨(served ended).1, .inl rfl⟩
    all_goals assumption
  | moveNext number waits waiting =>
    constructor
    case unopened =>
      intro idle
      obtain ⟨_, _, _, empty, _⟩ := unopened idle
      rw [waiting] at empty
      cases empty
    case drained =>
      intro ended
      rw [returned ended] at waits
      cases waits
    case faulted | failed | served => simp
    all_goals assumption
  | addNote prevNotes held =>
    constructor
    case unopened => exact fun idle => by simp [starts idle] at held
    case drained => exact fun ended => by simp [returned ended] at held
    case faulted | failed | served => simp
    all_goals assumption
  | addRaised held unlocated => exact absurd unlocated (located.held _ held)
  | reply own held room =>
    constructor
    case unopened => exact fun idle => by simp [starts idle] at held
    case drained => exact fun ended => by simp [returned ended] at held
    case faulted | failed | served => simp
    all_goals assumption
  | endRequests waits empty closed =>
    constructor
    case unopened =>
      intro idle
      rcases closed with completed | finished
      · cases completed.symm.trans idle
      · cases finished.symm.trans idle
    case served => exact fun _ => ⟨empty, closed⟩
    case drained =>
      intro ended
      rw [returned ended] at waits
      cases waits
    case faulted | failed => simp
    all_goals assumption
  | read opened reading waiting placed =>
    constructor
    case unopened => exact fun idle => absurd idle opened
    case drained => simp [reading]
    all_goals assumption
  | readRaised _ waiting unlocated =>
    exact absurd unlocated (located.unseen _ (waiting ▸ List.mem_cons_self))
  | endResponses reading empty ends =>
    constructor
    case unopened =>
      intro idle
      have waits := starts idle
      rw [ends] at waits
      cases waits
    case reader => simp
    case drained => exact fun _ => ⟨ends, empty⟩
    case awaited => exact fun _ => rfl
    all_goals assumption
  | handlerRaised note _ stopped =>
    rcases stopped with raised | ⟨rest, raised⟩
    · exact absurd raised (faulted note)
    · exact absurd raised (failed note rest)
  | awaitReader completed ended =>
    constructor
    case unopened | client => simp
    case sent => exact fun _ => sent (.inl completed)
    case served => exact fun ends => ⟨(served ends).1, .inr rfl⟩
    case awaited => exact fun _ => ended
    all_goals assumption
  | readerRaised _ raised => exact absurd raised reader

end

/-! ### Histories -/

def offered (stream : StreamId) (seen : List ConversationObservation) : List RouteNote :=
  (seen.filterMap (·.offeredOn stream)).flatten

def heard (stream : StreamId) (seen : List ConversationObservation) : List RouteNote :=
  ((seen.filterMap chatPart).filterMap (·.receivedOn stream)).map (·.note)

def answered (stream : StreamId) (seen : List ConversationObservation) : List RouteNote :=
  ((seen.filterMap chatPart).filterMap (·.writtenOn stream)).map (·.note)

section
variable (stream : StreamId) (seen out : List ConversationObservation)

theorem offered_append : offered stream (seen ++ out) = offered stream seen ++ offered stream out := by
  simp only [offered, List.filterMap_append, List.flatten_append]

theorem heard_append : heard stream (seen ++ out) = heard stream seen ++ heard stream out := by
  simp only [heard, List.filterMap_append, List.map_append]

theorem answered_append :
    answered stream (seen ++ out) = answered stream seen ++ answered stream out := by
  simp only [answered, List.filterMap_append, List.map_append]

end

section
variable {window : Nat} {stream : StreamId} {own : Bool} {call next : Conversation}
  {out : List ConversationObservation}

theorem Converses.elsewhere (moved : Converses window stream own call next out) {other : StreamId}
    (different : other ≠ stream) :
    out.filterMap (·.offeredOn other) = [] ∧ heard other out = [] ∧ answered other out = [] ∧
      out.filterMap (·.gotOn other) = [] := by
  have apart := Ne.symm different
  cases moved with
  | reply own now room =>
    subst own
    simp [heard, answered, offeredOn, gotOn, chatPart, ChatObservation.receivedOn,
      ChatObservation.writtenOn, apart]
  | _ =>
    simp [heard, answered, offeredOn, gotOn, chatPart, ChatObservation.receivedOn,
      ChatObservation.writtenOn, apart]

theorem Converses.requests (moved : Converses window stream own call next out)
    (inStep : InStep call) :
    heard stream out ++ next.requests ++ next.client.requests =
      call.requests ++ call.client.requests ++ offered stream out := by
  cases moved with
  | openCall requests idle located =>
    obtain ⟨unsent, _, _, unread, _⟩ := inStep.unopened idle
    simp [unsent, unread, heard, offered, offeredOn, chatPart]
  | _ => simp_all [heard, offered, offeredOn, chatPart, ChatObservation.receivedOn]

theorem Converses.responses (moved : Converses window stream own call next out) :
    out.filterMap (·.gotOn stream) ++ next.responses = call.responses ++ answered stream out := by
  cases moved with
  | reply own now room =>
    subst own
    simp [answered, gotOn, chatPart, ChatObservation.writtenOn]
  | _ => simp_all [answered, gotOn, chatPart, ChatObservation.writtenOn]

theorem Converses.opens (moved : Converses window stream own call next out) :
    out.filterMap (·.offeredOn stream) = [] ∧
        (next.client.phase = .idle ↔ call.client.phase = .idle) ∨
      call.client.phase = .idle ∧ next.client.phase ≠ .idle ∧
        ∃ requests, out.filterMap (·.offeredOn stream) = [requests] := by
  cases moved with
  | openCall requests idle located =>
    right
    exact ⟨idle, by simp, requests, by simp [offeredOn]⟩
  | _ =>
    left
    simp_all [offeredOn]

end

/-- The calls at the end of a run. -/
structure Conversed (seen : List ConversationObservation) (all : Conversations) : Prop where
  chat : ∃ schedule, chatMachine.Run schedule (seen.filterMap chatPart) all.chat
  located : ∀ stream, Located (all.call stream)
  inStep : ∀ stream, InStep (all.call stream)
  opens : ∀ stream, (all.clients stream).phase = .idle ∧ seen.filterMap (·.offeredOn stream) = [] ∨
    (all.clients stream).phase ≠ .idle ∧
      ∃ requests, seen.filterMap (·.offeredOn stream) = [requests]
  requests : ∀ stream, heard stream seen ++ all.requestStream stream ++
    (all.clients stream).requests = offered stream seen
  responses : ∀ stream, seen.filterMap (·.gotOn stream) ++ all.responseStream stream =
    answered stream seen

theorem Noted.writing {seen : List ChatObservation} {chat : RouteChat} (noted : Noted seen chat)
    {stream : StreamId} {note : ReceivedNote} {prevNotes : List ReceivedNote}
    (writing : chat.streams stream = .writing note prevNotes) :
    note.stream = stream ∧ .added note ∈ seen ∧ chat.pendingReply note = prevNotes := by
  obtain ⟨before, last⟩ := noted.last stream note (by rw [writing]; rfl)
  have member : note ∈ seen.filterMap (·.addedOn stream) := by
    rw [last]
    exact List.mem_append_right before List.mem_cons_self
  obtain ⟨added, own⟩ := mem_addedOn.mp member
  refine ⟨own, added, ?_⟩
  rw [RouteChat.pendingReply, own, writing]
  exact if_pos rfl

theorem Noted.pending_earlier {seen : List ChatObservation} {chat : RouteChat}
    (noted : Noted seen chat) {stream : StreamId} {note : ReceivedNote}
    {prevNotes : List ReceivedNote} (writing : chat.streams stream = .writing note prevNotes) :
    prevNotes.Sublist (seen.filterMap (·.addedNote)) := by
  obtain ⟨_, added, pending⟩ := noted.writing writing
  have among : prevNotes.Sublist (earlier seen note) := by
    rw [← noted.replies note added, pending]
    exact List.sublist_append_right _ _
  exact (among.trans (preceding_sublist _ _)).trans (addedAt_sublist _ seen)

theorem conversed_of_run {window : Nat} {actions : List ConversationAction}
    {seen : List ConversationObservation} {all : Conversations}
    (run : (conversationMachine window).Run actions seen all) : Conversed seen all := by
  induction run with
  | start =>
    constructor
    case chat => exact ⟨[], .start⟩
    case located => exact fun stream => ⟨nofun, nofun, nofun, nofun, nofun⟩
    case inStep =>
      intro stream
      constructor <;> simp [conversationMachine, Conversations.initial, Conversations.call,
        RouteChat.initial]
    case opens => exact fun stream => .inl ⟨rfl, rfl⟩
    case requests => exact fun stream => rfl
    case responses => exact fun stream => rfl
  | @next actions seen out all after action earlier stepped ih =>
    obtain ⟨schedule, chat⟩ := ih.chat
    have numbered (stream : StreamId) (note : ReceivedNote) (prevNotes : List ReceivedNote)
        (writing : all.chat.streams stream = .writing note prevNotes) : note.stream = stream :=
      ((noted_of_run chat).writing writing).1
    obtain ⟨stream, moves⟩ := Conversations.moves_of_step numbered stepped
    -- The handlers alone make a run of their own, and bring its invariant along.
    have extended : ∃ schedule, chatMachine.Run schedule ((seen ++ out).filterMap chatPart)
        after.chat := by
      rw [List.filterMap_append]
      rcases moves.chat with ⟨same, silent⟩ | ⟨part, moved⟩
      · exact ⟨schedule, by rwa [silent, List.append_nil, same]⟩
      · exact ⟨schedule ++ [part], chat.next moved⟩
    obtain ⟨longer, grown⟩ := extended
    have noted := noted_of_run grown
    constructor
    case chat => exact ⟨longer, grown⟩
    case located =>
      intro other
      by_cases here : other = stream
      · subst here
        refine (ih.located other).step moves.moved fun note prevNotes writing prevNote member => ?_
        -- What is written back was added before, and only notes with a location are.
        have listed := (noted.pending_earlier writing).subset member
        exact noted.located prevNote (mem_addedNote.mp listed)
      · rw [moves.others other here]
        exact ih.located other
    case inStep =>
      intro other
      by_cases here : other = stream
      · subst here
        exact (ih.inStep other).step (ih.located other) moves.moved
      · rw [moves.others other here]
        exact ih.inStep other
    case opens =>
      intro other
      rw [List.filterMap_append]
      by_cases here : other = stream
      · subst here
        have before := ih.opens other
        rcases moves.moved.opens with ⟨nothing, same⟩ |
          ⟨idle, opened, requests, offers⟩
        · rw [nothing, List.append_nil]
          rcases before with ⟨idle, none⟩ | ⟨opened, some⟩
          · exact .inl ⟨same.mpr idle, none⟩
          · exact .inr ⟨fun idle => opened (same.mp idle), some⟩
        · rcases before with ⟨_, none⟩ | ⟨already, _⟩
          · exact .inr ⟨opened, requests, by rw [none, offers, List.nil_append]⟩
          · exact absurd idle already
      · have kept := congrArg Conversation.client (moves.others other here)
        change after.clients other = all.clients other at kept
        rw [(moves.moved.elsewhere here).1, List.append_nil, kept]
        exact ih.opens other
    case requests =>
      intro other
      rw [offered_append, heard_append, ← ih.requests other]
      by_cases here : other = stream
      · subst here
        have same := moves.moved.requests (ih.inStep other)
        simp only [Conversations.call] at same
        simp only [List.append_assoc] at same ⊢
        rw [same]
      · have kept := moves.others other here
        simp only [Conversations.call, Conversation.mk.injEq] at kept
        obtain ⟨nothing, silent, _⟩ := moves.moved.elsewhere here
        rw [offered.eq_def other out, nothing, silent, kept.1, kept.2.2.1]
        simp
    case responses =>
      intro other
      rw [answered_append, ← ih.responses other, List.filterMap_append]
      by_cases here : other = stream
      · subst here
        have same := moves.moved.responses
        simp only [Conversations.call] at same
        simp only [List.append_assoc] at same ⊢
        rw [same]
      · have kept := moves.others other here
        simp only [Conversations.call, Conversation.mk.injEq] at kept
        obtain ⟨_, _, silent, unread⟩ := moves.moved.elsewhere here
        rw [silent, unread, kept.2.2.2]
        simp

end BenchmarkHost
