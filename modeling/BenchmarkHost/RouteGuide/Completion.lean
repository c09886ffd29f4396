import Mathlib.Algebra.Order.BigOperators.Group.Finset
import BenchmarkHost.RouteGuide.Conversations

/-! How conversations end.

The handler waits for the client to write, the client for room on its stream,
the handler for room on the other stream, and the reader alone waits for nothing
but replies. So the calls stop only when every client has returned, and then
each has got the notes left before its own.
-/

set_option autoImplicit false

namespace BenchmarkHost

open Library ConversationObservation

/-! ### What is left to do -/

def ClientPhase.supply : ClientPhase → Nat
  | .sending => 2
  | .completed => 1
  | .idle | .finished | .raised => 0

def ResponseReader.supply : ResponseReader → Nat
  | .reading => 1
  | .ended | .raised => 0

/-- A note still to be added may be answered with as many notes as there are. -/
def ChatPhase.supply (notes : Nat) : ChatPhase → Nat
  | .moveNext => 1
  | .addNote _ => 2 * notes + 2
  | .writing _ prevNotes => 2 * prevNotes.length + 1
  | .faulted _ | .failed _ _ | .ended => 0

def Conversation.supply (notes : Nat) (call : Conversation) : Nat :=
  call.client.requests.length * (2 * notes + 4) + call.requests.length * (2 * notes + 3) +
    call.handler.supply notes + call.responses.length + call.client.phase.supply +
    call.client.reader.supply

theorem supply_atMoveNext {notes : Nat} {phase : ChatPhase} (waits : phase.atMoveNext = true) :
    phase.supply notes = 1 := by
  unfold ChatPhase.atMoveNext at waits
  split at waits
  · rfl
  · rfl
  · cases waits

theorem Converses.spent {window notes : Nat} {stream : StreamId} {call next : Conversation}
    {out : List ConversationObservation} (moved : Converses window stream true call next out)
    (few : ∀ note prevNotes, next.handler = .writing note prevNotes → prevNotes.length ≤ notes) :
    next.supply notes < call.supply notes := by
  -- Each case moves a note one place on, where it is worth one step less.
  unfold Conversation.supply
  cases moved with
  | write sending unsent located room =>
    rw [unsent]
    simp only [List.length_append, List.length_cons, List.length_nil, Nat.add_mul]
    omega
  | writeRaised sending unsent unlocated =>
    simp only [sending, ClientPhase.supply]
    omega
  | complete sending unsent =>
    simp only [sending, ClientPhase.supply]
    omega
  | moveNext number waits waiting =>
    rw [waiting, supply_atMoveNext waits]
    simp only [List.length_cons, Nat.add_mul, ChatPhase.supply]
    omega
  | addNote prevNotes held =>
    -- The copy made under the lock is not longer than the notes there can be.
    have bounded := few _ _ rfl
    simp only [held, ChatPhase.supply]
    omega
  | addRaised held unlocated =>
    simp only [held, ChatPhase.supply]
    omega
  | reply own held room =>
    simp only [held, ChatPhase.supply, List.length_append, List.length_cons, List.length_nil]
    omega
  | endRequests waits drained closed =>
    rw [supply_atMoveNext waits]
    simp only [ChatPhase.supply]
    omega
  | read opened reading waiting located =>
    rw [waiting]
    simp only [List.length_cons]
    omega
  | readRaised reading waiting unlocated =>
    simp only [reading, ResponseReader.supply]
    omega
  | endResponses reading drained returned =>
    simp only [reading, ResponseReader.supply]
    omega
  | handlerRaised note reading stopped =>
    simp only [reading, ResponseReader.supply]
    omega
  | awaitReader completed ended =>
    simp only [completed, ClientPhase.supply]
    omega
  | readerRaised completed raised =>
    simp only [completed, ClientPhase.supply]
    omega

/-! ### The notes there are -/

theorem length_eq_sum_parts {Item Key : Type} [DecidableEq Key] {keys : Finset Key}
    {key : Item → Key} {items : List Item} (among : ∀ item ∈ items, key item ∈ keys) :
    items.length = ∑ part ∈ keys, (items.filter fun item => key item = part).length := by
  induction items with
  | nil => simp
  | cons item rest ih =>
    have counted (part : Key) : ((item :: rest).filter fun item => key item = part).length =
        (rest.filter fun item => key item = part).length + if key item = part then 1 else 0 := by
      by_cases same : key item = part <;> simp [same]
    have here := among item List.mem_cons_self
    simp only [counted, Finset.sum_add_distrib, Finset.sum_ite_eq, if_pos here,
      ← ih fun other member => among other (List.mem_cons_of_mem item member), List.length_cons]

theorem addedOn_eq_filter (stream : StreamId) (seen : List ChatObservation) :
    seen.filterMap (·.addedOn stream) =
      (seen.filterMap (·.addedNote)).filter fun note => note.stream = stream := by
  rw [List.filter_filterMap]
  apply List.filterMap_congr
  intro observation _
  cases observation with
  | added note => by_cases same : note.stream = stream <;> simp [ChatObservation.addedOn,
      ChatObservation.addedNote, Option.filter, same]
  | _ => rfl

def ConversationObservation.openedStream : ConversationObservation → Option StreamId
  | .opened stream _ => some stream
  | _ => none

def openedStreams (seen : List ConversationObservation) : Finset StreamId :=
  (seen.filterMap (·.openedStream)).toFinset

def offeredNotes (seen : List ConversationObservation) : Nat :=
  ∑ stream ∈ openedStreams seen, (offered stream seen).length

theorem mem_openedStreams {seen : List ConversationObservation} {stream : StreamId} :
    stream ∈ openedStreams seen ↔ seen.filterMap (·.offeredOn stream) ≠ [] := by
  rw [openedStreams, List.mem_toFinset, ne_eq, List.filterMap_eq_nil_iff]
  simp only [List.mem_filterMap, not_forall]
  constructor
  · rintro ⟨observation, member, shown⟩
    cases observation <;> cases shown
    exact ⟨_, member, by simp [offeredOn]⟩
  · rintro ⟨observation, member, shown⟩
    refine ⟨observation, member, ?_⟩
    cases observation <;> simp_all [offeredOn, openedStream]

section
variable {seen : List ConversationObservation} {all : Conversations}

theorem Conversed.added_sublist (conversed : Conversed seen all) (stream : StreamId) :
    (((seen.filterMap chatPart).filterMap (·.addedOn stream)).map (·.note)).Sublist
      (offered stream seen) := by
  obtain ⟨schedule, chat⟩ := conversed.chat
  have arrived := (noted_of_run chat).arrived stream
  rw [← conversed.requests stream, heard, arrived, List.map_append, List.append_assoc,
    List.append_assoc]
  exact List.sublist_append_left _ _

theorem Conversed.opened_of_added (conversed : Conversed seen all) {note : ReceivedNote}
    (added : .added note ∈ seen.filterMap chatPart) : note.stream ∈ openedStreams seen := by
  have given := (conversed.added_sublist note.stream).subset
    (List.mem_map_of_mem (mem_addedOn.mpr ⟨added, rfl⟩))
  apply mem_openedStreams.mpr
  intro none
  rw [offered, none] at given
  cases given

theorem Conversed.added_le (conversed : Conversed seen all) :
    ((seen.filterMap chatPart).filterMap (·.addedNote)).length ≤ offeredNotes seen := by
  rw [length_eq_sum_parts fun note member =>
    conversed.opened_of_added (mem_addedNote.mp member)]
  apply Finset.sum_le_sum
  intro stream _
  rw [← addedOn_eq_filter, ← List.length_map (·.note)]
  exact (conversed.added_sublist stream).length_le

end

/-! ### The conversations come to rest -/

def Conversations.supply (streams : Finset StreamId) (notes : Nat) (all : Conversations) : Nat :=
  ∑ stream ∈ streams, (all.call stream).supply notes

theorem Converses.started {window : Nat} {stream : StreamId} {call next : Conversation}
    {out : List ConversationObservation} (moved : Converses window stream true call next out)
    (inStep : InStep call) : call.client.phase ≠ .idle := by
  intro idle
  obtain ⟨_, _, waits, unread, unseen⟩ := inStep.unopened idle
  cases moved <;> simp_all

section
variable {window : Nat} {actions : List ConversationAction}
  {seen out : List ConversationObservation} {all after : Conversations}
  {action : ConversationAction}

theorem conversation_moves (run : (conversationMachine window).Run actions seen all)
    (stepped : (conversationMachine window).step all action = some (after, out)) :
    ∃ stream, Conversations.Moves window action.own all after stream out := by
  obtain ⟨schedule, chat⟩ := (conversed_of_run run).chat
  have noted := noted_of_run chat
  exact Conversations.moves_of_step (fun _ _ _ writing => (noted.writing writing).1) stepped

theorem offers_nothing (run : (conversationMachine window).Run actions seen all)
    (own : action.own = true)
    (stepped : (conversationMachine window).step all action = some (after, out))
    (other : StreamId) : out.filterMap (·.offeredOn other) = [] := by
  obtain ⟨stream, moves⟩ := conversation_moves run stepped
  rw [own] at moves
  by_cases here : other = stream
  · subst here
    rcases moves.moved.opens with ⟨nothing, _⟩ | ⟨idle, _⟩
    · exact nothing
    · exact absurd idle (moves.moved.started ((conversed_of_run run).inStep other))
  · exact (moves.moved.elsewhere here).1

theorem openedStreams_append (silent : ∀ stream, out.filterMap (·.offeredOn stream) = []) :
    openedStreams (seen ++ out) = openedStreams seen := by
  ext stream
  rw [mem_openedStreams, mem_openedStreams, List.filterMap_append, silent, List.append_nil]

theorem offeredNotes_append (silent : ∀ stream, out.filterMap (·.offeredOn stream) = []) :
    offeredNotes (seen ++ out) = offeredNotes seen := by
  rw [offeredNotes, openedStreams_append silent]
  apply Finset.sum_congr rfl
  intro stream _
  rw [offered, List.filterMap_append, silent, List.append_nil, offered]

theorem mem_openedStreams_of_run (run : (conversationMachine window).Run actions seen all)
    {stream : StreamId} : stream ∈ openedStreams seen ↔ (all.clients stream).phase ≠ .idle := by
  rw [mem_openedStreams]
  rcases (conversed_of_run run).opens stream with ⟨idle, none⟩ | ⟨opened, requests, offers⟩
  · simp [idle, none]
  · simp [opened, offers]

theorem supply_spent (run : (conversationMachine window).Run actions seen all)
    (own : action.own = true)
    (stepped : (conversationMachine window).step all action = some (after, out)) :
    after.supply (openedStreams seen) (offeredNotes seen) <
      all.supply (openedStreams seen) (offeredNotes seen) := by
  obtain ⟨stream, moves⟩ := conversation_moves run stepped
  rw [own] at moves
  have silent := offers_nothing run own stepped
  have conversed := conversed_of_run (run.next stepped)
  obtain ⟨schedule, chat⟩ := conversed.chat
  have few (note : ReceivedNote) (prevNotes : List ReceivedNote)
      (writing : (after.call stream).handler = .writing note prevNotes) :
      prevNotes.length ≤ offeredNotes seen := by
    have among := ((noted_of_run chat).pending_earlier writing).length_le
    have bounded := conversed.added_le
    rw [offeredNotes_append silent] at bounded
    exact among.trans bounded
  -- One call spends, and the others keep what they have.
  have spent := moves.moved.spent few
  have opened := moves.moved.started ((conversed_of_run run).inStep stream)
  have member : stream ∈ openedStreams seen := (mem_openedStreams_of_run run).mpr opened
  have others (other : StreamId) (different : other ≠ stream) :
      (after.call other).supply (offeredNotes seen) = (all.call other).supply (offeredNotes seen) := by
    rw [moves.others other different]
  have summed := @sum_spend _ _ (openedStreams seen) stream _ _ others 1 member spent
  exact summed

end

theorem spends_of_conversations {window : Nat} (actions : List ConversationAction)
    (seen : List ConversationObservation) :
    (conversationMachine window).Spends ConversationAction.own
      (fun all => ∃ more later, (∀ stream, later.filterMap (·.offeredOn stream) = []) ∧
        (conversationMachine window).Run (actions ++ more) (seen ++ later) all)
      (Conversations.supply (openedStreams seen) (offeredNotes seen)) := by
  constructor
  case kept =>
    rintro all action after out ⟨more, later, silent, run⟩ own stepped
    refine ⟨more ++ [action], later ++ out, ?_, ?_⟩
    · intro stream
      rw [List.filterMap_append, silent, offers_nothing run own stepped, List.append_nil]
    · rw [← List.append_assoc, ← List.append_assoc]
      exact run.next stepped
  case spent =>
    rintro all action after out ⟨more, later, silent, run⟩ own stepped
    have spent := supply_spent run own stepped
    rwa [openedStreams_append silent, offeredNotes_append silent] at spent

/-! ### At rest -/

section
variable {window : Nat} {all : Conversations} {stream : StreamId}

theorem handlerStep_enabled {part : ChatAction} (enabled : all.chat.step part ≠ none) :
    all.handlerStep part ≠ none := by
  unfold Conversations.handlerStep
  split
  · rename_i refused
    exact absurd refused enabled
  · simp

theorem moveNext_enabled (waits : (all.chat.streams stream).atMoveNext = true) {note : RouteNote}
    {rest : List RouteNote} (waiting : all.requestStream stream = note :: rest) :
    all.moveNext stream ≠ none := by
  have enabled : all.handlerStep (.moveNext stream note) ≠ none := by
    apply handlerStep_enabled
    simp [RouteChat.step, RouteChat.moveNext, waits]
  unfold Conversations.moveNext
  rw [waiting]
  dsimp only
  split
  · rename_i refused
    exact absurd refused enabled
  · simp

theorem addNote_enabled {note : ReceivedNote} (held : all.chat.streams stream = .addNote note) :
    all.handlerStep (.addNote stream) ≠ none := by
  apply handlerStep_enabled
  change all.chat.addNote stream ≠ none
  unfold RouteChat.addNote
  rw [held]
  dsimp only
  split <;> simp

theorem reply_enabled {note prevNote : ReceivedNote} {rest : List ReceivedNote}
    (held : all.chat.streams stream = .writing note (prevNote :: rest))
    (room : (all.responseStream stream).length < window) : all.reply window stream ≠ none := by
  unfold Conversations.reply
  rw [if_pos room]
  apply handlerStep_enabled
  simp [RouteChat.step, RouteChat.write, held]

theorem endRequests_enabled (waits : (all.chat.streams stream).atMoveNext = true)
    (drained : all.requestStream stream = [])
    (closed : (all.clients stream).phase = .completed ∨ (all.clients stream).phase = .finished) :
    all.endRequests stream ≠ none := by
  have enabled : all.handlerStep (.finish stream) ≠ none := by
    apply handlerStep_enabled
    simp [RouteChat.step, RouteChat.finish, waits]
  unfold Conversations.endRequests
  rw [drained]
  rcases closed with completed | finished
  · rwa [completed]
  · rwa [finished]

theorem read_enabled (opened : (all.clients stream).phase ≠ .idle)
    (reading : (all.clients stream).reader = .reading) (waiting : all.responseStream stream ≠ []) :
    all.read stream ≠ none := by
  obtain ⟨note, rest, first⟩ := List.exists_cons_of_ne_nil waiting
  unfold Conversations.read
  dsimp only
  rw [reading, first]
  cases phase : (all.clients stream).phase with
  | idle => exact absurd phase opened
  | _ => dsimp only; split <;> simp

theorem reading_of_running (inStep : InStep (all.call stream))
    (running : all.chat.streams stream ≠ .ended) : (all.clients stream).reader = .reading := by
  cases reader : (all.clients stream).reader with
  | reading => rfl
  | ended => exact absurd (inStep.drained reader).1 running
  | raised => exact absurd reader inStep.reader

/-- Where nothing moves, a handler waits for its client or has returned. -/
theorem handler_of_settled (room : 0 < window) (inStep : InStep (all.call stream))
    (opened : (all.clients stream).phase ≠ .idle)
    (settled : (conversationMachine window).Settled ConversationAction.own all) :
    (all.chat.streams stream).atMoveNext = true ∨ all.chat.streams stream = .ended := by
  cases phase : all.chat.streams stream with
  | moveNext => exact .inl rfl
  | addNote note => exact absurd (settled (.addNote stream) rfl) (addNote_enabled phase)
  | writing note prevNotes =>
    cases prevNotes with
    | nil => exact .inl rfl
    | cons prevNote rest =>
      have reading := reading_of_running inStep (by simp [phase])
      -- Either the reply has room, or the reader has something to read.
      by_cases empty : all.responseStream stream = []
      · have space : (all.responseStream stream).length < window := by simpa [empty] using room
        exact absurd (settled (.reply stream) rfl) (reply_enabled phase space)
      · exact absurd (settled (.read stream) rfl) (read_enabled opened reading empty)
  | faulted note => exact absurd phase (inStep.faulted note)
  | failed note rest => exact absurd phase (inStep.failed note rest)
  | ended => exact .inr rfl

theorem unread_of_settled (room : 0 < window) (inStep : InStep (all.call stream))
    (opened : (all.clients stream).phase ≠ .idle)
    (settled : (conversationMachine window).Settled ConversationAction.own all) :
    all.requestStream stream = [] := by
  rcases handler_of_settled room inStep opened settled with waits | ended
  · cases waiting : all.requestStream stream with
    | nil => rfl
    | cons note rest =>
      exact absurd (settled (.moveNext stream) rfl) (moveNext_enabled waits waiting)
  · exact (inStep.served ended).1

theorem closed_of_settled (room : 0 < window) (located : Located (all.call stream))
    (inStep : InStep (all.call stream)) (opened : (all.clients stream).phase ≠ .idle)
    (settled : (conversationMachine window).Settled ConversationAction.own all) :
    (all.clients stream).phase = .completed ∨ (all.clients stream).phase = .finished := by
  cases phase : (all.clients stream).phase with
  | idle => exact absurd phase opened
  | sending =>
    -- A handler that waits has read everything, so that the client's stream has room.
    have drained := unread_of_settled room inStep opened settled
    cases unsent : (all.clients stream).requests with
    | nil =>
      have refused : all.complete stream = none := settled (.complete stream) rfl
      simp [Conversations.complete, phase, unsent] at refused
    | cons note rest =>
      obtain ⟨location, placed⟩ := Option.ne_none_iff_exists'.mp
        (located.unsent note (by simp [Conversations.call, unsent]))
      have refused : all.write window stream = none := settled (.write stream) rfl
      simp [Conversations.write, phase, unsent, placed, drained, room] at refused
  | completed => exact .inl rfl
  | finished => exact .inr rfl
  | raised => exact absurd phase inStep.client

theorem returned_of_settled (room : 0 < window) (located : Located (all.call stream))
    (inStep : InStep (all.call stream)) (opened : (all.clients stream).phase ≠ .idle)
    (settled : (conversationMachine window).Settled ConversationAction.own all) :
    all.chat.streams stream = .ended := by
  rcases handler_of_settled room inStep opened settled with waits | ended
  · have drained := unread_of_settled room inStep opened settled
    have closed := closed_of_settled room located inStep opened settled
    exact absurd (settled (.endRequests stream) rfl) (endRequests_enabled waits drained closed)
  · exact ended

theorem finished_of_settled (room : 0 < window) (located : Located (all.call stream))
    (inStep : InStep (all.call stream)) (opened : (all.clients stream).phase ≠ .idle)
    (settled : (conversationMachine window).Settled ConversationAction.own all) :
    (all.clients stream).phase = .finished := by
  rcases closed_of_settled room located inStep opened settled with completed | finished
  · have returned := returned_of_settled room located inStep opened settled
    cases reader : (all.clients stream).reader with
    | reading =>
      by_cases empty : all.responseStream stream = []
      · have refused : all.endResponses stream = none := settled (.endResponses stream) rfl
        simp [Conversations.endResponses, reader, empty, returned] at refused
      · exact absurd (settled (.read stream) rfl) (read_enabled opened reader empty)
    | ended =>
      have refused : all.awaitReader stream = none := settled (.awaitReader stream) rfl
      simp [Conversations.awaitReader, completed, reader] at refused
    | raised => exact absurd reader inStep.reader
  · exact finished

end

/-- The client has returned, its notes were added in their order, and it has got
for each of them the notes that were there. -/
structure Served (seen : List ConversationObservation) (all : Conversations) (stream : StreamId)
    (requests : List RouteNote) : Prop where
  finished : (all.clients stream).phase = .finished
  added : ((seen.filterMap chatPart).filterMap (·.addedOn stream)).map (·.note) = requests
  got : seen.filterMap (·.gotOn stream) =
    (((seen.filterMap chatPart).filterMap (·.addedOn stream)).flatMap
      (earlier (seen.filterMap chatPart))).map (·.note)

section
variable {window : Nat} {actions : List ConversationAction}
  {seen : List ConversationObservation} {all : Conversations}

theorem pending_of_settled (room : 0 < window)
    (run : (conversationMachine window).Run actions seen all)
    (settled : (conversationMachine window).Settled ConversationAction.own all)
    {note : ReceivedNote} (added : .added note ∈ seen.filterMap chatPart) :
    all.chat.pendingReply note = [] := by
  have conversed := conversed_of_run run
  have opened := (mem_openedStreams_of_run run).mp (conversed.opened_of_added added)
  have returned := returned_of_settled room (conversed.located _) (conversed.inStep _) opened
    settled
  rw [RouteChat.pendingReply, returned]
  rfl

theorem got_of_settled (room : 0 < window)
    (run : (conversationMachine window).Run actions seen all)
    (settled : (conversationMachine window).Settled ConversationAction.own all)
    {stream : StreamId} (opened : (all.clients stream).phase ≠ .idle) :
    seen.filterMap (·.gotOn stream) = answered stream seen := by
  have conversed := conversed_of_run run
  have inStep := conversed.inStep stream
  have finished := finished_of_settled room (conversed.located stream) inStep opened settled
  have unseen : all.responseStream stream = [] := (inStep.drained (inStep.awaited finished)).2
  rw [← conversed.responses stream, unseen, List.append_nil]

theorem served_of_settled (room : 0 < window)
    (run : (conversationMachine window).Run actions seen all)
    (settled : (conversationMachine window).Settled ConversationAction.own all)
    {stream : StreamId} (opened : (all.clients stream).phase ≠ .idle) :
    Served seen all stream (offered stream seen) := by
  have conversed := conversed_of_run run
  obtain ⟨schedule, chat⟩ := conversed.chat
  have noted := noted_of_run chat
  have located := conversed.located stream
  have inStep := conversed.inStep stream
  have finished := finished_of_settled room located inStep opened settled
  have returned := returned_of_settled room located inStep opened settled
  constructor
  case finished => exact finished
  case added =>
    have unread : all.requestStream stream = [] := (inStep.served returned).1
    have unsent : (all.clients stream).requests = [] := inStep.sent (.inr finished)
    rw [← conversed.requests stream, unread, unsent, heard, noted.arrived, returned]
    simp [ChatPhase.unadded]
  case got =>
    rw [got_of_settled room run settled opened, answered, noted.inOrder]
    congr 1
    apply List.flatMap_congr
    intro note member
    obtain ⟨added, _⟩ := mem_addedOn.mp member
    exact noted.reply_whole added (pending_of_settled room run settled added)

end

/-- Left alone, the calls come to rest, whoever goes first and however small the
streams are, and then every client has been served. -/
theorem conversations_served {window : Nat} (room : 0 < window)
    {actions : List ConversationAction} {seen : List ConversationObservation}
    {all : Conversations} (run : (conversationMachine window).Run actions seen all)
    {schedule : List ConversationAction} {later : List ConversationObservation}
    {reached : Conversations} (owned : ∀ action ∈ schedule, action.own = true)
    (executed : (conversationMachine window).exec all schedule = some (reached, later)) :
    schedule.length ≤ all.supply (openedStreams seen) (offeredNotes seen) ∧
      ∃ more rest last, (∀ action ∈ more, action.own = true) ∧
        (conversationMachine window).exec reached more = some (rest, last) ∧
        (conversationMachine window).Settled ConversationAction.own rest ∧
        ∀ stream requests, .opened stream requests ∈ seen →
          Served (seen ++ later ++ last) rest stream requests := by
  have spends := @spends_of_conversations window actions seen
  have held : (conversationMachine window).Run (actions ++ []) (seen ++ []) all := by
    rwa [List.append_nil, List.append_nil]
  have spent := spends.length_le ⟨[], [], fun _ => rfl, held⟩ owned executed
  have still := spends.held_exec ⟨[], [], fun _ => rfl, held⟩ owned executed
  obtain ⟨more, rest, last, ownedToo, finished, settled⟩ := spends.settles still
  refine ⟨by omega, more, rest, last, ownedToo, finished, settled, ?_⟩
  intro stream requests given
  have whole := (run.extend executed).extend finished
  have member : requests ∈ (seen ++ later ++ last).filterMap (·.offeredOn stream) := by
    rw [List.filterMap_append, List.filterMap_append]
    apply List.mem_append_left
    apply List.mem_append_left
    exact List.mem_filterMap.mpr ⟨_, given, if_pos rfl⟩
  rcases (conversed_of_run whole).opens stream with ⟨_, none⟩ | ⟨opened, others, offers⟩
  · rw [none] at member
    cases member
  · have served := served_of_settled room whole settled opened
    rw [offers, List.mem_singleton] at member
    rw [offered, offers, ← member, List.flatten_singleton] at served
    exact served

def twoCalls : List ConversationAction :=
  [.openCall 0 [⟨"First message", 0, 0⟩, ⟨"Second message", 0, 1⟩], .write 0,
    .openCall 1 [⟨"Fourth message", 0, 0⟩]]

theorem conversations_served_two : ∃ all seen reached later,
    (conversationMachine 1).exec .initial twoCalls = some (all, seen) ∧
      (conversationMachine 1).exec all [.moveNext 0, .write 1, .moveNext 1, .addNote 1] =
        some (reached, later) ∧
      4 ≤ all.supply (openedStreams seen) (offeredNotes seen) ∧
      ∃ more rest last, (∀ action ∈ more, action.own = true) ∧
        (conversationMachine 1).exec reached more = some (rest, last) ∧
        (conversationMachine 1).Settled ConversationAction.own rest ∧
        ∀ stream requests, .opened stream requests ∈ seen →
          Served (seen ++ later ++ last) rest stream requests := by
  refine ⟨_, _, _, _, rfl, rfl, ?_⟩
  have run := @Machine.Run.of_exec _ _ _ (conversationMachine 1) twoCalls _ _ rfl
  exact @conversations_served 1 Nat.one_pos twoCalls _ _ run
    [.moveNext 0, .write 1, .moveNext 1, .addNote 1] _ _ (by decide) rfl

/-! ### The replies that all clients get -/

def countAt (point : Point) (notes : List RouteNote) : Nat :=
  notes.countP fun note => note.location = some point

theorem countAt_map (point : Point) (notes : List ReceivedNote) :
    countAt point (notes.map (·.note)) =
      (notes.filter fun note => note.note.location = some point).length := by
  rw [countAt, List.countP_map, List.countP_eq_length_filter]
  rfl

theorem filter_addedAt (stream : StreamId) (point : Point) (seen : List ChatObservation) :
    ((seen.filterMap (·.addedAt (some point))).filter fun note => note.stream = stream) =
      (seen.filterMap (·.addedOn stream)).filter fun note => note.note.location = some point := by
  rw [List.filter_filterMap, List.filter_filterMap]
  apply List.filterMap_congr
  intro observation _
  cases observation with
  | added note =>
    by_cases here : note.note.location = some point <;> by_cases own : note.stream = stream <;>
      simp [ChatObservation.addedAt, ChatObservation.addedOn, Option.filter, here, own]
  | _ => rfl

theorem length_replayedAt {seen : List ChatObservation}
    (same : ∀ note prevNote, .replied note prevNote ∈ seen →
      prevNote.note.location = note.note.location) (stream : StreamId) (point : Point) :
    ((seen.filterMap (·.replayedAt (some point))).filter fun note => note.stream = stream).length =
      countAt point ((seen.filterMap (·.writtenOn stream)).map (·.note)) := by
  rw [countAt_map, List.filter_filterMap, List.filter_filterMap,
    List.length_filterMap_eq_countP, List.length_filterMap_eq_countP]
  apply List.countP_congr
  intro observation member
  cases observation with
  | replied note prevNote =>
    have placed := same note prevNote member
    by_cases here : note.note.location = some point <;> by_cases own : note.stream = stream <;>
      simp [ChatObservation.replayedAt, ChatObservation.writtenOn, Option.filter, here, own, placed]
  | _ => simp [ChatObservation.replayedAt, ChatObservation.writtenOn]

theorem Noted.replied_location {seen : List ChatObservation} {chat : RouteChat}
    (noted : Noted seen chat) {note prevNote : ReceivedNote}
    (replied : .replied note prevNote ∈ seen) :
    .added note ∈ seen ∧ prevNote.note.location = note.note.location := by
  have answer : prevNote ∈ seen.filterMap (·.repliedTo note) :=
    List.mem_filterMap.mpr ⟨_, replied, if_pos rfl⟩
  constructor
  · by_contra unadded
    rw [noted.unasked note unadded] at answer
    cases answer
  · have among := ((noted.reply_sublist note).trans (preceding_sublist _ _)).subset answer
    exact (mem_addedAt.mp among).2

/-- However the clients take turns, together they get one reply for each pair of
notes left at a point. -/
theorem replies_counted {window : Nat} (room : 0 < window) {actions : List ConversationAction}
    {seen : List ConversationObservation} {all : Conversations}
    (run : (conversationMachine window).Run actions seen all)
    (settled : (conversationMachine window).Settled ConversationAction.own all) (point : Point) :
    ∑ stream ∈ openedStreams seen, countAt point (seen.filterMap (·.gotOn stream)) =
      (∑ stream ∈ openedStreams seen, countAt point (offered stream seen)) *
        (∑ stream ∈ openedStreams seen, countAt point (offered stream seen) - 1) / 2 := by
  have conversed := conversed_of_run run
  obtain ⟨schedule, chat⟩ := conversed.chat
  have noted := noted_of_run chat
  have notes : ∑ stream ∈ openedStreams seen, countAt point (offered stream seen) =
      ((seen.filterMap chatPart).filterMap (·.addedAt (some point))).length := by
    rw [length_eq_sum_parts fun note member =>
      conversed.opened_of_added (mem_addedAt.mp member).1]
    apply Finset.sum_congr rfl
    intro stream member
    have served := served_of_settled room run settled ((mem_openedStreams_of_run run).mp member)
    rw [filter_addedAt, ← countAt_map, served.added]
  have replies : ∑ stream ∈ openedStreams seen, countAt point (seen.filterMap (·.gotOn stream)) =
      ((seen.filterMap chatPart).filterMap (·.replayedAt (some point))).length := by
    have among : ∀ note ∈ (seen.filterMap chatPart).filterMap (·.replayedAt (some point)),
        note.stream ∈ openedStreams seen := by
      intro note member
      obtain ⟨observation, told, shown⟩ := List.mem_filterMap.mp member
      cases observation <;> simp only [ChatObservation.replayedAt, reduceCtorEq,
        Option.ite_none_right_eq_some, Option.some.injEq] at shown
      exact shown.2 ▸ conversed.opened_of_added (noted.replied_location told).1
    rw [length_eq_sum_parts among]
    apply Finset.sum_congr rfl
    intro stream member
    have placed (note prevNote : ReceivedNote)
        (told : .replied note prevNote ∈ seen.filterMap chatPart) :=
      (noted.replied_location told).2
    have got := got_of_settled room run settled ((mem_openedStreams_of_run run).mp member)
    rw [length_replayedAt placed, got, answered]
  rw [notes, replies]
  apply noted.replays
  intro note member
  exact pending_of_settled room run settled (mem_addedAt.mp member).1

def threeNotes : List ConversationAction :=
  [.openCall 0 [⟨"First message", 0, 0⟩, ⟨"Fourth message", 0, 0⟩],
    .openCall 1 [⟨"Third message", 0, 0⟩]]

theorem replies_counted_three : ∃ actions seen all,
    (conversationMachine 1).Run (threeNotes ++ actions) seen all ∧
      (conversationMachine 1).Settled ConversationAction.own all ∧
      ∑ stream ∈ openedStreams seen, countAt ⟨0, 0⟩ (seen.filterMap (·.gotOn stream)) = 3 := by
  have run := @Machine.Run.of_exec _ _ _ (conversationMachine 1) threeNotes _ _ rfl
  have spends := @spends_of_conversations 1 threeNotes
  have held := (spends _).settles ⟨[], [], fun _ => rfl, by simpa using run⟩
  obtain ⟨schedule, all, _, owned, executed, settled⟩ := held
  obtain ⟨more, later, silent, whole⟩ :=
    (spends _).held_exec ⟨[], [], fun _ => rfl, by simpa using run⟩ owned executed
  refine ⟨more, _, all, whole, settled, ?_⟩
  rw [replies_counted Nat.one_pos whole settled, openedStreams_append silent]
  simp only [offered, List.filterMap_append, silent, List.append_nil]
  decide

end BenchmarkHost
