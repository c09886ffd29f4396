import BenchmarkHost.Service.Race
import BenchmarkHost.Service.Refinement

/-! What one `EventStream` call publishes of what it receives.

A message whose read has won is published when the loop comes to it, under the
worker id of the first message of the call. All messages that have won are
published or, one at most, still in hand; a first message that names no worker
ends the call instead.
-/

set_option autoImplicit false

namespace BenchmarkHost

open Library

/-! ### The loop body -/

/-- The message whose read has won and that is not published yet. -/
def RequestLoop.inHand (loop : RequestLoop) : List StreamingMessage :=
  match loop.position with
  | .resume (.requestTask (.message message)) => [message]
  | .publish => loop.current.toList
  | _ => []

/-- The first message of the call, and the worker it names if it is a `StartStream`. -/
def Opens (past : List CallObservation) (startStream : Option StartStream) : Prop :=
  ∃ first, (received past).head? = some first ∧ first.startStream = startStream

theorem Opens.append {past : List CallObservation} {startStream : Option StartStream}
    (opens : Opens past startStream) (out : List CallObservation) :
    Opens (past ++ out) startStream := by
  obtain ⟨first, head, content⟩ := opens
  refine ⟨first, ?_, content⟩
  rw [received_append, List.head?_append, head]
  rfl

theorem Opens.unique {past : List CallObservation} {one other : Option StartStream}
    (opens : Opens past one) (again : Opens past other) : one = other := by
  obtain ⟨first, head, rfl⟩ := opens
  obtain ⟨second, same, rfl⟩ := again
  rw [head] at same
  cases same
  rfl

/-- Whose messages a call has published. -/
structure Identified (past : List CallObservation) (identity : EventStreamCall) : Prop where
  silent : identity = .notStarted ∨ identity = .awaitingFirst → published past = []
  greeted : ∀ workerId, identity = .serving workerId → Opens past (some ⟨workerId⟩)
  carried : ∀ event ∈ published past, Opens past (some ⟨event.workerId⟩)

theorem Identified.append {past out : List CallObservation} {identity : EventStreamCall}
    (identified : Identified past identity) (none : published out = []) :
    Identified (past ++ out) identity := by
  have same : published (past ++ out) = published past := by
    rw [published_append, none, List.append_nil]
  constructor
  case silent =>
    intro early
    rw [same]
    exact identified.silent early
  case greeted =>
    intro workerId serving
    exact (identified.greeted workerId serving).append out
  case carried =>
    intro event member
    rw [same] at member
    exact (identified.carried event member).append out

/-- What a call has published, against the messages that have won. -/
structure Publishing (past : List CallObservation) (identity : EventStreamCall)
    (loop : RequestLoop) : Prop where
  unused : identity = .notStarted → loop.position = .notStarted
  returned : identity = .ended → loop.position = .returned
  ready : loop.position = .publish → ∃ workerId, identity = .serving workerId
  identified : Identified past identity
  hand : loop.position ≠ .returned → won past = (published past).map (·.message) ++ loop.inHand
  left : loop.position = .returned →
    won past = (published past).map (·.message) ∨ published past = [] ∧ Opens past none

namespace Publishing
variable {past out : List CallObservation} {identity : EventStreamCall}
  {loop after : RequestLoop}

theorem initial : Publishing [] .notStarted .initial := by
  constructor
  case unused => exact fun _ => rfl
  case returned => exact fun ended => nomatch ended
  case ready => exact fun position => nomatch position
  case identified =>
    exact ⟨fun _ => rfl, fun _ serving => (by cases serving), fun _ member => (by cases member)⟩
  case hand => exact fun _ => rfl
  case left => exact fun position => nomatch position

theorem observe (publishing : Publishing past identity loop) (none : published out = [])
    (held : loop.position ≠ .returned → loop.inHand ++ won out = after.inHand)
    (outside : loop.position = .returned → won out = [])
    (inside : after.position = .returned ↔ loop.position = .returned)
    (unused : loop.position ≠ .notStarted)
    (ready : after.position = .publish → loop.position = .publish) :
    Publishing (past ++ out) identity after := by
  have same : published (past ++ out) = published past := by
    rw [published_append, none, List.append_nil]
  constructor
  case unused => exact fun fresh => absurd (publishing.unused fresh) unused
  case returned => exact fun ended => inside.mpr (publishing.returned ended)
  case ready => exact fun position => publishing.ready (ready position)
  case identified => exact publishing.identified.append none
  case hand =>
    intro position
    have before : loop.position ≠ .returned := fun left => position (inside.mpr left)
    rw [same, won_append, publishing.hand before, List.append_assoc, held before]
  case left =>
    intro position
    have before := inside.mp position
    rw [same, won_append, outside before, List.append_nil]
    exact (publishing.left before).imp id fun refused => ⟨refused.1, refused.2.append out⟩

theorem start (publishing : Publishing past .notStarted loop) :
    Publishing past .awaitingFirst loop.start := by
  have position := publishing.unused rfl
  constructor
  case unused => exact fun fresh => by cases fresh
  case returned => exact fun ended => by cases ended
  case ready => exact fun moved => by cases moved
  case identified =>
    exact ⟨fun _ => publishing.identified.silent (.inl rfl), fun _ serving => (by cases serving),
      publishing.identified.carried⟩
  case hand =>
    intro _
    have before := publishing.hand (by simp [position])
    rw [RequestLoop.inHand, position] at before
    exact before
  case left => exact fun left => by cases left

theorem cancel (publishing : Publishing past identity loop)
    (cancelled : loop.cancel = some (after, out)) : Publishing (past ++ out) identity after := by
  obtain ⟨_, started, rfl, rfl⟩ := RequestLoop.cancel_some cancelled
  by_cases waiting : loop.position = .waiting
  · rw [if_pos waiting]
    apply publishing.observe rfl
    case held =>
      intro _
      simp [RequestLoop.inHand, waiting, won, CallObservation.wonMessage]
    case outside => exact fun _ => rfl
    case inside => simp [waiting]
    case unused => exact started
    case ready => exact fun moved => by cases moved
  · rw [if_neg waiting]
    exact publishing.observe rfl (fun _ => List.append_nil _) (fun _ => rfl) .rfl started id

theorem moveNext (publishing : Publishing past identity loop)
    (moved : loop.moveNext = some (after, out)) : Publishing (past ++ out) identity after := by
  obtain ⟨position, rfl, rfl⟩ := RequestLoop.moveNext_some moved
  apply publishing.observe rfl
  case held =>
    intro _
    simp [RequestLoop.inHand, position, won]
  case outside => exact fun _ => rfl
  case inside => simp [position]
  case unused => simp [position]
  case ready => exact fun moved => by cases moved

theorem finishRead (publishing : Publishing past identity loop) (racing : Racing past loop)
    {outcome : ReadOutcome} (finished : loop.finishRead outcome = some (after, out)) :
    Publishing (past ++ out) identity after := by
  have consistent := racing.consistent
  obtain ⟨running, ⟨waiting, rfl, rfl⟩ | ⟨elsewhere, rfl, rfl⟩⟩ :=
    RequestLoop.finishRead_some finished
  · apply publishing.observe rfl
    case held =>
      intro _
      rw [RequestLoop.inHand, waiting]
      cases outcome <;> rfl
    case outside => exact fun left => by simp [waiting] at left
    case inside => simp [waiting]
    case unused => simp [waiting]
    case ready => exact fun moved => by cases moved
  · have started : loop.position ≠ .notStarted := by
      intro position
      simp only [RequestLoop.Consistent, position] at consistent
      rw [consistent] at running
      cases running
    have inside : loop.position ≠ .publish := by
      intro position
      simp only [RequestLoop.Consistent, position] at consistent
      obtain ⟨message, completed, _⟩ := consistent
      rw [completed] at running
      cases running
    apply publishing.observe rfl
    case held =>
      intro _
      have same : ∀ current, RequestLoop.inHand { loop with
          requestTask := .completed outcome, current := current } = loop.inHand := by
        intro current
        unfold RequestLoop.inHand
        cases position : loop.position with
        | publish => exact absurd position inside
        | resume completed => rcases completed with _ | _ | _ | _ <;> rfl
        | _ => rfl
      rw [same]
      exact List.append_nil _
    case outside => exact fun _ => rfl
    case inside => exact .rfl
    case unused => exact started
    case ready => exact id

theorem whenAny (publishing : Publishing past identity loop)
    (chosen : loop.whenAny = some (after, out)) : Publishing (past ++ out) identity after := by
  obtain ⟨position, cases⟩ := RequestLoop.whenAny_some chosen
  have none : loop.inHand = [] := by
    rw [RequestLoop.inHand, position]
  have inside : loop.position ≠ .returned := by simp [position]
  have started : loop.position ≠ .notStarted := by simp [position]
  rcases cases with ⟨_, rfl, rfl⟩ | ⟨outcome, _, _, rfl, rfl⟩ | ⟨_, _, rfl, rfl⟩
  · exact publishing.observe rfl (fun _ => by rw [none]; rfl) (fun left => absurd left inside)
      (by simp [position]) started (fun moved => by cases moved)
  · refine publishing.observe rfl (fun _ => ?_) (fun left => absurd left inside)
      (by simp [position]) started (fun moved => by cases moved)
    rw [none]
    cases outcome <;> rfl
  · exact publishing.observe rfl (fun _ => by rw [none]; rfl) (fun left => absurd left inside)
      (by simp [position]) started (fun moved => by cases moved)

theorem resumed (publishing : Publishing past identity loop) (racing : Racing past loop)
    {completed : Winner} (position : loop.position = .resume completed)
    (available : completed.result = .ok ()) :
    ∃ message, loop.current = some message ∧
      won past = (published past).map (·.message) ++ [message] := by
  obtain ⟨message, rfl⟩ := Winner.result_ok available
  have consistent := racing.consistent
  simp only [RequestLoop.Consistent, position] at consistent
  have hand := publishing.hand (by simp [position])
  rw [RequestLoop.inHand, position] at hand
  exact ⟨message, consistent.2 message rfl, hand⟩

theorem opens (publishing : Publishing past .awaitingFirst loop) (racing : Racing past loop)
    {completed : Winner} (position : loop.position = .resume completed)
    (available : completed.result = .ok ()) :
    Opens past (loop.current.bind (·.startStream)) := by
  obtain ⟨message, current, hand⟩ := publishing.resumed racing position available
  rw [publishing.identified.silent (.inr rfl)] at hand
  obtain ⟨rest, same⟩ := racing.won_received
  refine ⟨message, ?_, by rw [current]; rfl⟩
  rw [← same, hand]
  rfl

theorem greet (publishing : Publishing past .awaitingFirst loop) (racing : Racing past loop)
    {completed : Winner} {startStream : StartStream}
    (position : loop.position = .resume completed) (available : completed.result = .ok ())
    (found : loop.current.bind (·.startStream) = some startStream) :
    Publishing past (.serving startStream.workerId) loop.toPublish := by
  have opens := publishing.opens racing position available
  obtain ⟨message, current, hand⟩ := publishing.resumed racing position available
  rw [found] at opens
  constructor
  case unused => exact fun fresh => by cases fresh
  case returned => exact fun ended => by cases ended
  case ready => exact fun _ => ⟨_, rfl⟩
  case identified =>
    refine ⟨fun early => by simp at early, ?_, publishing.identified.carried⟩
    intro workerId serving
    cases serving
    exact opens
  case hand =>
    intro _
    rw [hand, RequestLoop.inHand, RequestLoop.toPublish, current]
    rfl
  case left => exact fun left => by cases left

theorem proceed (publishing : Publishing past identity loop) (racing : Racing past loop)
    {completed : Winner} {workerId : String} (position : loop.position = .resume completed)
    (available : completed.result = .ok ()) (serving : identity = .serving workerId) :
    Publishing past identity loop.toPublish := by
  obtain ⟨message, current, hand⟩ := publishing.resumed racing position available
  constructor
  case unused =>
    intro fresh
    rw [serving] at fresh
    cases fresh
  case returned =>
    intro ended
    rw [serving] at ended
    cases ended
  case ready => exact fun _ => ⟨workerId, serving⟩
  case identified => exact publishing.identified
  case hand =>
    intro _
    rw [hand, RequestLoop.inHand, RequestLoop.toPublish, current]
    rfl
  case left => exact fun left => by cases left

theorem leave (publishing : Publishing past identity loop)
    (left : won past = (published past).map (·.message) ∨ published past = [] ∧ Opens past none) :
    Publishing past .ended loop.leave := by
  constructor
  case unused => exact fun fresh => by cases fresh
  case returned => exact fun _ => rfl
  case ready => exact fun position => by cases position
  case identified =>
    exact ⟨fun early => (by simp at early), fun _ serving => (by cases serving),
      publishing.identified.carried⟩
  case hand => exact fun inside => absurd rfl inside
  case left => exact fun _ => left

theorem publish (publishing : Publishing past identity loop) {workerId : String}
    {message : StreamingMessage} (position : loop.position = .publish)
    (serving : identity = .serving workerId) (current : loop.current = some message) :
    Publishing (past ++ [.published ⟨workerId, message⟩]) identity loop.start := by
  have events : published (past ++ [.published ⟨workerId, message⟩]) =
      published past ++ [⟨workerId, message⟩] :=
    published_append _ _
  have opens := publishing.identified.greeted workerId serving
  constructor
  case unused => exact fun fresh => by simp [serving] at fresh
  case returned => exact fun ended => by simp [serving] at ended
  case ready => exact fun moved => by cases moved
  case identified =>
    constructor
    case silent => exact fun early => by simp [serving] at early
    case greeted =>
      intro other same
      exact (publishing.identified.greeted other same).append _
    case carried =>
      intro event member
      rw [events] at member
      rcases List.mem_append.mp member with before | now
      · exact (publishing.identified.carried event before).append _
      · rw [List.mem_singleton.mp now]
        exact opens.append _
  case hand =>
    intro _
    have hand := publishing.hand (by simp [position])
    rw [RequestLoop.inHand, position, current] at hand
    rw [won_append, events, List.map_append, hand]
    rfl
  case left => exact fun left => by cases left

theorem step {moved : EventStreamCall} (publishing : Publishing past identity loop)
    (racing : Racing past loop) (moves : CallMoves identity loop moved after out) :
    Publishing (past ++ out) moved after := by
  cases moves with
  | rests => simpa using publishing
  | starts fresh =>
    subst fresh
    simpa using publishing.start
  | cancels cancelled => exact publishing.cancel cancelled
  | moves moved => exact publishing.moveNext moved
  | reads outcome finished => exact publishing.finishRead racing finished
  | chooses chosen => exact publishing.whenAny chosen
  | greets position available waiting found =>
    subst waiting
    simpa using publishing.greet racing position available found
  | continues position available serving =>
    simpa using publishing.proceed racing position available serving
  | refuses position available waiting null =>
    subst waiting
    have opens := publishing.opens racing position available
    rw [null] at opens
    simpa using publishing.leave (.inr ⟨publishing.identified.silent (.inr rfl), opens⟩)
  | stops position stopped =>
    have hand := publishing.hand (by simp [position])
    have none : loop.inHand = [] := by
      rw [RequestLoop.inHand, position]
      rename_i completed
      rcases completed with _ | _ | _ | _
      · rfl
      · cases stopped
      · rfl
      · rfl
    rw [none, List.append_nil] at hand
    simpa using publishing.leave (.inl hand)
  | publishes position serving current => exact publishing.publish position serving current

end Publishing

/-! ### Whole runs -/

section
variable {schedule : List StreamAction} {seen : List StreamObservation} {streams : EventStreams}

theorem followed (run : eventStreamMachine.Run schedule seen streams) (call : CallId) :
    Racing (history call seen) (streams.loops call) ∧
      Publishing (history call seen) (streams.service.calls call) (streams.loops call) := by
  induction run with
  | start => exact ⟨.initial, .initial⟩
  | next earlier stepped ih =>
    obtain ⟨racing, publishing⟩ := ih
    have moves := EventStreams.moves_of_step stepped call
    rw [history_append]
    exact ⟨racing.step publishing.unused moves, publishing.step racing moves⟩

theorem serving_of_published {identity moved : EventStreamCall} {loop after : RequestLoop}
    {out : List CallObservation} (moves : CallMoves identity loop moved after out)
    {event : RpcEvent} (member : .published event ∈ out) : identity = .serving event.workerId := by
  cases moves with
  | rests | starts | greets | continues | refuses | stops => cases member
  | cancels cancelled => exact absurd member (RequestLoop.cancel_unpublished cancelled event)
  | moves moved => exact absurd member (RequestLoop.moveNext_unpublished moved event)
  | reads outcome finished =>
    exact absurd member (RequestLoop.finishRead_unpublished finished event)
  | chooses chosen => exact absurd member (RequestLoop.whenAny_unpublished chosen event)
  | publishes position serving current =>
    cases List.mem_singleton.mp member
    exact serving

theorem handshook_before_published (run : eventStreamMachine.Run schedule seen streams)
    {call : CallId} {before later : List StreamObservation} {event : RpcEvent}
    (split : seen = before ++ .call call (.published event) :: later) :
    .service (.handshook call event.workerId) ∈ before := by
  obtain ⟨earlier, first, middle, action, after, early, late, reached, stepped, rfl⟩ :=
    run.emitted split
  have moves := EventStreams.moves_of_step stepped call
  have member : .published event ∈
      history call (early ++ .call call (.published event) :: late) := by
    apply List.mem_filterMap.mpr
    exact ⟨.call call (.published event), by simp, if_pos rfl⟩
  have serving := serving_of_published moves member
  exact List.mem_append_left _ (greeted_of_serving reached serving)

theorem publish_enabled {call : CallId} {workerId : String} {message : StreamingMessage}
    (position : (streams.loops call).position = .publish)
    (serving : streams.service.calls call = .serving workerId)
    (current : (streams.loops call).current = some message) :
    ∃ after out, streams.step (.publish call) = some (after, out) ∧
      (published (history call out)).map (·.message) = [message] := by
  refine ⟨streams.setLoop call (streams.loops call).start,
    [.published ⟨workerId, message⟩].map (.call call), ?_, ?_⟩
  · simp only [EventStreams.step, EventStreams.publish, position, serving, current]
    rfl
  · rw [history_own]
    rfl

theorem resume_enabled {call : CallId} {completed : Winner}
    (position : (streams.loops call).position = .resume completed)
    (available : completed.result = .ok ())
    (served : (∃ workerId, streams.service.calls call = .serving workerId) ∨
      streams.service.calls call = .awaitingFirst ∧ ∃ startStream,
        (streams.loops call).current.bind (·.startStream) = some startStream) :
    ∃ after out workerId, streams.step (.resume call) = some (after, out) ∧
      history call out = [] ∧ after.loops call = (streams.loops call).toPublish ∧
      after.service.calls call = .serving workerId := by
  rcases served with ⟨workerId, serving⟩ | ⟨waiting, startStream, found⟩
  · refine ⟨streams.setLoop call (streams.loops call).toPublish, [], workerId, ?_, rfl, ?_, serving⟩
    · simp only [EventStreams.step, EventStreams.resume, position, available, serving]
    · exact Function.update_self ..
  · refine ⟨streams.handshake call startStream.workerId,
      [.service (.handshook call startStream.workerId)], startStream.workerId, ?_, rfl, ?_, ?_⟩
    · simp only [EventStreams.step, EventStreams.resume, position, available, waiting, found]
    · exact Function.update_self ..
    · change (streams.service.handshake call startStream.workerId).calls call = _
      rw [FunctionRpcService.calls_handshake]
      exact Function.update_self ..

theorem delivered (run : eventStreamMachine.Run schedule seen streams) {call : CallId}
    {startStream : StartStream} (opens : Opens (history call seen) (some startStream)) :
    ∃ steps after out, (∀ step ∈ steps, step = .resume call ∨ step = .publish call) ∧
      eventStreamMachine.exec streams steps = some (after, out) ∧
      (published (history call out)).map (·.message) = (streams.loops call).inHand := by
  obtain ⟨racing, publishing⟩ := followed run call
  have consistent := racing.consistent
  have nothing : (streams.loops call).inHand = [] → ∃ steps after out,
      (∀ step ∈ steps, step = .resume call ∨ step = .publish call) ∧
        eventStreamMachine.exec streams steps = some (after, out) ∧
        (published (history call out)).map (·.message) = (streams.loops call).inHand :=
    fun none => ⟨[], streams, [], by simp, rfl, none.symm⟩
  cases position : (streams.loops call).position with
  | publish =>
    simp only [RequestLoop.Consistent, position] at consistent
    obtain ⟨message, _, current⟩ := consistent
    obtain ⟨workerId, serving⟩ := publishing.ready position
    obtain ⟨after, out, stepped, events⟩ := publish_enabled position serving current
    refine ⟨[.publish call], after, out, by simp, ?_, ?_⟩
    · exact (Machine.exec_singleton eventStreamMachine _ _).trans stepped
    · rw [events, RequestLoop.inHand, position, current]
      rfl
  | resume completed =>
    cases available : completed.result with
    | error how =>
      apply nothing
      rw [RequestLoop.inHand, position]
      rcases completed with _ | _ | _ | _
      · rfl
      · cases available
      · rfl
      · rfl
    | ok value =>
      obtain ⟨message, rfl⟩ := Winner.result_ok available
      simp only [RequestLoop.Consistent, position] at consistent
      have current := consistent.2 message rfl
      have served : (∃ workerId, streams.service.calls call = .serving workerId) ∨
          streams.service.calls call = .awaitingFirst ∧ ∃ startStream,
            (streams.loops call).current.bind (·.startStream) = some startStream := by
        cases identity : streams.service.calls call with
        | notStarted => simp [publishing.unused identity] at position
        | ended => simp [publishing.returned identity] at position
        | serving workerId => exact .inl ⟨workerId, rfl⟩
        | awaitingFirst =>
          rw [identity] at publishing
          exact .inr ⟨rfl, startStream, (publishing.opens racing position available).unique opens⟩
      obtain ⟨middle, greeting, workerId, resumed, quiet, loop, serving⟩ :=
        resume_enabled position available served
      have current' : (middle.loops call).current = some message := by
        rw [loop]
        exact current
      obtain ⟨after, out, stepped, events⟩ :=
        publish_enabled (by rw [loop]; rfl) serving current'
      refine ⟨[.resume call] ++ [.publish call], after, greeting ++ out, by simp, ?_, ?_⟩
      · exact Machine.exec_append
          ((Machine.exec_singleton eventStreamMachine _ _).trans resumed) stepped
      · rw [history_append, quiet, List.nil_append, events, RequestLoop.inHand, position]
  | _ =>
    apply nothing
    rw [RequestLoop.inHand, position]

end

/-- What a call has published after a run: in order, a part from the start of
what it received in time; everything that has won but for the message in hand,
which is published next; under the identity of the first message and after its
handshake; and nothing when the first message is no `StartStream`. -/
structure Publication (call : CallId) (seen : List StreamObservation) (streams : EventStreams) :
    Prop where
  inOrder : (published (history call seen)).map (·.message) <+:
    received (beforeStop (history call seen))
  complete : ∀ startStream, Opens (history call seen) (some startStream) →
    won (history call seen) =
      (published (history call seen)).map (·.message) ++ (streams.loops call).inHand
  ended : streams.service.calls call = .ended → (streams.loops call).inHand = []
  delivered : ∀ startStream, Opens (history call seen) (some startStream) →
    ∃ steps after out, (∀ step ∈ steps, step = .resume call ∨ step = .publish call) ∧
      eventStreamMachine.exec streams steps = some (after, out) ∧
      (published (history call out)).map (·.message) = (streams.loops call).inHand
  identified : ∀ event ∈ published (history call seen),
    Opens (history call seen) (some ⟨event.workerId⟩)
  subscribed : ∀ before event later, seen = before ++ .call call (.published event) :: later →
    .service (.handshook call event.workerId) ∈ before
  entries : ∀ workerId, .service (.handshook call workerId) ∈ seen →
    ∃ subscription, streams.service.entry workerId = some subscription
  refused : Opens (history call seen) none → published (history call seen) = []

theorem publishes_received {schedule : List StreamAction} {seen : List StreamObservation}
    {streams : EventStreams} (run : eventStreamMachine.Run schedule seen streams)
    (call : CallId) : Publication call seen streams := by
  obtain ⟨racing, publishing⟩ := followed run call
  have refused : Opens (history call seen) none → published (history call seen) = [] := by
    intro malformed
    apply List.eq_nil_iff_forall_not_mem.mpr
    intro event member
    cases malformed.unique (publishing.identified.carried event member)
  constructor
  case inOrder =>
    by_cases left : (streams.loops call).position = .returned
    · rcases publishing.left left with same | ⟨none, _⟩
      · rw [← same]
        exact racing.wins
      · rw [none]
        exact List.nil_prefix
    · refine List.IsPrefix.trans ?_ racing.wins
      rw [publishing.hand left]
      exact List.prefix_append _ _
  case complete =>
    intro startStream opens
    by_cases left : (streams.loops call).position = .returned
    · rw [RequestLoop.inHand, left, List.append_nil]
      rcases publishing.left left with same | ⟨_, malformed⟩
      · exact same
      · cases malformed.unique opens
    · exact publishing.hand left
  case ended =>
    intro ended
    rw [RequestLoop.inHand, publishing.returned ended]
  case delivered => exact fun _ opens => delivered run opens
  case identified => exact publishing.identified.carried
  case subscribed => exact fun _ _ _ split => handshook_before_published run split
  case entries => exact fun _ shook => entry_of_handshook run shook
  case refused => exact refused

/-- A read and a cancellation that race: the second message names another
worker, and its read completes just before the call is cancelled. -/
def racedCall : List StreamAction :=
  [.start 0, .moveNext 0, .finishRead 0 (.message { content := .startStream ⟨"a"⟩ }), .whenAny 0,
    .start 1, .resume 0, .publish 0, .moveNext 0, .whenAny 0,
    .finishRead 0 (.message { content := .startStream ⟨"b"⟩ }), .cancel 0, .resume 0, .publish 0,
    .moveNext 0, .whenAny 0, .resume 0]

theorem publishes_received_raced :
    ∃ seen streams, eventStreamMachine.exec .initial racedCall = some (streams, seen) ∧
      published (history 0 seen) = [⟨"a", { content := .startStream ⟨"a"⟩ }⟩,
        ⟨"a", { content := .startStream ⟨"b"⟩ }⟩] ∧
      streams.service.calls 0 = .ended ∧ Publication 0 seen streams :=
  ⟨_, _, rfl, by decide, rfl,
    publishes_received (@Machine.Run.of_exec _ _ _ eventStreamMachine racedCall _ _ rfl) 0⟩

end BenchmarkHost
