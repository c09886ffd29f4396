import BenchmarkHost.Service.RequestStream
import BenchmarkHost.Service.Sessions

/-! The loops against the service they share.

Seen from outside, a handshake publishes its message at once; the loop does so
a little later. Apart from the events of such messages, every run of the loops
is one of the service, so that what holds of the service holds here.
-/

set_option autoImplicit false

namespace BenchmarkHost

open Library

def StreamObservation.toService : StreamObservation → Option ServiceObservation
  | .call _ (.published event) => some (.inbound event)
  | .call _ _ => none
  | .service observation => some observation

/-- Every observation but the event of a `StartStream`. -/
def ServiceObservation.plain : ServiceObservation → Bool
  | .inbound event => event.message.startStream.isNone
  | _ => true

/-- The service has done the same by itself, greetings apart. -/
def Refines (seen : List StreamObservation) (streams : EventStreams) : Prop :=
  ∃ schedule heard, serviceMachine.Run schedule heard streams.service ∧
    heard.filter (·.plain) = (seen.filterMap (·.toService)).filter (·.plain)

namespace Refines
variable {streams after : EventStreams} {seen out : List StreamObservation}

theorem extend (refines : Refines seen streams) {more : List ServiceAction}
    {observed : List ServiceObservation}
    (executed : serviceMachine.exec streams.service more = some (after.service, observed))
    (same : observed.filter (·.plain) = (out.filterMap (·.toService)).filter (·.plain)) :
    Refines (seen ++ out) after := by
  obtain ⟨schedule, heard, run, agree⟩ := refines
  refine ⟨_, _, run.extend executed, ?_⟩
  rw [List.filter_append, List.filterMap_append, List.filter_append, agree, same]

theorem idle (refines : Refines seen streams) (kept : after.service = streams.service)
    (silent : (out.filterMap (·.toService)).filter (·.plain) = []) :
    Refines (seen ++ out) after := by
  have executed : serviceMachine.exec streams.service [] = some (after.service, []) := by
    rw [kept]
    exact Machine.exec_nil serviceMachine _
  exact refines.extend executed silent.symm

theorem single (refines : Refines seen streams) {action : ServiceAction}
    {observed : List ServiceObservation}
    (stepped : streams.service.step action = some (after.service, observed))
    (same : observed.filter (·.plain) = (out.filterMap (·.toService)).filter (·.plain)) :
    Refines (seen ++ out) after := by
  have executed : serviceMachine.exec streams.service [action] = some (after.service, observed) :=
    (Machine.exec_singleton serviceMachine _ _).trans stepped
  exact refines.extend executed same

theorem advance (refines : Refines seen streams) {call : CallId}
    {moved : Option (RequestLoop × List CallObservation)}
    (advanced : streams.advance call moved = some (after, out))
    (unpublished : ∀ loop observed, moved = some (loop, observed) →
      ∀ event, .published event ∉ observed) : Refines (seen ++ out) after := by
  obtain ⟨loop, observed, moved, rfl, rfl⟩ := EventStreams.advance_some advanced
  have silent : (observed.map (StreamObservation.call call)).filterMap (·.toService) = [] := by
    rw [List.filterMap_map]
    apply List.filterMap_eq_nil_iff.mpr
    intro observation member
    cases observation with
    | published event => exact absurd member (unpublished loop observed moved event)
    | read outcome => rfl
    | won outcome => rfl
    | cancelled => rfl
  apply refines.idle rfl
  rw [silent]
  rfl

theorem serve (refines : Refines seen streams) {action : ServiceAction}
    (served : streams.serve (streams.service.step action) = some (after, out)) :
    Refines (seen ++ out) after := by
  obtain ⟨service, observed, stepped, rfl, rfl⟩ := EventStreams.serve_some served
  have same : (observed.map StreamObservation.service).filterMap (·.toService) = observed := by
    apply filterMap_map_some
    intro observation
    rfl
  apply refines.single stepped
  rw [same]

theorem resume (refines : Refines seen streams) {call : CallId}
    (resumed : streams.resume call = some (after, out)) : Refines (seen ++ out) after := by
  obtain ⟨completed, position, cases⟩ := EventStreams.resume_some resumed
  rcases cases with ⟨startStream, _, waiting, found, rfl, rfl⟩ | ⟨_, waiting, _, rfl, rfl⟩ |
    ⟨workerId, _, _, rfl, rfl⟩ | ⟨how, _, opened, rfl, rfl⟩
  · obtain ⟨message, current, content⟩ := Option.bind_eq_some_iff.mp found
    have stepped : streams.service.step (.receiveFirst call message) =
        some (streams.service.handshake call startStream.workerId,
          [.handshook call startStream.workerId, .inbound ⟨startStream.workerId, message⟩]) := by
      simp only [FunctionRpcService.step, FunctionRpcService.receiveFirst, waiting, content]
    apply refines.single stepped
    simp [ServiceObservation.plain, StreamObservation.toService, content]
  · have stepped : streams.service.step (.receiveFirst call {}) =
        some (streams.service.finallyBlock call, [.malformed call, .ended call]) := by
      simp only [FunctionRpcService.step, FunctionRpcService.receiveFirst, waiting,
        StreamingMessage.startStream]
    exact refines.single stepped rfl
  · exact refines.idle rfl rfl
  · have stepped : streams.service.step (.finish call how) =
        some (streams.service.finallyBlock call, [.ended call]) := by
      rcases opened with waiting | ⟨workerId, serving⟩
      · simp only [FunctionRpcService.step, FunctionRpcService.finish, waiting]
      · simp only [FunctionRpcService.step, FunctionRpcService.finish, serving]
    exact refines.single stepped rfl

theorem publish (refines : Refines seen streams) {call : CallId}
    (published : streams.publish call = some (after, out)) : Refines (seen ++ out) after := by
  obtain ⟨workerId, message, _, serving, _, rfl, rfl⟩ := EventStreams.publish_some published
  cases content : message.startStream with
  | none =>
    have stepped : streams.service.step (.receive call message) =
        some (streams.service, [.inbound ⟨workerId, message⟩]) := by
      simp only [FunctionRpcService.step, FunctionRpcService.receive, serving]
    exact refines.single stepped rfl
  | some startStream =>
    apply refines.idle rfl
    simp [ServiceObservation.plain, StreamObservation.toService, content]

theorem step (refines : Refines seen streams) {action : StreamAction}
    (stepped : streams.step action = some (after, out)) : Refines (seen ++ out) after := by
  cases action with
  | start call =>
    obtain ⟨unused, rfl, rfl⟩ := EventStreams.start_some stepped
    have started : streams.service.step (.start call) =
        some (streams.service.setCall call .awaitingFirst, []) := if_pos unused
    exact refines.single started rfl
  | cancel call =>
    exact refines.advance stepped fun _ _ moved => RequestLoop.cancel_unpublished moved
  | moveNext call =>
    exact refines.advance stepped fun _ _ moved => RequestLoop.moveNext_unpublished moved
  | finishRead call outcome =>
    exact refines.advance stepped fun _ _ moved => RequestLoop.finishRead_unpublished moved
  | whenAny call =>
    exact refines.advance stepped fun _ _ moved => RequestLoop.whenAny_unpublished moved
  | resume call => exact refines.resume stepped
  | publish call => exact refines.publish stepped
  | outbound event => exact refines.serve stepped
  | write owner succeeds => exact refines.serve stepped
  | written owner => exact refines.serve stepped

end Refines

theorem refines_of_run {schedule : List StreamAction} {seen : List StreamObservation}
    {streams : EventStreams} (run : eventStreamMachine.Run schedule seen streams) :
    Refines seen streams := by
  apply run.invariant
  · exact ⟨[], [], .start, rfl⟩
  · intro _ _ _ _ _ _ _ refines stepped
    exact refines.step stepped

theorem mem_heard_iff {heard : List ServiceObservation} {seen : List StreamObservation}
    (same : heard.filter (·.plain) = (seen.filterMap (·.toService)).filter (·.plain))
    {observation : ServiceObservation} (foreign : ∀ event, observation ≠ .inbound event) :
    observation ∈ heard ↔ .service observation ∈ seen := by
  have plain : observation.plain = true := by
    cases observation with
    | inbound event => exact absurd rfl (foreign event)
    | _ => rfl
  have listed : observation ∈ heard ↔ observation ∈ heard.filter (·.plain) := by
    rw [List.mem_filter, plain]
    exact (and_iff_left rfl).symm
  rw [listed, same, List.mem_filter, plain, and_iff_left rfl, List.mem_filterMap]
  constructor
  · rintro ⟨noted, member, told⟩
    rcases noted with ⟨call, _ | _ | _ | event⟩ | other
    · cases told
    · cases told
    · cases told
    · cases told
      exact absurd rfl (foreign event)
    · cases told
      exact member
  · intro member
    exact ⟨_, member, rfl⟩

section
variable {schedule : List StreamAction} {seen : List StreamObservation} {streams : EventStreams}

theorem greeted_of_serving (run : eventStreamMachine.Run schedule seen streams)
    {call : CallId} {workerId : String}
    (serving : streams.service.calls call = .serving workerId) :
    .service (.handshook call workerId) ∈ seen := by
  obtain ⟨coarse, heard, service, same⟩ := refines_of_run run
  exact (mem_heard_iff same (by simp)).mp (handshook_of_serving service serving)

theorem entry_of_handshook (run : eventStreamMachine.Run schedule seen streams) {call : CallId}
    {workerId : String} (shook : .service (.handshook call workerId) ∈ seen) :
    ∃ subscription, streams.service.entry workerId = some subscription := by
  obtain ⟨coarse, heard, service, same⟩ := refines_of_run run
  have named := named_of_handshook service ((mem_heard_iff same (by simp)).mpr shook)
  have bound := ((sessions_of_run service).entries workerId).mpr named
  rw [FunctionRpcService.binding, Option.isSome_map] at bound
  exact Option.isSome_iff_exists.mp bound

end

end BenchmarkHost
