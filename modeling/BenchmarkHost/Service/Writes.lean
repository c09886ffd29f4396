import BenchmarkHost.Service.EventStream

/-! The writes on one response stream.

A subscription writes the events published for its worker in order, one at a
time, and goes on after a write that fails: no other subscription writes to the
same stream, so the attempts made there are its own.
-/

set_option autoImplicit false

namespace BenchmarkHost

open Library

namespace ServiceObservation

def publishedLive (workerId : String) : ServiceObservation → Option RpcEvent
  | .outbound event recipients =>
    if event.workerId = workerId ∧ recipients ≠ [] then some event else none
  | _ => none

/-- A `WriteAsync` called on the stream, whether or not it succeeds. -/
def attemptedOn (call : CallId) : ServiceObservation → Option RpcEvent
  | .attempted stream event _ => if stream = call then some event else none
  | _ => none

def deliveredOn (call : CallId) : ServiceObservation → Option RpcEvent
  | .attempted stream event true => if stream = call then some event else none
  | _ => none

def returnedOn (call : CallId) : ServiceObservation → Option Unit
  | .returned stream => if stream = call then some () else none
  | _ => none

def quiet : ServiceObservation → Bool
  | .inbound _ | .handshook _ _ | .malformed _ | .ended _ => true
  | .outbound _ _ | .attempted _ _ _ | .returned _ => false

end ServiceObservation

open ServiceObservation

theorem filterMap_quiet {Kept : Type} {choose : ServiceObservation → Option Kept}
    (ignores : ∀ observation, observation.quiet = true → choose observation = none)
    (seen : List ServiceObservation) {out : List ServiceObservation}
    (silent : ∀ observation ∈ out, observation.quiet = true) :
    (seen ++ out).filterMap choose = seen.filterMap choose := by
  rw [List.filterMap_append, List.filterMap_eq_nil_iff.mpr
    fun observation member => ignores observation (silent observation member), List.append_nil]

theorem quiet_publishedLive (workerId : String) (observation : ServiceObservation)
    (silent : observation.quiet = true) : observation.publishedLive workerId = none := by
  cases observation <;> first | rfl | cases silent

theorem quiet_attemptedOn (call : CallId) (observation : ServiceObservation)
    (silent : observation.quiet = true) : observation.attemptedOn call = none := by
  cases observation <;> first | rfl | cases silent

theorem quiet_returnedOn (call : CallId) (observation : ServiceObservation)
    (silent : observation.quiet = true) : observation.returnedOn call = none := by
  cases observation <;> first | rfl | cases silent

/-- The entries against the publications and writes of the run. -/
structure Ordered (seen : List ServiceObservation) (service : FunctionRpcService) : Prop where
  begun : ∀ workerId subscription, service.entry workerId = some subscription →
    seen.filterMap (attemptedOn subscription.responseStream) <+:
      seen.filterMap (publishedLive workerId)
  queued : ∀ workerId subscription, service.entry workerId = some subscription →
    subscription.live = true →
    seen.filterMap (attemptedOn subscription.responseStream) ++ subscription.queue =
      seen.filterMap (publishedLive workerId)
  absent : ∀ workerId, service.entry workerId = none →
    seen.filterMap (publishedLive workerId) = []
  serial : ∀ workerId subscription, service.entry workerId = some subscription →
    (seen.filterMap (attemptedOn subscription.responseStream)).length =
      (seen.filterMap (returnedOn subscription.responseStream)).length +
        if subscription.writing then 1 else 0
  unbound : ∀ call, (∀ workerId subscription, service.entry workerId = some subscription →
      subscription.responseStream ≠ call) →
    seen.filterMap (attemptedOn call) = [] ∧ seen.filterMap (returnedOn call) = []
  single : ∀ first second one other, service.entry first = some one →
    service.entry second = some other → one.responseStream = other.responseStream →
    first = second
  fresh : ∀ call, service.calls call = .notStarted ∨ service.calls call = .awaitingFirst →
    ∀ workerId subscription, service.entry workerId = some subscription →
      subscription.responseStream ≠ call

theorem Ordered.frame {seen out : List ServiceObservation} {service after : FunctionRpcService}
    (ordered : Ordered seen service) (silent : ∀ observation ∈ out, observation.quiet = true)
    (entries : ∀ workerId, after.entry workerId = service.entry workerId ∨
      after.entry workerId = (service.entry workerId).map (·.dispose))
    (idle : ∀ call, after.Idle call → service.Idle call) : Ordered (seen ++ out) after := by
  have published := fun workerId => filterMap_quiet (quiet_publishedLive workerId) seen silent
  have attempted := fun call => filterMap_quiet (quiet_attemptedOn call) seen silent
  have returned := fun call => filterMap_quiet (quiet_returnedOn call) seen silent
  -- Every entry after the step was there before, under the same stream.
  have origin : ∀ workerId subscription, after.entry workerId = some subscription →
      ∃ earlier, service.entry workerId = some earlier ∧
        subscription.responseStream = earlier.responseStream ∧
        subscription.writing = earlier.writing ∧
        (subscription.live = true → subscription = earlier) := by
    intro workerId subscription found
    rcases entries workerId with same | disposed
    · exact ⟨subscription, same ▸ found, rfl, rfl, fun _ => rfl⟩
    · rw [disposed, Option.map_eq_some_iff] at found
      obtain ⟨earlier, old, rfl⟩ := found
      exact ⟨earlier, old, rfl, rfl, fun live => by cases live⟩
  have kept : ∀ workerId subscription, service.entry workerId = some subscription →
      ∃ later, after.entry workerId = some later ∧
        later.responseStream = subscription.responseStream := by
    intro workerId subscription found
    rcases entries workerId with same | disposed
    · exact ⟨subscription, same.trans found, rfl⟩
    · exact ⟨subscription.dispose, by rw [disposed, found, Option.map_some], rfl⟩
  constructor
  case begun =>
    intro workerId subscription found
    obtain ⟨earlier, old, stream, _⟩ := origin workerId subscription found
    rw [published, attempted, stream]
    exact ordered.begun workerId earlier old
  case queued =>
    intro workerId subscription found live
    obtain ⟨earlier, old, _, _, same⟩ := origin workerId subscription found
    rw [published, attempted, same live]
    exact ordered.queued workerId earlier old (same live ▸ live)
  case absent =>
    intro workerId gone
    rw [published]
    refine ordered.absent workerId ?_
    rcases entries workerId with same | disposed
    · exact same ▸ gone
    · simpa [disposed] using gone
  case serial =>
    intro workerId subscription found
    obtain ⟨earlier, old, stream, writing, _⟩ := origin workerId subscription found
    rw [attempted, returned, stream, writing]
    exact ordered.serial workerId earlier old
  case unbound =>
    intro call free
    rw [attempted, returned]
    refine ordered.unbound call fun workerId subscription found => ?_
    obtain ⟨later, here, stream⟩ := kept workerId subscription found
    exact stream ▸ free workerId later here
  case single =>
    intro first second one other oneFound otherFound same
    obtain ⟨oneOld, oneHere, oneStream, _⟩ := origin first one oneFound
    obtain ⟨otherOld, otherHere, otherStream, _⟩ := origin second other otherFound
    exact ordered.single _ _ _ _ oneHere otherHere (oneStream ▸ otherStream ▸ same)
  case fresh =>
    intro call waiting workerId subscription found
    obtain ⟨earlier, old, stream, _⟩ := origin workerId subscription found
    exact stream ▸ ordered.fresh call (idle call waiting) workerId earlier old

theorem Ordered.subscribe {seen out : List ServiceObservation} {service : FunctionRpcService}
    (ordered : Ordered seen service) (silent : ∀ observation ∈ out, observation.quiet = true)
    {call : CallId} {workerId : String} (waiting : service.calls call = .awaitingFirst)
    (vacant : service.entry workerId = none) :
    Ordered (seen ++ out) (service.handshake call workerId) := by
  have published := fun owner => filterMap_quiet (quiet_publishedLive owner) seen silent
  have attempted := fun stream => filterMap_quiet (quiet_attemptedOn stream) seen silent
  have returned := fun stream => filterMap_quiet (quiet_returnedOn stream) seen silent
  have entries : ∀ owner, (service.handshake call workerId).entry owner =
      if owner = workerId then some (.create call) else service.entry owner := by
    intro owner
    rw [service.entry_handshake, vacant, Option.getD_none]
  -- The calling stream is behind no entry yet, so nothing was written to it.
  have unbound := ordered.fresh call (.inr waiting)
  have untouched := ordered.unbound call unbound
  have nothing := ordered.absent workerId vacant
  constructor
  case begun =>
    intro owner subscription found
    rw [published, attempted]
    rw [entries] at found
    split at found
    · cases found
      rw [OutboundSubscription.create, untouched.1]
      exact List.nil_prefix
    · exact ordered.begun owner subscription found
  case queued =>
    intro owner subscription found live
    rw [published, attempted]
    rw [entries] at found
    split at found
    · rename_i same
      cases found
      rw [OutboundSubscription.create, untouched.1, same, nothing, List.append_nil]
    · exact ordered.queued owner subscription found live
  case absent =>
    intro owner gone
    rw [published]
    rw [entries] at gone
    split at gone
    · cases gone
    · exact ordered.absent owner gone
  case serial =>
    intro owner subscription found
    rw [attempted, returned]
    rw [entries] at found
    split at found
    · cases found
      simp [OutboundSubscription.create, untouched.1, untouched.2]
    · exact ordered.serial owner subscription found
  case unbound =>
    intro stream free
    rw [attempted, returned]
    refine ordered.unbound stream fun owner subscription found => ?_
    refine free owner subscription ?_
    rw [entries, if_neg (fun same => by rw [same, vacant] at found; cases found)]
    exact found
  case single =>
    intro first second one other oneFound otherFound same
    rw [entries] at oneFound otherFound
    split at oneFound <;> split at otherFound
    · rename_i left right
      exact left.trans right.symm
    · cases oneFound
      exact absurd same.symm (unbound second other otherFound)
    · cases otherFound
      exact absurd same (unbound first one oneFound)
    · exact ordered.single first second one other oneFound otherFound same
  case fresh =>
    intro stream idle owner subscription found
    rw [service.calls_handshake] at idle
    have different : stream ≠ call := by
      rintro rfl
      simp at idle
    rw [Function.update_of_ne different] at idle
    rw [entries] at found
    split at found
    · cases found
      exact different.symm
    · exact ordered.fresh stream idle owner subscription found

theorem Ordered.publish {seen : List ServiceObservation} {service : FunctionRpcService}
    (ordered : Ordered seen service) (event : RpcEvent) :
    Ordered (seen ++ [.outbound event (service.recipients event)]) (service.onNext event) := by
  set observation := ServiceObservation.outbound event (service.recipients event) with shown
  have attempted : ∀ stream, (seen ++ [observation]).filterMap
      (attemptedOn stream) = seen.filterMap (attemptedOn stream) := by
    intro stream
    simp [List.filterMap_append, shown, attemptedOn]
  have returned : ∀ stream, (seen ++ [observation]).filterMap
      (returnedOn stream) = seen.filterMap (returnedOn stream) := by
    intro stream
    simp [List.filterMap_append, shown, returnedOn]
  have elsewhere : ∀ owner, owner ≠ event.workerId →
      (seen ++ [observation]).filterMap (publishedLive owner) =
        seen.filterMap (publishedLive owner) := by
    intro owner different
    simp [List.filterMap_append, shown, publishedLive, different.symm]
  have here : (seen ++ [observation]).filterMap
      (publishedLive event.workerId) = seen.filterMap (publishedLive event.workerId) ++
        if service.recipients event ≠ [] then [event] else [] := by
    by_cases heard : service.recipients event = [] <;>
      simp [List.filterMap_append, shown, publishedLive, heard]
  have entries := service.entry_onNext event
  -- `onNext` keeps the stream, the writer and the liveness of every entry.
  have origin : ∀ owner subscription, (service.onNext event).entry owner = some subscription →
      ∃ earlier, service.entry owner = some earlier ∧
        subscription = if owner = event.workerId then earlier.onNext event else earlier := by
    intro owner subscription found
    rw [entries] at found
    split at found
    · rename_i same
      obtain ⟨earlier, old, rfl⟩ := Option.map_eq_some_iff.mp found
      exact ⟨earlier, old, by rw [if_pos same]⟩
    · rename_i different
      exact ⟨subscription, found, by rw [if_neg different]⟩
  have stream : ∀ earlier : OutboundSubscription,
      (earlier.onNext event).responseStream = earlier.responseStream ∧
        (earlier.onNext event).writing = earlier.writing := by
    intro earlier
    unfold OutboundSubscription.onNext
    split <;> exact ⟨rfl, rfl⟩
  constructor
  case begun =>
    intro owner subscription found
    obtain ⟨earlier, old, rfl⟩ := origin owner subscription found
    rw [attempted]
    split
    · rename_i same
      subst same
      rw [(stream earlier).1, here]
      exact (ordered.begun _ earlier old).trans (List.prefix_append _ _)
    · rename_i different
      rw [elsewhere owner different]
      exact ordered.begun owner earlier old
  case queued =>
    intro owner subscription found live
    obtain ⟨earlier, old, rfl⟩ := origin owner subscription found
    rw [attempted]
    split at live
    · rename_i same
      subst same
      have open' : earlier.live = true := by
        unfold OutboundSubscription.onNext at live
        split at live
        · assumption
        · exact live
      -- A live subscription hears the event, which therefore counts as published.
      have heard : service.recipients event ≠ [] :=
        List.ne_nil_of_mem (FunctionRpcService.mem_recipients.mpr ⟨earlier, old, open', rfl⟩)
      have before := ordered.queued _ earlier old open'
      rw [if_pos rfl, here, if_pos heard, ← before, (stream earlier).1]
      simp [OutboundSubscription.onNext, open']
    · rename_i different
      rw [elsewhere owner different, if_neg different]
      exact ordered.queued owner earlier old live
  case absent =>
    intro owner gone
    rw [entries] at gone
    split at gone
    · rename_i same
      subst same
      have vacant : service.entry event.workerId = none := by simpa using gone
      have unheard : service.recipients event = [] := by
        rw [service.recipients_eq, vacant]
        rfl
      rw [here, unheard, ordered.absent _ vacant]
      rfl
    · rename_i different
      rw [elsewhere owner different]
      exact ordered.absent owner gone
  case serial =>
    intro owner subscription found
    obtain ⟨earlier, old, rfl⟩ := origin owner subscription found
    rw [attempted, returned]
    split
    · rw [(stream earlier).1, (stream earlier).2]
      exact ordered.serial owner earlier old
    · exact ordered.serial owner earlier old
  case unbound =>
    intro call free
    rw [attempted, returned]
    refine ordered.unbound call fun owner subscription found => ?_
    by_cases same : owner = event.workerId
    · have later : (service.onNext event).entry owner = some (subscription.onNext event) := by
        rw [entries, if_pos same, found, Option.map_some]
      exact (stream subscription).1 ▸ free owner _ later
    · refine free owner subscription ?_
      rw [entries, if_neg same]
      exact found
  case single =>
    intro first second one other oneFound otherFound same
    obtain ⟨oneOld, oneHere, rfl⟩ := origin first one oneFound
    obtain ⟨otherOld, otherHere, rfl⟩ := origin second other otherFound
    refine ordered.single first second oneOld otherOld oneHere otherHere ?_
    simpa only [apply_ite OutboundSubscription.responseStream, (stream _).1, ite_self] using same
  case fresh =>
    intro call waiting owner subscription found
    obtain ⟨earlier, old, rfl⟩ := origin owner subscription found
    have free := ordered.fresh call waiting owner earlier old
    simpa only [apply_ite OutboundSubscription.responseStream, (stream _).1, ite_self] using free

/-- A step of one subscriber, which concerns its own stream only. -/
theorem Ordered.advance {seen out : List ServiceObservation} {service after : FunctionRpcService}
    (ordered : Ordered seen service) {workerId : String}
    {subscription changed : OutboundSubscription}
    (found : service.entry workerId = some subscription)
    (calls : after.calls = service.calls)
    (entries : ∀ other, after.entry other =
      if other = workerId then some changed else service.entry other)
    (stream : changed.responseStream = subscription.responseStream)
    (silent : ∀ owner, out.filterMap (publishedLive owner) = [])
    (foreign : ∀ call, subscription.responseStream ≠ call →
      out.filterMap (attemptedOn call) = [] ∧ out.filterMap (returnedOn call) = [])
    (begun : (seen ++ out).filterMap (attemptedOn subscription.responseStream) <+:
      seen.filterMap (publishedLive workerId))
    (queued : changed.live = true →
      (seen ++ out).filterMap (attemptedOn subscription.responseStream) ++ changed.queue =
        seen.filterMap (publishedLive workerId))
    (serial : ((seen ++ out).filterMap (attemptedOn subscription.responseStream)).length =
      ((seen ++ out).filterMap (returnedOn subscription.responseStream)).length +
        if changed.writing then 1 else 0) :
    Ordered (seen ++ out) after := by
  have published : ∀ owner, (seen ++ out).filterMap (publishedLive owner) =
      seen.filterMap (publishedLive owner) := by
    intro owner
    rw [List.filterMap_append, silent, List.append_nil]
  have untouched : ∀ call, subscription.responseStream ≠ call →
      (seen ++ out).filterMap (attemptedOn call) = seen.filterMap (attemptedOn call) ∧
        (seen ++ out).filterMap (returnedOn call) = seen.filterMap (returnedOn call) := by
    intro call different
    simp only [List.filterMap_append, foreign call different, List.append_nil, and_self]
  -- No other entry writes to this stream, so what they have written stays.
  have others : ∀ owner other, owner ≠ workerId → service.entry owner = some other →
      subscription.responseStream ≠ other.responseStream := by
    intro owner other different here same
    exact different (ordered.single _ _ _ _ found here same).symm
  have origin : ∀ owner later, after.entry owner = some later →
      ∃ earlier, service.entry owner = some earlier ∧
        later.responseStream = earlier.responseStream := by
    intro owner later here
    rw [entries] at here
    split at here
    · rename_i same
      cases here
      exact ⟨subscription, same ▸ found, stream⟩
    · exact ⟨later, here, rfl⟩
  constructor
  case begun =>
    intro owner later here
    rw [published]
    rw [entries] at here
    split at here
    · rename_i same
      cases here
      rw [stream, same]
      exact begun
    · rename_i different
      rw [(untouched _ (others owner later different here)).1]
      exact ordered.begun owner later here
  case queued =>
    intro owner later here live
    rw [published]
    rw [entries] at here
    split at here
    · rename_i same
      cases here
      rw [stream, same]
      exact queued live
    · rename_i different
      rw [(untouched _ (others owner later different here)).1]
      exact ordered.queued owner later here live
  case absent =>
    intro owner gone
    rw [published]
    rw [entries] at gone
    split at gone
    · cases gone
    · exact ordered.absent owner gone
  case serial =>
    intro owner later here
    rw [entries] at here
    split at here
    · cases here
      rw [stream]
      exact serial
    · rename_i different
      have same := untouched _ (others owner later different here)
      rw [same.1, same.2]
      exact ordered.serial owner later here
  case unbound =>
    intro call free
    have before : ∀ owner earlier, service.entry owner = some earlier →
        earlier.responseStream ≠ call := by
      intro owner earlier here
      by_cases same : owner = workerId
      · subst same
        rw [found, Option.some.injEq] at here
        rw [← here, ← stream]
        exact free owner changed (by rw [entries, if_pos rfl])
      · exact free owner earlier (by rw [entries, if_neg same]; exact here)
    have same := untouched call (before workerId subscription found)
    rw [same.1, same.2]
    exact ordered.unbound call before
  case single =>
    intro first second one other oneHere otherHere same
    obtain ⟨oneOld, oneFound, oneStream⟩ := origin first one oneHere
    obtain ⟨otherOld, otherFound, otherStream⟩ := origin second other otherHere
    exact ordered.single _ _ _ _ oneFound otherFound (oneStream ▸ otherStream ▸ same)
  case fresh =>
    intro call waiting owner later here
    obtain ⟨earlier, old, same⟩ := origin owner later here
    rw [calls] at waiting
    exact same ▸ ordered.fresh call waiting owner earlier old

theorem Ordered.write {seen out : List ServiceObservation} {service after : FunctionRpcService}
    (ordered : Ordered seen service) {workerId : String} {succeeds : Bool}
    (stepped : service.step (.write workerId succeeds) = some (after, out)) :
    Ordered (seen ++ out) after := by
  obtain ⟨subscription, event, rest, found, live, ready, queue, calls, entries, rfl⟩ :=
    FunctionRpcService.write_some stepped
  set observation :=
    ServiceObservation.attempted subscription.responseStream event succeeds with shown
  have attempts : (seen ++ [observation]).filterMap (attemptedOn subscription.responseStream) =
      seen.filterMap (attemptedOn subscription.responseStream) ++ [event] := by
    simp [List.filterMap_append, shown, attemptedOn]
  have returns : (seen ++ [observation]).filterMap (returnedOn subscription.responseStream) =
      seen.filterMap (returnedOn subscription.responseStream) := by
    simp [List.filterMap_append, shown, returnedOn]
  have conserved := ordered.queued workerId subscription found live
  rw [queue] at conserved
  refine ordered.advance found calls entries rfl (by simp [shown, publishedLive])
    (fun call different => by simp [shown, attemptedOn, returnedOn, different]) ?_ (fun _ => ?_) ?_
  · rw [attempts, ← conserved]
    exact ⟨rest, by simp⟩
  · rw [attempts, ← conserved]
    simp
  · have serial := ordered.serial workerId subscription found
    rw [ready] at serial
    simpa [attempts, returns] using serial

theorem Ordered.written {seen out : List ServiceObservation} {service after : FunctionRpcService}
    (ordered : Ordered seen service) {workerId : String}
    (stepped : service.step (.written workerId) = some (after, out)) :
    Ordered (seen ++ out) after := by
  obtain ⟨subscription, found, pending, calls, entries, rfl⟩ :=
    FunctionRpcService.written_some stepped
  set observation := ServiceObservation.returned subscription.responseStream with shown
  have attempts : (seen ++ [observation]).filterMap (attemptedOn subscription.responseStream) =
      seen.filterMap (attemptedOn subscription.responseStream) := by
    simp [List.filterMap_append, shown, attemptedOn]
  have returns : (seen ++ [observation]).filterMap (returnedOn subscription.responseStream) =
      seen.filterMap (returnedOn subscription.responseStream) ++ [()] := by
    simp [List.filterMap_append, shown, returnedOn]
  refine ordered.advance found calls entries rfl (by simp [shown, publishedLive])
    (fun call different => by simp [shown, attemptedOn, returnedOn, different]) ?_
    (fun live => ?_) ?_
  · rw [attempts]
    exact ordered.begun workerId subscription found
  · rw [attempts]
    exact ordered.queued workerId subscription found live
  · have serial := ordered.serial workerId subscription found
    rw [pending, if_pos rfl] at serial
    simpa [attempts, returns] using serial

theorem Ordered.step {seen out : List ServiceObservation} {service after : FunctionRpcService}
    (ordered : Ordered seen service) {action : ServiceAction}
    (stepped : service.step action = some (after, out)) : Ordered (seen ++ out) after := by
  have idle : ∀ call, after.Idle call → service.Idle call := fun call waiting =>
    (FunctionRpcService.idle_of_step stepped waiting).1
  cases action with
  | start call =>
    obtain ⟨_, rfl, rfl⟩ := FunctionRpcService.start_some stepped
    exact ordered.frame (by simp) (fun _ => .inl rfl) idle
  | receiveFirst call message =>
    obtain ⟨waiting, rest⟩ := FunctionRpcService.receiveFirst_some stepped
    cases content : message.startStream with
    | none =>
      rw [content] at rest
      obtain ⟨rfl, rfl⟩ := rest
      exact ordered.frame (by simp [quiet])
        (fun owner => .inr (service.entry_finallyBlock call owner)) idle
    | some startStream =>
      rw [content] at rest
      obtain ⟨rfl, rfl⟩ := rest
      cases found : service.entry startStream.workerId with
      | none => exact ordered.subscribe (by simp [quiet]) waiting found
      | some subscription =>
        -- The entry that is there stays, whatever has become of its stream.
        refine ordered.frame (by simp [quiet]) (fun owner => .inl ?_) idle
        rw [FunctionRpcService.entry_handshake, found, Option.getD_some]
        split
        · rename_i same
          rw [same, found]
        · rfl
  | receive call message =>
    obtain ⟨_, _, rfl, rfl⟩ := FunctionRpcService.receive_some stepped
    exact ordered.frame (by simp [quiet]) (fun _ => .inl rfl) idle
  | finish call how =>
    obtain ⟨_, rfl, rfl⟩ := FunctionRpcService.finish_some stepped
    exact ordered.frame (by simp [quiet])
      (fun owner => .inr (service.entry_finallyBlock call owner)) idle
  | outbound event =>
    obtain ⟨rfl, rfl⟩ := FunctionRpcService.outbound_some stepped
    exact ordered.publish event
  | write workerId succeeds => exact ordered.write stepped
  | written workerId => exact ordered.written stepped

theorem ordered_of_run {actions : List ServiceAction} {seen : List ServiceObservation}
    {service : FunctionRpcService} (run : serviceMachine.Run actions seen service) :
    Ordered seen service := by
  refine run.invariant ?_ fun _ _ _ _ _ _ _ ordered stepped => ordered.step stepped
  constructor <;> simp [serviceMachine, FunctionRpcService.initial, FunctionRpcService.entry]

end BenchmarkHost
