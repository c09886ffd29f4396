import BenchmarkHost.Service.EventStream

/-! What the end of one `EventStream` call does to the others.

The table of subscriptions is shared and its entries are never removed: only
the first handshake naming a worker subscribes anything, and the end of any
call disposes everything. So a subscription is live exactly as long as no call
has ended since the handshake that created it.
-/

set_option autoImplicit false

namespace BenchmarkHost

open Library

namespace ServiceAction

def handshakes : ServiceAction → Option (CallId × String)
  | .receiveFirst call message =>
    message.startStream.map fun startStream => (call, startStream.workerId)
  | _ => none

/-- The call an action ends: by one of the ways a read loop stops, or by a first
message that is not a `StartStream`. -/
def endsCall : ServiceAction → Option CallId
  | .finish call _ => some call
  | .receiveFirst call message => if message.startStream.isNone then some call else none
  | _ => none

end ServiceAction

def Named (actions : List ServiceAction) (workerId : String) : Prop :=
  ∃ action ∈ actions, ∃ call, action.handshakes = some (call, workerId)

/-- The call made the first handshake naming the worker, and no call has ended
since. -/
def Lasting (actions : List ServiceAction) (call : CallId) (workerId : String) : Prop :=
  ∃ earlier action later, actions = earlier ++ action :: later ∧
    action.handshakes = some (call, workerId) ∧ ¬ Named earlier workerId ∧
    ∀ other ∈ later, other.endsCall = none

theorem named_snoc {actions : List ServiceAction} {action : ServiceAction} {workerId : String} :
    Named (actions ++ [action]) workerId ↔
      Named actions workerId ∨ ∃ call, action.handshakes = some (call, workerId) := by
  simp only [Named, List.mem_append, List.mem_singleton, or_and_right, exists_or, exists_eq_left]

theorem lasting_snoc {actions : List ServiceAction} {action : ServiceAction} {call : CallId}
    {workerId : String} :
    Lasting (actions ++ [action]) call workerId ↔
      Lasting actions call workerId ∧ action.endsCall = none ∨
        action.handshakes = some (call, workerId) ∧ ¬ Named actions workerId := by
  constructor
  · rintro ⟨earlier, first, later, split, handshake, fresh, quiet⟩
    rcases List.eq_nil_or_concat later with rfl | ⟨rest, last, rfl⟩
    · obtain ⟨rfl, same⟩ := List.append_inj' split rfl
      cases same
      exact .inr ⟨handshake, fresh⟩
    · rw [List.concat_eq_append, ← List.cons_append, ← List.append_assoc] at split
      obtain ⟨rfl, same⟩ := List.append_inj' split rfl
      cases same
      refine .inl ⟨⟨earlier, first, rest, rfl, handshake, fresh, fun other member => ?_⟩, ?_⟩
      · exact quiet other (by simp [member])
      · exact quiet action (by simp)
  · rintro (⟨⟨earlier, first, later, rfl, handshake, fresh, quiet⟩, harmless⟩ | ⟨handshake, fresh⟩)
    · refine ⟨earlier, first, later ++ [action], by simp, handshake, fresh, fun other member => ?_⟩
      rcases List.mem_append.mp member with before | last
      · exact quiet other before
      · rw [List.mem_singleton.mp last]
        exact harmless
    · exact ⟨actions, action, [], rfl, handshake, fresh, by simp⟩

namespace FunctionRpcService

def binding (service : FunctionRpcService) (workerId : String) : Option (CallId × Bool) :=
  (service.entry workerId).map fun subscription => (subscription.responseStream, subscription.live)

theorem binding_eq_some {service : FunctionRpcService} {workerId : String} {call : CallId}
    {live : Bool} : service.binding workerId = some (call, live) ↔
      ∃ subscription, service.entry workerId = some subscription ∧
        subscription.responseStream = call ∧ subscription.live = live := by
  simp [binding]

theorem mem_recipients_iff {service : FunctionRpcService} {event : RpcEvent} {call : CallId} :
    call ∈ service.recipients event ↔ service.binding event.workerId = some (call, true) := by
  simp only [mem_recipients, binding_eq_some]
  exact exists_congr fun _ => and_congr_right fun _ => and_comm

theorem recipients_of_binding {service : FunctionRpcService} {event : RpcEvent} {call : CallId}
    (bound : service.binding event.workerId = some (call, true)) :
    service.recipients event = [call] := by
  obtain ⟨subscription, found, rfl, live⟩ := binding_eq_some.mp bound
  simp [recipients_eq, found, live]

/-- How one action changes the bindings and the calls. -/
structure Moves (action : ServiceAction) (service after : FunctionRpcService) : Prop where
  ends : ∀ call, action.endsCall = some call →
    after = service.finallyBlock call ∧ action.handshakes = none ∧
      (service.calls call = .awaitingFirst ∨ ∃ workerId, service.calls call = .serving workerId)
  handshakes : ∀ call workerId, action.handshakes = some (call, workerId) →
    after = service.handshake call workerId ∧ action.endsCall = none ∧
      service.calls call = .awaitingFirst
  keeps : action.endsCall = none → action.handshakes = none →
    (∀ workerId, after.binding workerId = service.binding workerId) ∧
      (∀ call workerId,
        after.calls call = .serving workerId ↔ service.calls call = .serving workerId) ∧
      ∀ call, service.calls call = .ended → after.calls call = .ended

theorem moves_of_step {service after : FunctionRpcService} {action : ServiceAction}
    {out : List ServiceObservation} (stepped : service.step action = some (after, out)) :
    Moves action service after := by
  cases action with
  | start call =>
    obtain ⟨unused, rfl, _⟩ := start_some stepped
    refine ⟨by simp [ServiceAction.endsCall], by simp [ServiceAction.handshakes],
      fun _ _ => ⟨fun _ => rfl, fun other workerId => ?_, fun other ended => ?_⟩⟩
    · by_cases same : other = call
      · subst other
        simp [setCall, unused]
      · simp [setCall, Function.update_of_ne same]
    · have different : other ≠ call := by
        rintro rfl
        rw [unused] at ended
        cases ended
      simpa [setCall, Function.update_of_ne different] using ended
  | receiveFirst call message =>
    obtain ⟨waiting, rest⟩ := receiveFirst_some stepped
    cases content : message.startStream with
    | none =>
      rw [content] at rest
      refine ⟨?_, by simp [ServiceAction.handshakes, content],
        by simp [ServiceAction.endsCall, content]⟩
      intro other same
      simp only [ServiceAction.endsCall, content, Option.isNone_none, if_true,
        Option.some.injEq] at same
      subst same
      exact ⟨rest.1, by simp [ServiceAction.handshakes, content], .inl waiting⟩
    | some startStream =>
      rw [content] at rest
      refine ⟨by simp [ServiceAction.endsCall, content], ?_,
        by simp [ServiceAction.handshakes, content]⟩
      intro other workerId same
      simp only [ServiceAction.handshakes, content, Option.map_some, Option.some.injEq,
        Prod.mk.injEq] at same
      obtain ⟨rfl, rfl⟩ := same
      exact ⟨rest.1, by simp [ServiceAction.endsCall, content], waiting⟩
  | receive call message =>
    obtain ⟨_, _, rfl, _⟩ := receive_some stepped
    exact ⟨by simp [ServiceAction.endsCall], by simp [ServiceAction.handshakes],
      fun _ _ => ⟨fun _ => rfl, fun _ _ => .rfl, fun _ ended => ended⟩⟩
  | finish call how =>
    obtain ⟨opened, rfl, _⟩ := finish_some stepped
    refine ⟨?_, by simp [ServiceAction.handshakes], by simp [ServiceAction.endsCall]⟩
    intro other same
    simp only [ServiceAction.endsCall, Option.some.injEq] at same
    subst same
    exact ⟨rfl, rfl, opened⟩
  | outbound event =>
    obtain ⟨rfl, _⟩ := outbound_some stepped
    refine ⟨by simp [ServiceAction.endsCall], by simp [ServiceAction.handshakes],
      fun _ _ => ⟨fun workerId => ?_, fun _ _ => .rfl, fun _ ended => ended⟩⟩
    unfold binding
    rw [entry_onNext]
    split
    · cases service.entry workerId <;> simp [OutboundSubscription.onNext, apply_ite]
    · rfl
  | write workerId succeeds =>
    obtain ⟨subscription, event, rest, found, _, _, _, calls, entries, _⟩ := write_some stepped
    refine ⟨by simp [ServiceAction.endsCall], by simp [ServiceAction.handshakes],
      fun _ _ => ⟨fun other => ?_, by simp [calls], by simp [calls]⟩⟩
    unfold binding
    rw [entries]
    split
    · subst other
      simp [found]
    · rfl
  | written workerId =>
    obtain ⟨subscription, found, _, calls, entries, _⟩ := written_some stepped
    refine ⟨by simp [ServiceAction.endsCall], by simp [ServiceAction.handshakes],
      fun _ _ => ⟨fun other => ?_, by simp [calls], by simp [calls]⟩⟩
    unfold binding
    rw [entries]
    split
    · subst other
      simp [found]
    · rfl

theorem binding_finallyBlock (service : FunctionRpcService) (call : CallId) (workerId : String) :
    (service.finallyBlock call).binding workerId =
      (service.binding workerId).map fun bound => (bound.1, false) := by
  unfold binding
  rw [entry_finallyBlock]
  cases service.entry workerId <;> rfl

theorem binding_handshake (service : FunctionRpcService) (call : CallId)
    (workerId other : String) :
    (service.handshake call workerId).binding other =
      if other = workerId then some ((service.binding workerId).getD (call, true))
      else service.binding other := by
  unfold binding
  rw [entry_handshake]
  split
  · cases service.entry workerId <;> rfl
  · rfl

end FunctionRpcService

open FunctionRpcService

/-- The table of subscriptions and the calls, read off the actions taken. -/
structure Sessions (actions : List ServiceAction) (service : FunctionRpcService) : Prop where
  entries : ∀ workerId, (service.binding workerId).isSome ↔ Named actions workerId
  live : ∀ call workerId,
    service.binding workerId = some (call, true) ↔ Lasting actions call workerId
  serving : ∀ call workerId,
    service.binding workerId = some (call, true) → service.calls call = .serving workerId
  told : ∀ action ∈ actions, ∀ call workerId, action.handshakes = some (call, workerId) →
    service.calls call = .serving workerId ∨ service.calls call = .ended
  drained : ∀ workerId subscription, service.entry workerId = some subscription →
    subscription.live = false → subscription.queue = []

theorem drained_step {service after : FunctionRpcService} {action : ServiceAction}
    {out : List ServiceObservation} (stepped : service.step action = some (after, out))
    (drained : ∀ workerId subscription, service.entry workerId = some subscription →
      subscription.live = false → subscription.queue = []) :
    ∀ workerId subscription, after.entry workerId = some subscription →
      subscription.live = false → subscription.queue = [] := by
  -- `Dispose` drops whatever is still queued.
  have disposed : ∀ call workerId subscription,
      (service.finallyBlock call).entry workerId = some subscription → subscription.queue = [] := by
    intro call workerId subscription found
    rw [entry_finallyBlock, Option.map_eq_some_iff] at found
    obtain ⟨_, _, rfl⟩ := found
    rfl
  intro workerId subscription found dead
  cases action with
  | start call =>
    obtain ⟨_, rfl, _⟩ := start_some stepped
    exact drained workerId subscription found dead
  | receiveFirst call message =>
    obtain ⟨_, rest⟩ := receiveFirst_some stepped
    cases content : message.startStream with
    | none =>
      rw [content] at rest
      exact disposed call workerId subscription (rest.1 ▸ found)
    | some startStream =>
      rw [content] at rest
      rw [rest.1, entry_handshake] at found
      split at found
      · cases old : service.entry startStream.workerId with
        | none =>
          simp only [old, Option.getD_none, Option.some.injEq] at found
          exact found ▸ rfl
        | some earlier =>
          simp only [old, Option.getD_some, Option.some.injEq] at found
          exact drained _ _ (found ▸ old) dead
      · exact drained workerId subscription found dead
  | receive call message =>
    obtain ⟨_, _, rfl, _⟩ := receive_some stepped
    exact drained workerId subscription found dead
  | finish call how =>
    obtain ⟨_, rfl, _⟩ := finish_some stepped
    exact disposed call workerId subscription found
  | outbound event =>
    obtain ⟨rfl, _⟩ := outbound_some stepped
    rw [entry_onNext] at found
    split at found
    · obtain ⟨earlier, old, rfl⟩ := Option.map_eq_some_iff.mp found
      unfold OutboundSubscription.onNext at dead ⊢
      split at dead
      · rename_i live
        simp [live] at dead
      · rename_i off
        simpa [off] using drained workerId earlier old dead
    · exact drained workerId subscription found dead
  | write owner succeeds =>
    obtain ⟨_, _, _, _, live, _, _, _, entries, _⟩ := write_some stepped
    rw [entries] at found
    split at found
    · cases found
      simp [live] at dead
    · exact drained workerId subscription found dead
  | written owner =>
    obtain ⟨earlier, old, _, _, entries, _⟩ := written_some stepped
    rw [entries] at found
    split at found
    · cases found
      exact drained owner earlier old dead
    · exact drained workerId subscription found dead

theorem Sessions.step {actions : List ServiceAction} {service after : FunctionRpcService}
    {action : ServiceAction} {out : List ServiceObservation} (sessions : Sessions actions service)
    (stepped : service.step action = some (after, out)) :
    Sessions (actions ++ [action]) after := by
  have moves := moves_of_step stepped
  have drained := drained_step stepped sessions.drained
  cases ends : action.endsCall with
  | some call =>
    obtain ⟨rfl, silent, _⟩ := moves.ends call ends
    constructor
    case entries =>
      intro workerId
      rw [named_snoc, silent, binding_finallyBlock, Option.isSome_map]
      simpa using sessions.entries workerId
    case live =>
      intro other workerId
      rw [lasting_snoc, ends, silent, binding_finallyBlock]
      cases service.binding workerId <;> simp
    case serving =>
      intro other workerId live
      rw [binding_finallyBlock] at live
      cases bound : service.binding workerId <;> simp [bound] at live
    case told =>
      intro earlier member other workerId handshake
      rcases List.mem_append.mp member with before | last
      · by_cases same : other = call
        · exact .inr (by simp [finallyBlock, setCall, same])
        · simpa [finallyBlock, setCall, Function.update_of_ne same] using
            sessions.told earlier before other workerId handshake
      · rw [List.mem_singleton.mp last, silent] at handshake
        cases handshake
    case drained => exact drained
  | none =>
    cases handshake : action.handshakes with
    | some pair =>
      obtain ⟨call, workerId⟩ := pair
      obtain ⟨rfl, _, waiting⟩ := moves.handshakes call workerId handshake
      -- The calling stream has not served anything before this handshake.
      have unserved : ∀ other owner, service.calls other = .serving owner → other ≠ call := by
        rintro other owner serving rfl
        rw [waiting] at serving
        cases serving
      constructor
      case entries =>
        intro owner
        rw [named_snoc, handshake, binding_handshake]
        split
        · subst owner
          simp
        · rename_i different
          simpa [Ne.symm different] using sessions.entries owner
      case live =>
        intro other owner
        rw [lasting_snoc, ends, handshake, binding_handshake]
        split
        · subst owner
          have named := sessions.entries workerId
          rw [← sessions.live, ← named]
          cases service.binding workerId <;> simp
        · rename_i different
          simpa [Ne.symm different] using sessions.live other owner
      case serving =>
        intro other owner live
        rw [binding_handshake] at live
        rw [calls_handshake]
        split at live
        · subst owner
          cases bound : service.binding workerId with
          | none =>
            rw [bound] at live
            cases live
            exact Function.update_self ..
          | some old =>
            rw [bound, Option.getD_some] at live
            have serving := sessions.serving other workerId (bound.trans live)
            rw [Function.update_of_ne (unserved _ _ serving)]
            exact serving
        · have serving := sessions.serving other owner live
          rw [Function.update_of_ne (unserved _ _ serving)]
          exact serving
      case told =>
        intro earlier member other owner shook
        rw [calls_handshake]
        rcases List.mem_append.mp member with before | last
        · have told := sessions.told earlier before other owner shook
          have different : other ≠ call := by
            rintro rfl
            rw [waiting] at told
            rcases told with told | told <;> cases told
          rw [Function.update_of_ne different]
          exact told
        · rw [List.mem_singleton.mp last, handshake] at shook
          cases shook
          exact .inl (Function.update_self ..)
      case drained => exact drained
    | none =>
      obtain ⟨bindings, calls, endings⟩ := moves.keeps ends handshake
      constructor
      case entries =>
        intro workerId
        rw [named_snoc, handshake, bindings]
        simpa using sessions.entries workerId
      case live =>
        intro other workerId
        rw [lasting_snoc, ends, handshake, bindings]
        simpa using sessions.live other workerId
      case serving =>
        intro other workerId live
        exact (calls other workerId).mpr
          (sessions.serving other workerId (bindings workerId ▸ live))
      case told =>
        intro earlier member other workerId shook
        rcases List.mem_append.mp member with before | last
        · exact (sessions.told earlier before other workerId shook).imp
            (calls other workerId).mpr (endings other)
        · rw [List.mem_singleton.mp last, handshake] at shook
          cases shook
      case drained => exact drained

theorem sessions_of_run {actions : List ServiceAction} {seen : List ServiceObservation}
    {service : FunctionRpcService} (run : serviceMachine.Run actions seen service) :
    Sessions actions service := by
  induction run with
  | start =>
    constructor <;>
      simp [serviceMachine, FunctionRpcService.initial, binding, entry, Named, Lasting]
  | next _ stepped ih => exact ih.step stepped

theorem handshook_of_handshakes {service after : FunctionRpcService} {action : ServiceAction}
    {out : List ServiceObservation} (stepped : service.step action = some (after, out))
    {call : CallId} {workerId : String} (handshake : action.handshakes = some (call, workerId)) :
    .handshook call workerId ∈ out := by
  cases action with
  | receiveFirst other message =>
    obtain ⟨_, rest⟩ := receiveFirst_some stepped
    simp only [ServiceAction.handshakes, Option.map_eq_some_iff] at handshake
    obtain ⟨startStream, content, same⟩ := handshake
    cases same
    rw [content] at rest
    simp [rest.2]
  | _ => cases handshake

theorem handshook_of_binding {actions : List ServiceAction} {seen : List ServiceObservation}
    {service : FunctionRpcService} (run : serviceMachine.Run actions seen service)
    {workerId : String} {call : CallId} {live : Bool}
    (bound : service.binding workerId = some (call, live)) : .handshook call workerId ∈ seen := by
  induction run generalizing live with
  | start => simp [serviceMachine, FunctionRpcService.initial, binding, entry] at bound
  | @next actions seen out state after action earlier stepped ih =>
    have moves := moves_of_step stepped
    cases ends : action.endsCall with
    | some other =>
      obtain ⟨rfl, _⟩ := moves.ends other ends
      rw [binding_finallyBlock, Option.map_eq_some_iff] at bound
      obtain ⟨⟨stream, before⟩, found, same⟩ := bound
      cases same
      exact List.mem_append_left _ (ih found)
    | none =>
      cases handshake : action.handshakes with
      | some pair =>
        obtain ⟨rfl, _⟩ := moves.handshakes pair.1 pair.2 handshake
        rw [binding_handshake] at bound
        split at bound
        · rename_i same
          subst same
          cases found : state.binding pair.2 with
          | none =>
            rw [found] at bound
            cases bound
            exact List.mem_append_right _ (handshook_of_handshakes stepped handshake)
          | some old =>
            rw [found] at bound
            exact List.mem_append_left _ (ih (found.trans bound))
        · exact List.mem_append_left _ (ih bound)
      | none =>
        rw [(moves.keeps ends handshake).1] at bound
        exact List.mem_append_left _ (ih bound)

theorem named_of_handshook {actions : List ServiceAction} {seen : List ServiceObservation}
    {service : FunctionRpcService} (run : serviceMachine.Run actions seen service)
    {workerId : String} {call : CallId} (shook : .handshook call workerId ∈ seen) :
    Named actions workerId := by
  induction run with
  | start => cases shook
  | next earlier stepped ih =>
    rw [named_snoc]
    rcases List.mem_append.mp shook with before | now
    · exact .inl (ih before)
    · obtain ⟨message, rfl, content⟩ := handshook_cases stepped now
      exact .inr ⟨call, by rw [ServiceAction.handshakes, content]; rfl⟩

theorem handshook_of_serving {actions : List ServiceAction} {seen : List ServiceObservation}
    {service : FunctionRpcService} (run : serviceMachine.Run actions seen service)
    {workerId : String} {call : CallId} (serving : service.calls call = .serving workerId) :
    .handshook call workerId ∈ seen := by
  induction run with
  | start => cases serving
  | @next actions seen out state after action earlier stepped ih =>
    have moves := moves_of_step stepped
    cases ends : action.endsCall with
    | some other =>
      obtain ⟨rfl, _⟩ := moves.ends other ends
      have different : call ≠ other := by
        rintro rfl
        simp [finallyBlock, setCall] at serving
      refine List.mem_append_left _ (ih ?_)
      simpa [finallyBlock, setCall, Function.update_of_ne different] using serving
    | none =>
      cases handshake : action.handshakes with
      | some pair =>
        obtain ⟨rfl, _⟩ := moves.handshakes pair.1 pair.2 handshake
        rw [calls_handshake] at serving
        by_cases same : call = pair.1
        · subst same
          rw [Function.update_self] at serving
          cases serving
          exact List.mem_append_right _ (handshook_of_handshakes stepped handshake)
        · rw [Function.update_of_ne same] at serving
          exact List.mem_append_left _ (ih serving)
      | none =>
        exact List.mem_append_left _ (ih (((moves.keeps ends handshake).2.1 _ _).mp serving))

/-! ### One end and the other calls -/

/-- The end of a call makes nothing dead but the subscription that writes to its
own stream: another worker with an open call is served as before. -/
structure EndIsolated (call : CallId) (before after : FunctionRpcService) : Prop where
  others : ∀ workerId subscription, before.entry workerId = some subscription →
    subscription.responseStream ≠ call → after.entry workerId = some subscription
  served : ∀ other workerId, before.calls other = .serving workerId →
    before.calls call ≠ .serving workerId → ∀ event, event.workerId = workerId →
      after.recipients event = before.recipients event

theorem Sessions.end_isolated_iff {actions : List ServiceAction}
    {service after : FunctionRpcService} {action : ServiceAction} {out : List ServiceObservation}
    (sessions : Sessions actions service) (stepped : service.step action = some (after, out))
    {call : CallId} (ends : action.endsCall = some call) :
    EndIsolated call service after ↔
      ∀ other workerId, Lasting actions other workerId → other = call := by
  obtain ⟨rfl, _, _⟩ := (moves_of_step stepped).ends call ends
  constructor
  · intro isolated other workerId lasting
    by_contra different
    obtain ⟨subscription, found, rfl, live⟩ :=
      binding_eq_some.mp ((sessions.live other workerId).mpr lasting)
    -- The finally block has disposed of an entry it should have left alone.
    have kept := isolated.others workerId subscription found different
    rw [entry_finallyBlock, found, Option.map_some, Option.some.injEq] at kept
    rw [← kept] at live
    cases live
  · intro alone
    constructor
    · intro workerId subscription found foreign
      have dead : subscription.live = false := by
        by_contra live
        rw [Bool.not_eq_false] at live
        exact foreign (alone _ workerId
          ((sessions.live _ _).mp (binding_eq_some.mpr ⟨subscription, found, rfl, live⟩)))
      have empty := sessions.drained workerId subscription found dead
      rw [entry_finallyBlock, found, Option.map_some]
      rcases subscription with ⟨stream, live, queue, writing⟩
      simp only at dead empty
      -- Disposing a dead subscription once more changes nothing.
      simp [OutboundSubscription.dispose, dead, empty]
    · rintro other workerId _ unserved event rfl
      have none_before : service.recipients event = [] := by
        rw [List.eq_nil_iff_forall_not_mem]
        intro stream member
        have live := mem_recipients_iff.mp member
        have same := alone _ _ ((sessions.live _ _).mp live)
        subst same
        exact unserved (sessions.serving _ _ live)
      rw [none_before, List.eq_nil_iff_forall_not_mem]
      intro stream member
      have live := mem_recipients_iff.mp member
      rw [binding_finallyBlock] at live
      cases bound : service.binding event.workerId <;> simp [bound] at live

/-- Every end in the run leaves the other calls alone. -/
def EndsIsolated (actions : List ServiceAction) : Prop :=
  ∀ earlier action later call, actions = earlier ++ action :: later →
    action.endsCall = some call → ∀ seen before after out,
      serviceMachine.Run earlier seen before → before.step action = some (after, out) →
      EndIsolated call before after

/-- Whenever a call ends, no other call has made the first handshake of some
worker since the last end before it. -/
def EndsAlone (actions : List ServiceAction) : Prop :=
  ∀ earlier action later call, actions = earlier ++ action :: later →
    action.endsCall = some call → ∀ other workerId, Lasting earlier other workerId → other = call

def FirstHandshake (actions : List ServiceAction) (call : CallId) (workerId : String) : Prop :=
  ∃ earlier action later, actions = earlier ++ action :: later ∧
    action.handshakes = some (call, workerId) ∧ ¬ Named earlier workerId

theorem firstHandshake_snoc {actions : List ServiceAction} {action : ServiceAction}
    {call : CallId} {workerId : String}
    (first : FirstHandshake (actions ++ [action]) call workerId) :
    FirstHandshake actions call workerId ∨
      action.handshakes = some (call, workerId) ∧ ¬ Named actions workerId := by
  obtain ⟨earlier, shook, later, split, handshake, fresh⟩ := first
  rcases List.eq_nil_or_concat later with rfl | ⟨rest, last, rfl⟩
  · obtain ⟨rfl, same⟩ := List.append_inj' split rfl
    cases same
    exact .inr ⟨handshake, fresh⟩
  · rw [List.concat_eq_append, ← List.cons_append, ← List.append_assoc] at split
    obtain ⟨rfl, _⟩ := List.append_inj' split rfl
    exact .inl ⟨earlier, shook, rest, rfl, handshake, fresh⟩

theorem FirstHandshake.handshakes {actions : List ServiceAction} {call : CallId}
    {workerId : String} (first : FirstHandshake actions call workerId) :
    ∃ action ∈ actions, action.handshakes = some (call, workerId) := by
  obtain ⟨earlier, action, later, rfl, handshake, _⟩ := first
  exact ⟨action, by simp, handshake⟩

/-- As long as calls end alone, the subscription made for a worker lasts until
the call it writes to is over. -/
theorem lasting_of_endsAlone {actions : List ServiceAction} {seen : List ServiceObservation}
    {service : FunctionRpcService} (run : serviceMachine.Run actions seen service)
    (alone : EndsAlone actions) {call : CallId} {workerId : String}
    (first : FirstHandshake actions call workerId)
    (serving : service.calls call = .serving workerId) : Lasting actions call workerId := by
  induction run with
  | start => obtain ⟨_, _, _, split, _⟩ := first; simp at split
  | @next actions seen out state after action earlier stepped ih =>
    have aloneBefore : EndsAlone actions := by
      rintro front ending later other rfl
      exact alone front ending (later ++ [action]) other (by simp)
    have moves := moves_of_step stepped
    rw [lasting_snoc]
    rcases firstHandshake_snoc first with before | now
    · left
      cases ends : action.endsCall with
      | some other =>
        obtain ⟨rfl, _, _⟩ := moves.ends other ends
        -- The call that ends is another one, and it would not end alone.
        have different : call ≠ other := by
          rintro rfl
          simp [finallyBlock, setCall] at serving
        have lasting := ih aloneBefore before
          (by simpa [finallyBlock, setCall, Function.update_of_ne different] using serving)
        exact absurd (alone actions action [] other rfl ends call workerId lasting) different
      | none =>
        refine ⟨ih aloneBefore before ?_, rfl⟩
        cases handshake : action.handshakes with
        | some pair =>
          obtain ⟨other, owner⟩ := pair
          obtain ⟨rfl, _, waiting⟩ := moves.handshakes other owner handshake
          obtain ⟨shook, member, own⟩ := before.handshakes
          have told := (sessions_of_run earlier).told shook member call workerId own
          -- A stream makes one handshake, so this one is another stream's.
          have different : call ≠ other := by
            rintro rfl
            rw [waiting] at told
            rcases told with told | told <;> cases told
          rwa [calls_handshake, Function.update_of_ne different] at serving
        | none => exact ((moves.keeps ends handshake).2.1 call workerId).mp serving
    · exact .inr now

/-- An end leaves the other calls alone exactly when no other call's
subscription has been made since the last end; and in a run where every end
meets that, each worker is served until its own stream is over. -/
theorem ends_isolated_iff {actions : List ServiceAction} {seen : List ServiceObservation}
    {service : FunctionRpcService} (run : serviceMachine.Run actions seen service) :
    (EndsIsolated actions ↔ EndsAlone actions) ∧
    (∀ action call after out, action.endsCall = some call →
      service.step action = some (after, out) →
      (EndIsolated call service after ↔
        ∀ other workerId, Lasting actions other workerId → other = call)) ∧
    (EndsAlone actions → ∀ call workerId, FirstHandshake actions call workerId →
      service.calls call = .serving workerId →
      ∀ event, event.workerId = workerId → service.recipients event = [call]) := by
  refine ⟨⟨fun isolated => ?_, fun alone => ?_⟩, fun action call after out ends stepped => ?_, ?_⟩
  · rintro earlier action later call rfl ends
    obtain ⟨before, state, rest, front, executed, _⟩ := run.split
    obtain ⟨after, out, _, stepped, _, _⟩ := serviceMachine.exec_cons executed
    exact ((sessions_of_run front).end_isolated_iff stepped ends).mp
      (isolated earlier action later call rfl ends before state after out front stepped)
  · rintro earlier action later call split ends before state after out front stepped
    exact ((sessions_of_run front).end_isolated_iff stepped ends).mpr
      (alone earlier action later call split ends)
  · exact (sessions_of_run run).end_isolated_iff stepped ends
  · rintro alone call workerId first serving event rfl
    exact recipients_of_binding (((sessions_of_run run).live _ _).mpr
      (lasting_of_endsAlone run alone first serving))

def twoWorkers : List ServiceAction :=
  [.start 0, .receiveFirst 0 { content := .startStream ⟨"a"⟩ },
    .start 1, .receiveFirst 1 { content := .startStream ⟨"b"⟩ }]

theorem ends_isolated_iff_two_workers :
    ∃ before seen after out, serviceMachine.exec .initial twoWorkers = some (before, seen) ∧
      before.step (.finish 0 .completed) = some (after, out) ∧
      (EndIsolated 0 before after ↔
        ∀ other workerId, Lasting twoWorkers other workerId → other = 0) ∧
      (EndsIsolated (twoWorkers ++ [.finish 0 .completed]) ↔
        EndsAlone (twoWorkers ++ [.finish 0 .completed])) := by
  have run := @Machine.Run.of_exec _ _ _ serviceMachine twoWorkers _ _ rfl
  refine ⟨_, _, _, _, rfl, rfl, ?_, ?_⟩
  · exact (ends_isolated_iff run).2.1 (.finish 0 .completed) 0 _ _ rfl rfl
  · have whole := @Machine.Run.of_exec _ _ _ serviceMachine
      (twoWorkers ++ [.finish 0 .completed]) _ _ rfl
    exact (ends_isolated_iff whole).1

/-- Worker `b` is still connected and no event reaches it any more. -/
theorem end_not_isolated :
    ∃ before seen after out, serviceMachine.exec .initial twoWorkers = some (before, seen) ∧
      before.step (.finish 0 .completed) = some (after, out) ∧
      after.calls 1 = .serving "b" ∧
      before.recipients ⟨"b", {}⟩ = [1] ∧ after.recipients ⟨"b", {}⟩ = [] ∧
      ¬ EndIsolated 0 before after := by
  refine ⟨_, _, _, _, rfl, rfl, rfl, by decide, by decide, fun isolated => ?_⟩
  have kept := isolated.served 1 "b" rfl (by decide) ⟨"b", {}⟩ rfl
  revert kept
  decide

/-! ### Reconnecting -/

/-- An event for the worker published now is handed to one stream, and that
stream belongs to an open call of the worker. -/
def ServedOnce (service : FunctionRpcService) (workerId : String) : Prop :=
  ∀ event, event.workerId = workerId →
    ∃ call, service.recipients event = [call] ∧ service.calls call = .serving workerId

/-- A worker's events are served exactly as long as no call has ended since the
first handshake that named it, whether or not it has connected again. -/
theorem served_once_iff {actions : List ServiceAction} {seen : List ServiceObservation}
    {service : FunctionRpcService} (run : serviceMachine.Run actions seen service)
    {workerId : String} :
    ServedOnce service workerId ↔ ∃ first, Lasting actions first workerId := by
  have sessions := sessions_of_run run
  constructor
  · intro served
    obtain ⟨first, handed, _⟩ := served ⟨workerId, {}⟩ rfl
    have live := mem_recipients_iff.mp (handed ▸ List.mem_singleton_self first)
    exact ⟨first, (sessions.live _ _).mp live⟩
  · rintro ⟨first, lasting⟩ event rfl
    have live := (sessions.live _ _).mpr lasting
    exact ⟨first, recipients_of_binding live, sessions.serving _ _ live⟩

def overlappingSessions : List ServiceAction :=
  [.start 0, .receiveFirst 0 { content := .startStream ⟨"w"⟩ },
    .start 1, .receiveFirst 1 { content := .startStream ⟨"w"⟩ }]

theorem served_once_iff_overlapping :
    ∃ service seen, serviceMachine.exec .initial overlappingSessions = some (service, seen) ∧
      (ServedOnce service "w" ↔ ∃ first, Lasting overlappingSessions first "w") :=
  ⟨_, _, rfl, served_once_iff
    (@Machine.Run.of_exec _ _ _ serviceMachine overlappingSessions _ _ rfl)⟩

def reconnection : List ServiceAction :=
  [.start 0, .receiveFirst 0 { content := .startStream ⟨"w"⟩ }, .finish 0 .completed,
    .start 1, .receiveFirst 1 { content := .startStream ⟨"w"⟩ }]

theorem reconnection_unserved :
    ∃ service seen, serviceMachine.exec .initial reconnection = some (service, seen) ∧
      service.calls 1 = .serving "w" ∧ service.recipients ⟨"w", {}⟩ = [] ∧
      ¬ ServedOnce service "w" := by
  refine ⟨_, _, rfl, rfl, by decide, fun served => ?_⟩
  obtain ⟨call, handed, _⟩ := served ⟨"w", {}⟩ rfl
  have empty : ([] : List CallId) = [call] := handed
  cases empty

end BenchmarkHost
