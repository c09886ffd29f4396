import BenchmarkHost.Composition.Routing
import BenchmarkHost.Composition.System

/-! Where the invocations of a worker are.

From its publication to its completion an invocation is held by one queue or
stream at a time. The parts it passes are first-in first-out, so their records
compose into one: what the channel has taken, followed by what is on the way,
is a subsequence of what was published, and all of it when nothing was lost.
-/

set_option autoImplicit false

namespace BenchmarkHost

open Library SystemObservation

namespace System

/-- The invocations carried for a worker and one of its calls, in the order in
which the channel would take them. -/
def carried (system : System) (workerId : String) (call : CallId) : List String :=
  system.host.awaitingIds workerId ++ system.pair.inFlight call ++
    system.pair.service.queued workerId

/-- The invocations carried for a worker, on the stream its entry writes to. -/
def held (system : System) (workerId : String) : List String :=
  (system.pair.service.stream workerId).elim [] (system.carried workerId)

end System

theorem completed_sublist (workerId : String) (seen : List HostObservation) :
    (completedIds workerId seen).Sublist (seen.filterMap (·.takenId workerId)) := by
  rw [completedIds, List.map_filterMap]
  refine filterMap_sublist (fun observation id shown => ?_) _
  cases observation with
  | resultSet owner context value =>
    by_cases same : owner = workerId <;>
      simp_all [HostObservation.completedOn, HostObservation.takenId]
  | _ => simp [HostObservation.completedOn] at shown

theorem awaitingIds_of_exec {host after : Host} (named : host.Named) {events : List RpcEvent}
    {out : List HostObservation} (workerId : String)
    (executed : hostMachine.exec host (events.map .inbound) = some (after, out)) :
    after.awaitingIds workerId = host.awaitingIds workerId ++
      if (host.channels workerId).isSome then out.filterMap (·.returnedId workerId) else [] := by
  induction events generalizing host out with
  | nil =>
    cases executed
    simp
  | cons event rest ih =>
    obtain ⟨between, first, later, stepped, remaining, rfl⟩ := hostMachine.exec_cons executed
    obtain ⟨rfl, rfl⟩ := Host.step_inbound stepped
    have renamed : (host.inbound event).1.Named :=
      named.step (show host.step (.inbound event) = some (_, [.inbound event]) from rfl)
    rw [ih renamed remaining, Host.awaitingIds_inbound named, Host.channels_inbound,
      Option.isSome_map, List.filterMap_append]
    split <;> simp

theorem ServiceObservation.sentId_of_acceptedId {workerId id : String}
    {observation : ServiceObservation} (accepted : observation.acceptedId workerId = some id) :
    observation.sentId workerId = some id := by
  cases observation with
  | outbound event recipients =>
    simp only [ServiceObservation.acceptedId, ServiceObservation.publishedLive,
      Option.bind_eq_some_iff, Option.ite_none_right_eq_some, Option.some.injEq] at accepted
    obtain ⟨_, ⟨⟨same, _⟩, rfl⟩, carries⟩ := accepted
    simp [ServiceObservation.sentId, same, carries]
  | _ => simp [ServiceObservation.acceptedId, ServiceObservation.publishedLive] at accepted

section
variable {workerOf : CallId → String} {actions : List SystemAction}
  {seen : List SystemObservation} {system : System}
  (run : (systemMachine workerOf).Run actions seen system)

include run

theorem sent_same (workerId : String) : (hostSeen seen).filterMap (·.sentId workerId) =
    (serviceSeen seen).filterMap (·.sentId workerId) :=
  filterMap_same
    (fun event => if event.workerId = workerId then event.message.requestedId else none)
    (fun observation => by cases observation <;> rfl)
    (fun observation => by cases observation <;> rfl) (published_same run)

theorem returns_same (workerId : String) : (hostSeen seen).filterMap (·.returnedId workerId) =
    (serviceSeen seen).filterMap (·.returnedId workerId) :=
  filterMap_same
    (fun event => if event.workerId = workerId then event.message.respondedId else none)
    (fun observation => by cases observation <;> rfl)
    (fun observation => by cases observation <;> rfl) (returned_same run)

theorem accepted_sublist (workerId : String) :
    ((serviceSeen seen).filterMap (·.acceptedId workerId)).Sublist
      ((hostSeen seen).filterMap (·.sentId workerId)) := by
  rw [sent_same run]
  exact filterMap_sublist (fun _ _ => ServiceObservation.sentId_of_acceptedId) _

theorem returned_accepted (workerId : String) :
    ((serviceSeen seen).filterMap (·.returnedId workerId)).Sublist
      ((serviceSeen seen).filterMap (·.acceptedId workerId)) := by
  obtain ⟨schedule, pair⟩ := pair_run run
  cases bound : system.pair.service.stream workerId with
  | none =>
    have nothing := returned_of_run pair workerId
    rw [bound] at nothing
    rw [serviceSeen, nothing]
    exact List.nil_sublist _
  | some call => exact (List.sublist_append_left _ _).trans (returns_pass pair bound).order

theorem sent_registered {workerId id : String}
    (sent : id ∈ (hostSeen seen).filterMap (·.sentId workerId)) :
    id ∈ registeredIds workerId (hostSeen seen) := by
  obtain ⟨schedule, host⟩ := host_run run
  exact (dispatched_of_run host).sent workerId id sent

end

theorem taken_history {workerOf : CallId → String} {actions : List SystemAction}
    {seen : List SystemObservation} {system : System}
    (run : (systemMachine workerOf).Run actions seen system) (workerId : String) :
    (hostSeen seen).filterMap (·.takenId workerId) ++ system.host.awaitingIds workerId =
      (hostSeen seen).filterMap (·.returnedId workerId) := by
  induction run with
  | start => rfl
  | @next actions seen out system after action earlier stepped ih =>
    obtain ⟨schedule, host⟩ := host_run earlier
    have correlated := correlated_of_run host
    have whole := earlier.next stepped
    unfold hostSeen at ih ⊢
    simp only [List.filterMap_append] at ih ⊢
    rcases System.step_cases stepped with ⟨part, shown, heard, _, foreign, moved, executed, rfl⟩ |
      ⟨part, shown, heard, _, _, _, executed, rfl⟩
    · rw [(System.hostPart_parts _ _).1]
      have silent : shown.filterMap (·.returnedId workerId) = [] := by
        have events := System.inboundEvent_of_step correlated moved foreign
        rw [List.filterMap_eq_nil_iff] at events ⊢
        intro observation member
        have nothing := events observation member
        cases observation <;> first | rfl | cases nothing
      have taken := taken_of_step correlated moved workerId
      rw [silent] at taken ⊢
      simp only [ite_self, List.append_nil] at taken ⊢
      rw [List.append_assoc, taken, ih]
    · have inbound := System.exec_inbound executed
      have awaiting := awaitingIds_of_exec correlated.named workerId executed
      rw [(System.pairPart_parts _ _).1]
      have untaken : heard.filterMap (·.takenId workerId) = [] := by
        rw [inbound]
        exact filterMap_map_none (fun _ => by rfl) _
      rw [untaken, List.append_nil, awaiting, ← List.append_assoc, ih]
      split
      · rfl
      · -- Without a channel nothing was registered, so nothing comes back.
        rename_i absent
        have nothing : heard.filterMap (·.returnedId workerId) = [] := by
          rw [List.eq_nil_iff_forall_not_mem]
          intro id back
          have returned : id ∈ (hostSeen (seen ++ (shown.map .pair ++ heard.map .host))).filterMap
              (·.returnedId workerId) := by
            rw [hostSeen, List.filterMap_append, List.filterMap_append,
              (System.pairPart_parts _ _).1]
            exact List.mem_append_right _ back
          rw [returns_same whole] at returned
          have registered := sent_registered whole
            ((accepted_sublist whole workerId).subset
              ((returned_accepted whole workerId).subset returned))
          rw [hostSeen, List.filterMap_append, (System.pairPart_parts _ _).1, registeredIds_append,
            List.mem_append] at registered
          rcases registered with before | now
          · exact absent (channel_of_registered host before)
          · rw [inbound] at now
            obtain ⟨context, member, _⟩ := mem_registeredIds.mp now
            simp at member
        rw [nothing, List.append_nil]

section
variable {workerOf : CallId → String} {actions : List SystemAction}
  {seen : List SystemObservation} {system : System}
  (run : (systemMachine workerOf).Run actions seen system)

include run

/-- No handshake has named the worker: nothing was accepted and nothing is held. -/
theorem nothing_of_unnamed {workerId : String}
    (unnamed : system.pair.service.stream workerId = none) :
    (serviceSeen seen).filterMap (·.acceptedId workerId) = [] ∧
      (hostSeen seen).filterMap (·.takenId workerId) = [] ∧
      system.host.awaitingIds workerId = [] ∧ system.pair.service.queued workerId = [] := by
  obtain ⟨schedule, pair⟩ := pair_run run
  obtain ⟨_, service⟩ := service_run pair
  have returned : (serviceSeen seen).filterMap (·.returnedId workerId) = [] := by
    have returned := returned_of_run pair workerId
    rwa [unnamed] at returned
  have taken := taken_history run workerId
  rw [returns_same run, returned, List.append_eq_nil_iff] at taken
  have vacant : system.pair.service.entry workerId = none := by
    simpa [FunctionRpcService.stream, FunctionRpcService.binding] using unnamed
  have unheard : (serviceSeen seen).filterMap (·.publishedLive workerId) = [] :=
    (ordered_of_run service).absent workerId vacant
  have accepted : (serviceSeen seen).filterMap (·.acceptedId workerId) =
      ((serviceSeen seen).filterMap (·.publishedLive workerId)).filterMap
        (·.message.requestedId) := filterMap_through (fun _ => rfl) _
  refine ⟨?_, taken.1, taken.2, ?_⟩
  · rw [accepted, unheard]
    rfl
  · rw [FunctionRpcService.queued, vacant]
    rfl

theorem held_pass (workerId : String) :
    Passes (Reliable (pairSeen seen)) ((serviceSeen seen).filterMap (·.acceptedId workerId))
      ((hostSeen seen).filterMap (·.takenId workerId)) (system.held workerId) := by
  obtain ⟨schedule, pair⟩ := pair_run run
  unfold System.held
  cases bound : system.pair.service.stream workerId with
  | none =>
    obtain ⟨accepted, taken, _⟩ := nothing_of_unnamed run bound
    rw [accepted, taken]
    exact .exact _ rfl
  | some call =>
    have taken := taken_history run workerId
    rw [returns_same run] at taken
    have whole := (returns_pass pair bound).trans (.exact _ taken)
    rw [Option.elim_some, System.carried, List.append_assoc]
    exact whole

theorem carried_sublist (call : CallId) :
    (system.carried (workerOf call) call).Sublist (system.held (workerOf call)) := by
  obtain ⟨schedule, pair⟩ := pair_run run
  unfold System.held
  by_cases own : system.pair.service.stream (workerOf call) = some call
  · rw [own]
    exact .refl _
  · have silent := inFlight_of_unbound pair own
    cases bound : system.pair.service.stream (workerOf call) with
    | none =>
      obtain ⟨_, _, awaiting, queued⟩ := nothing_of_unnamed run bound
      rw [System.carried, silent, awaiting, queued]
      exact .refl _
    | some other =>
      rw [Option.elim_some, System.carried, System.carried, silent, List.append_nil]
      exact (List.sublist_append_left _ _).append_right _

theorem held_nodup (workerId : String) :
    ((hostSeen seen).filterMap (·.takenId workerId) ++ system.held workerId).Nodup := by
  obtain ⟨schedule, host⟩ := host_run run
  have sent := (dispatched_of_run host).once workerId
  exact (sent.sublist (accepted_sublist run workerId)).sublist (held_pass run workerId).order

theorem held_registered {workerId id : String} (held : id ∈ system.held workerId) :
    id ∈ registeredIds workerId (hostSeen seen) :=
  sent_registered run ((accepted_sublist run workerId).subset
    ((held_pass run workerId).order.subset (List.mem_append_right _ held)))

theorem held_pending {workerId id : String} (held : id ∈ system.held workerId) :
    ∃ context, system.host.executing workerId id = some context := by
  obtain ⟨schedule, host⟩ := host_run run
  rcases ((correlated_of_run host).covered id).mp (held_registered run held) with pending | done
  · exact pending
  · have taken := (completed_sublist workerId _).subset done
    exact absurd rfl ((List.nodup_append.mp (held_nodup run workerId)).2.2 id taken id held)

/-- Channels of different workers never wait for the same invocation. -/
theorem worker_of_registered {first second id : String}
    (one : id ∈ registeredIds first (hostSeen seen))
    (other : id ∈ registeredIds second (hostSeen seen)) : first = second := by
  obtain ⟨schedule, host⟩ := host_run run
  obtain ⟨context, member, same⟩ := mem_registeredIds.mp one
  obtain ⟨_, otherMember, otherSame⟩ := mem_registeredIds.mp other
  exact ((correlated_of_run host).unique _ _ _ _ member otherMember
    (.inl (same.trans otherSame.symm))).1

theorem held_of_awaiting {workerId id : String} (awaiting : id ∈ system.host.awaitingIds workerId) :
    id ∈ system.held workerId := by
  unfold System.held
  cases bound : system.pair.service.stream workerId with
  | none =>
    rw [(nothing_of_unnamed run bound).2.2.1] at awaiting
    cases awaiting
  | some call => exact List.mem_append_left _ (List.mem_append_left _ awaiting)

theorem held_of_inFlight {call : CallId} {id : String} (flying : id ∈ system.pair.inFlight call) :
    system.pair.service.stream (workerOf call) = some call ∧ id ∈ system.held (workerOf call) := by
  obtain ⟨schedule, pair⟩ := pair_run run
  have bound : system.pair.service.stream (workerOf call) = some call := by
    by_contra unbound
    rw [inFlight_of_unbound pair unbound] at flying
    cases flying
  refine ⟨bound, (carried_sublist run call).subset ?_⟩
  exact List.mem_append_left _ (List.mem_append_right _ flying)

theorem handled_accepted {call : CallId}
    (bound : system.pair.service.stream (workerOf call) = some call) :
    ((clientSeen call seen).filterMap (·.handledId)).Sublist
      ((serviceSeen seen).filterMap (·.acceptedId (workerOf call))) := by
  obtain ⟨schedule, pair⟩ := pair_run run
  obtain ⟨_, client⟩ := client_run pair call
  have received := (requests_pass pair bound).order
  rw [← (conveys_requests (workerOf call)).history client (by simp)] at received
  exact (List.sublist_append_left _ _).trans ((List.sublist_append_left _ _).trans received)

theorem bound_of_handled {call : CallId} {id : String}
    (handled : id ∈ (clientSeen call seen).filterMap (·.handledId)) :
    system.pair.service.stream (workerOf call) = some call := by
  obtain ⟨schedule, pair⟩ := pair_run run
  by_contra unbound
  have nothing := (silent_of_unbound pair unbound).2.2.2.1
  rw [clientSeen, nothing] at handled
  cases handled

theorem handled_registered {call : CallId} {id : String}
    (handled : id ∈ (clientSeen call seen).filterMap (·.handledId)) :
    id ∈ registeredIds (workerOf call) (hostSeen seen) :=
  sent_registered run ((accepted_sublist run _).subset
    ((handled_accepted run (bound_of_handled run handled)).subset handled))

end

theorem never_unmatched {workerOf : CallId → String} {actions : List SystemAction}
    {seen : List SystemObservation} {system : System}
    (run : (systemMachine workerOf).Run actions seen system) (workerId : String)
    (response : InvocationResponse) : .unmatched workerId response ∉ hostSeen seen := by
  induction run with
  | start => simp [hostSeen]
  | @next actions seen out system after action earlier stepped ih =>
    rw [hostSeen, List.filterMap_append, List.mem_append, not_or]
    refine ⟨ih, fun unmatched => ?_⟩
    obtain ⟨schedule, host⟩ := host_run earlier
    rcases System.step_cases stepped with ⟨part, shown, heard, _, _, moved, _, rfl⟩ |
      ⟨part, shown, heard, _, _, _, executed, rfl⟩
    · rw [(System.hostPart_parts _ _).1] at unmatched
      obtain ⟨awaiting, absent⟩ :=
        unmatched_cases (correlated_of_run host).named moved unmatched
      obtain ⟨context, pending⟩ := held_pending earlier (held_of_awaiting earlier awaiting)
      rw [absent] at pending
      cases pending
    · rw [(System.pairPart_parts _ _).1, System.exec_inbound executed] at unmatched
      simp at unmatched

theorem completed_of_taken {workerOf : CallId → String} {actions : List SystemAction}
    {seen : List SystemObservation} {system : System}
    (run : (systemMachine workerOf).Run actions seen system) {workerId id : String}
    (taken : id ∈ (hostSeen seen).filterMap (·.takenId workerId)) :
    id ∈ completedIds workerId (hostSeen seen) := by
  obtain ⟨observation, member, shown⟩ := List.mem_filterMap.mp taken
  cases observation <;> simp only [HostObservation.takenId, reduceCtorEq,
    Option.ite_none_right_eq_some, Option.some.injEq] at shown
  · obtain ⟨rfl, rfl⟩ := shown
    exact mem_completedIds.mpr ⟨_, _, member, rfl⟩
  · exact absurd member (never_unmatched run _ _)

/-- The invocations of every worker, each in one place at most. -/
structure Conserved (workerOf : CallId → String) (seen : List SystemObservation)
    (system : System) : Prop where
  once : ∀ call, (system.carried (workerOf call) call).Nodup
  oneWorker : ∀ call other id, id ∈ system.carried (workerOf call) call →
    id ∈ system.carried (workerOf other) other → workerOf call = workerOf other
  oneCall : ∀ call other id, id ∈ system.pair.inFlight call →
    id ∈ system.pair.inFlight other → call = other
  pending : ∀ call, ∀ id ∈ system.carried (workerOf call) call,
    ∃ context, system.host.executing (workerOf call) id = some context
  handledOnce : ∀ call, ((clientSeen call seen).filterMap (·.handledId)).Nodup
  handledByOne : ∀ call other id, id ∈ (clientSeen call seen).filterMap (·.handledId) →
    id ∈ (clientSeen other seen).filterMap (·.handledId) → call = other
  matched : ∀ workerId response, .unmatched workerId response ∉ hostSeen seen
  accounted : Reliable (pairSeen seen) →
    ∀ workerId, ∀ id ∈ (serviceSeen seen).filterMap (·.acceptedId workerId),
      id ∈ completedIds workerId (hostSeen seen) ∨
        ∃ call, workerOf call = workerId ∧ (system.carried workerId call).count id = 1

theorem conserved {workerOf : CallId → String} {actions : List SystemAction}
    {seen : List SystemObservation} {system : System}
    (run : (systemMachine workerOf).Run actions seen system) : Conserved workerOf seen system := by
  obtain ⟨schedule, pair⟩ := pair_run run
  have registered : ∀ call id, id ∈ system.carried (workerOf call) call →
      id ∈ registeredIds (workerOf call) (hostSeen seen) := fun call id carried =>
    held_registered run ((carried_sublist run call).subset carried)
  have heldOnce : ∀ workerId, (system.held workerId).Nodup := fun workerId =>
    (List.nodup_append.mp (held_nodup run workerId)).2.1
  constructor
  · exact fun call => (heldOnce _).sublist (carried_sublist run call)
  · intro call other id one two
    exact worker_of_registered run (registered call id one) (registered other id two)
  · intro call other id one two
    obtain ⟨bound, held⟩ := held_of_inFlight run one
    obtain ⟨otherBound, otherHeld⟩ := held_of_inFlight run two
    have same := worker_of_registered run (held_registered run held) (held_registered run otherHeld)
    rw [same, otherBound] at bound
    exact (Option.some.inj bound).symm
  · exact fun call id carried => held_pending run ((carried_sublist run call).subset carried)
  · intro call
    by_cases bound : system.pair.service.stream (workerOf call) = some call
    · obtain ⟨_, host⟩ := host_run run
      exact ((dispatched_of_run host).once _).sublist
        ((handled_accepted run bound).trans (accepted_sublist run _))
    · rw [clientSeen, (silent_of_unbound pair bound).2.2.2.1]
      exact List.nodup_nil
  · intro call other id one two
    have same := worker_of_registered run (handled_registered run one) (handled_registered run two)
    have bound := bound_of_handled run one
    rw [same, bound_of_handled run two] at bound
    exact (Option.some.inj bound).symm
  · exact never_unmatched run
  · intro reliable workerId id accepted
    rw [← (held_pass run workerId).all reliable, List.mem_append] at accepted
    rcases accepted with taken | held
    · exact .inl (completed_of_taken run taken)
    · right
      unfold System.held at held
      cases bound : system.pair.service.stream workerId with
      | none =>
        rw [bound] at held
        cases held
      | some call =>
        have own := worker_of_stream pair bound
        subst own
        rw [bound] at held
        exact ⟨call, rfl, List.count_eq_one_of_mem
          ((heldOnce _).sublist (carried_sublist run call)) held⟩

/-- Two invocations of one worker, and the stream's end between them. -/
def interruptedSession : List SystemAction :=
  [.host (.construct "w"), .pair (.client 0 .openCall), .pair (.accept 0),
    .host (.addWorkerChannel "w"), .pair (.client 0 .subscribe),
    .pair (.client 0 (.writeStart true)),
    .pair (.read 0), .pair (.client 0 .startWritten), .host (.get "w" "5" "i"),
    .host (.get "w" "5" "j"), .host (.publish "j"), .host (.publish "i"), .pair (.write "w" true),
    .pair (.deliver 0), .pair (.client 0 .observe), .pair (.client 0 .handle),
    .pair (.client 0 (.respond true)), .pair (.read 0), .host (.observe "w"), .host (.observe "w"),
    .host (.invoke "w"), .pair (.written "w"), .pair (.finish 0 .cancelled)]

theorem conserved_interrupted :
    ∃ system seen, (systemMachine fun _ => "w").exec (System.initial fun _ => "w")
        interruptedSession = some (system, seen) ∧
      Conserved (fun _ => "w") seen system ∧ completedIds "w" (hostSeen seen) = ["j"] :=
  ⟨_, _, rfl,
    conserved (@Machine.Run.of_exec _ _ _ (systemMachine _) interruptedSession _ _ rfl), by decide⟩

end BenchmarkHost
