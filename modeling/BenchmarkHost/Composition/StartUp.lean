import BenchmarkHost.Composition.Conservation

/-! Invocations accepted before the worker has connected.

A channel is offered to callers as soon as its worker process is launched, and
the event manager buffers nothing: a request published before the handshake
that names the worker reaches nobody, and its invocation stays pending.
-/

set_option autoImplicit false

namespace BenchmarkHost

open Library

/-- Each pending invocation of the worker is about to be published or on its way. -/
def NoneStranded (workerOf : CallId → String) (system : System) (workerId : String) : Prop :=
  ∀ id context, system.host.executing workerId id = some context →
    (∃ event, system.host.sending.tryGetValue id = some event) ∨
      ∃ call, workerOf call = workerId ∧ id ∈ system.carried workerId call

/-- Nothing is published for the worker before a handshake has named it. -/
def PublishedAfterHandshake (seen : List ServiceObservation) (workerId : String) : Prop :=
  ∀ before event recipients later, seen = before ++ .outbound event recipients :: later →
    event.workerId = workerId → ∃ call, .handshook call workerId ∈ before

/-- While no stream has ended, an event is heard exactly when a handshake has
named its worker before. -/
theorem heard_iff {actions : List ServiceAction} {seen before later : List ServiceObservation}
    {service : FunctionRpcService} (run : serviceMachine.Run actions seen service)
    (endless : ∀ call, .ended call ∉ seen) {event : RpcEvent} {recipients : List CallId}
    (split : seen = before ++ .outbound event recipients :: later) :
    recipients ≠ [] ↔ ∃ call, .handshook call event.workerId ∈ before := by
  obtain ⟨_, first, middle, action, after, early, late, earlier, stepped, rfl⟩ := run.emitted split
  have published : ∃ other, action = .outbound other := by
    by_contra none
    have silent := System.outboundEvent_of_step stepped fun other same => none ⟨other, same⟩
    rw [List.filterMap_append, List.append_eq_nil_iff] at silent
    cases silent.2
  obtain ⟨other, rfl⟩ := published
  obtain ⟨_, out⟩ := FunctionRpcService.outbound_some stepped
  obtain ⟨rfl, same⟩ : early = [] ∧ ServiceObservation.outbound event recipients =
      .outbound other (middle.recipients other) := by
    cases early with
    | nil => exact ⟨rfl, (List.cons.inj out).1⟩
    | cons head tail => simp at out
  cases same
  rw [List.append_nil] at split ⊢
  constructor
  · intro heard
    obtain ⟨call, member⟩ := List.exists_mem_of_ne_nil _ heard
    have bound := FunctionRpcService.mem_recipients_iff.mp member
    exact ⟨call, handshook_of_binding earlier bound⟩
  · rintro ⟨call, shook⟩
    obtain ⟨⟨stream, live⟩, bound⟩ := bound_of_handshook earlier shook
    have quiet : ∀ other, .ended other ∉ first := fun other member =>
      endless other (split ▸ List.mem_append_left _ member)
    rw [live_of_endless earlier quiet bound] at bound
    rw [FunctionRpcService.recipients_of_binding bound]
    simp

theorem endless_of_reliable {seen : List SystemObservation}
    (reliable : Reliable (pairSeen seen)) (call : CallId) : .ended call ∉ serviceSeen seen := by
  intro ended
  cases reliable _ (PairObservation.mem_servicePart.mp ended)

section
variable {workerOf : CallId → String} {actions : List SystemAction}
  {seen : List SystemObservation} {system : System}
  (run : (systemMachine workerOf).Run actions seen system)

include run

theorem outbound_seen {event : RpcEvent} {recipients : List CallId}
    (offered : .outbound event recipients ∈ serviceSeen seen) :
    .outbound event ∈ hostSeen seen := by
  have published : event ∈ (hostSeen seen).filterMap (·.outboundEvent) := by
    rw [published_same run]
    exact List.mem_filterMap.mpr ⟨_, offered, rfl⟩
  obtain ⟨observation, member, same⟩ := List.mem_filterMap.mp published
  cases observation <;> simp only [HostObservation.outboundEvent, reduceCtorEq,
    Option.some.injEq] at same
  exact same ▸ member

/-- A request that nobody heard is the last message of its invocation. -/
theorem stranded_of_unheard {workerId : String} {event : RpcEvent}
    (unheard : .outbound event [] ∈ serviceSeen seen) (own : event.workerId = workerId) :
    ∃ id context, system.host.executing workerId id = some context ∧
      system.host.sending.tryGetValue id = none ∧ id ∉ system.held workerId := by
  obtain ⟨schedule, host⟩ := host_run run
  have dispatched := dispatched_of_run host
  have published := outbound_seen run unheard
  obtain ⟨id, carries⟩ := Option.ne_none_iff_exists'.mp (dispatched.carries event published)
  have sends : (HostObservation.outbound event).sentId workerId = some id := by
    rw [HostObservation.sentId, if_pos own, carries]
  have sent : id ∈ (hostSeen seen).filterMap (·.sentId workerId) :=
    List.mem_filterMap.mpr ⟨_, published, sends⟩
  -- Every invocation is published once, so no later event makes up for this one.
  have refused : id ∉ (serviceSeen seen).filterMap (·.acceptedId workerId) := by
    have once := dispatched.once workerId
    rw [sent_same run] at once
    refine not_mem_of_dropped (fun observation id accepted => ?_) once unheard ?_ ?_
    · exact ServiceObservation.sentId_of_acceptedId accepted
    · rw [ServiceObservation.sentId, if_pos own, carries]
    · simp [ServiceObservation.acceptedId, ServiceObservation.publishedLive]
  have order := (held_pass run workerId).order
  have untaken : id ∉ (hostSeen seen).filterMap (·.takenId workerId) := fun taken =>
    refused (order.subset (List.mem_append_left _ taken))
  have pending : ∃ context, system.host.executing workerId id = some context := by
    rcases ((correlated_of_run host).covered id).mp (sent_registered run sent) with waits | done
    · exact waits
    · exact absurd ((completed_sublist workerId _).subset done) untaken
  obtain ⟨context, waits⟩ := pending
  refine ⟨id, context, waits, ?_, fun held => refused (order.subset (List.mem_append_right _ held))⟩
  cases sending : system.host.sending.tryGetValue id with
  | none => rfl
  | some other => exact absurd sent ((dispatched.sending id other sending).2.2 workerId)

theorem pending_cases {workerId id : String} {context : ScriptInvocationContext}
    (pending : system.host.executing workerId id = some context) :
    (∃ event, system.host.sending.tryGetValue id = some event) ∨
      ∃ event recipients, .outbound event recipients ∈ serviceSeen seen ∧
        event.workerId = workerId ∧ event.message.requestedId = some id := by
  obtain ⟨schedule, host⟩ := host_run run
  have registered : id ∈ registeredIds workerId (hostSeen seen) :=
    ((correlated_of_run host).covered id).mpr (.inl ⟨context, pending⟩)
  rcases (dispatched_of_run host).settled workerId id registered with ⟨event, waits, _⟩ | sent
  · exact .inl ⟨event, waits⟩
  · rw [sent_same run] at sent
    obtain ⟨observation, member, shown⟩ := List.mem_filterMap.mp sent
    cases observation <;> simp only [ServiceObservation.sentId, reduceCtorEq,
      Option.ite_none_right_eq_some] at shown
    exact .inr ⟨_, _, member, shown.1, shown.2⟩

theorem held_of_accepted (reliable : Reliable (pairSeen seen)) {workerId id : String}
    {context : ScriptInvocationContext}
    (accepted : id ∈ (serviceSeen seen).filterMap (·.acceptedId workerId))
    (pending : system.host.executing workerId id = some context) : id ∈ system.held workerId := by
  obtain ⟨schedule, host⟩ := host_run run
  rw [← (held_pass run workerId).all reliable, List.mem_append] at accepted
  rcases accepted with taken | held
  · have done := completed_of_taken run taken
    exact absurd done ((correlated_of_run host).disjoint pending)
  · exact held

/-- In a run where no stream ends and no write fails, invocations are stranded
by an early publication and by nothing else. -/
theorem none_stranded_iff (reliable : Reliable (pairSeen seen)) (workerId : String) :
    NoneStranded workerOf system workerId ↔
      PublishedAfterHandshake (serviceSeen seen) workerId := by
  obtain ⟨schedule, pair⟩ := pair_run run
  obtain ⟨_, service⟩ := service_run pair
  have endless := endless_of_reliable reliable
  constructor
  · intro none before event recipients later split own
    rw [← own]
    by_contra early
    have unheard : recipients = [] := by
      by_contra heard
      exact early ((heard_iff service endless split).mp heard)
    have offered : .outbound event [] ∈ serviceSeen seen := by
      rw [split, unheard]
      exact List.mem_append_right _ List.mem_cons_self
    obtain ⟨id, context, pending, unsent, lost⟩ := stranded_of_unheard run offered own
    rcases none id context pending with ⟨other, sending⟩ | ⟨call, same, carried⟩
    · rw [unsent] at sending
      cases sending
    · subst same
      exact lost ((carried_sublist run call).subset carried)
  · intro late id context pending
    rcases pending_cases run pending with sending | ⟨event, recipients, offered, own, carries⟩
    · exact .inl sending
    · right
      have heard : recipients ≠ [] := by
        obtain ⟨before, later, split⟩ := List.append_of_mem offered
        obtain ⟨call, shook⟩ := late before event recipients later split own
        exact (heard_iff service endless split).mpr ⟨call, own ▸ shook⟩
      have accepted : id ∈ (serviceSeen seen).filterMap (·.acceptedId workerId) := by
        refine List.mem_filterMap.mpr ⟨_, offered, ?_⟩
        simp [ServiceObservation.acceptedId, ServiceObservation.publishedLive, own, heard, carries]
      have held := held_of_accepted run reliable accepted pending
      unfold System.held at held
      cases bound : system.pair.service.stream workerId with
      | none =>
        rw [bound] at held
        cases held
      | some call =>
        rw [bound] at held
        exact ⟨call, worker_of_stream pair bound, held⟩

end

/-- A request published before its worker connects, and one published after. -/
def earlyRequest : List SystemAction :=
  [.host (.construct "w"), .host (.addWorkerChannel "w"), .host (.get "w" "5" "i"),
    .host (.publish "i"), .pair (.client 0 .openCall), .pair (.accept 0),
    .pair (.client 0 .subscribe), .pair (.client 0 (.writeStart true)), .pair (.read 0),
    .pair (.client 0 .startWritten), .host (.get "w" "5" "j"), .host (.publish "j"),
    .pair (.write "w" true), .pair (.written "w"), .pair (.deliver 0), .pair (.client 0 .observe),
    .pair (.client 0 .handle), .pair (.client 0 (.respond true)), .pair (.read 0),
    .host (.observe "w"), .host (.observe "w"), .host (.invoke "w")]

theorem none_stranded_iff_early :
    ∃ system seen, (systemMachine fun _ => "w").exec (System.initial fun _ => "w")
        earlyRequest = some (system, seen) ∧ Reliable (pairSeen seen) ∧
      (NoneStranded (fun _ => "w") system "w" ↔
        PublishedAfterHandshake (serviceSeen seen) "w") :=
  ⟨_, _, rfl, by unfold Reliable; decide,
    none_stranded_iff
      (@Machine.Run.of_exec _ _ _ (systemMachine fun _ => "w") earlyRequest _ _ rfl)
      (by unfold Reliable; decide) "w"⟩

/-- The later request is answered; the early one waits with no message left. -/
theorem early_request_stranded :
    ∃ system seen, (systemMachine fun _ => "w").exec (System.initial fun _ => "w")
        earlyRequest = some (system, seen) ∧ Reliable (pairSeen seen) ∧
      completedIds "w" (hostSeen seen) = ["j"] ∧ ¬ NoneStranded (fun _ => "w") system "w" := by
  refine ⟨_, _, rfl, by unfold Reliable; decide, by decide, fun none => ?_⟩
  have run := @Machine.Run.of_exec _ _ _ (systemMachine fun _ => "w") earlyRequest _ _ rfl
  rcases none "i" _ rfl with ⟨event, sending⟩ | ⟨call, _, carried⟩
  · cases sending
  · have held := (carried_sublist run call).subset carried
    cases held

end BenchmarkHost
