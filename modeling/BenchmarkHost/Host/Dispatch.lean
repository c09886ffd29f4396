import BenchmarkHost.Library.Fifo
import BenchmarkHost.Host.Correlation

/-! Requests that leave a host and responses that come back to it.

A registered invocation is about to be published or has been published once.
A channel takes the responses for its worker in the order they came in.
-/

set_option autoImplicit false

namespace BenchmarkHost

open Library

namespace HostObservation

def sentId (workerId : String) : HostObservation → Option String
  | .outbound event => if event.workerId = workerId then event.message.requestedId else none
  | _ => none

def returnedId (workerId : String) : HostObservation → Option String
  | .inbound event => if event.workerId = workerId then event.message.respondedId else none
  | _ => none

def takenId (workerId : String) : HostObservation → Option String
  | .resultSet owner context _ => if owner = workerId then some context.invocationId else none
  | .unmatched owner response => if owner = workerId then some response.invocationId else none
  | _ => none

end HostObservation

open HostObservation

/-- The invocations about to be published and those published, against those
registered. -/
structure Dispatched (seen : List HostObservation) (host : Host) : Prop where
  sending : ∀ id event, host.sending.tryGetValue id = some event →
    event.message.requestedId = some id ∧ id ∈ registeredIds event.workerId seen ∧
      ∀ workerId, id ∉ seen.filterMap (sentId workerId)
  carries : ∀ event, .outbound event ∈ seen → event.message.requestedId ≠ none
  sent : ∀ workerId, ∀ id ∈ seen.filterMap (sentId workerId), id ∈ registeredIds workerId seen
  once : ∀ workerId, (seen.filterMap (sentId workerId)).Nodup
  settled : ∀ workerId, ∀ id ∈ registeredIds workerId seen,
    (∃ event, host.sending.tryGetValue id = some event ∧ event.workerId = workerId) ∨
      id ∈ seen.filterMap (sentId workerId)

theorem registeredIds_append (workerId : String) (seen out : List HostObservation) :
    registeredIds workerId (seen ++ out) =
      registeredIds workerId seen ++ registeredIds workerId out := by
  simp [registeredIds, List.filterMap_append]

theorem Dispatched.frame {seen out : List HostObservation} {host after : Host}
    (dispatched : Dispatched seen host) (sending : after.sending = host.sending)
    (registers : ∀ workerId, registeredIds workerId out = [])
    (silent : ∀ event, .outbound event ∉ out) : Dispatched (seen ++ out) after := by
  have registered : ∀ workerId,
      registeredIds workerId (seen ++ out) = registeredIds workerId seen := by
    intro workerId
    rw [registeredIds_append, registers, List.append_nil]
  have sent : ∀ workerId, (seen ++ out).filterMap (sentId workerId) =
      seen.filterMap (sentId workerId) := by
    intro workerId
    have publishes : out.filterMap (sentId workerId) = [] := by
      rw [List.filterMap_eq_nil_iff]
      intro observation member
      cases observation with
      | outbound event => exact absurd member (silent event)
      | _ => rfl
    rw [List.filterMap_append, publishes, List.append_nil]
  constructor
  case sending => simpa only [sending, registered, sent] using dispatched.sending
  case carries =>
    intro event member
    exact dispatched.carries event ((List.mem_append.mp member).resolve_right (silent event))
  case sent => simpa only [registered, sent] using dispatched.sent
  case once => simpa only [sent] using dispatched.once
  case settled => simpa only [sending, registered, sent] using dispatched.settled

theorem Dispatched.get {seen out : List HostObservation} {host after : Host}
    (dispatched : Dispatched seen host) (correlated : Correlated seen host)
    {workerId functionId invocationId : String}
    (stepped : host.get workerId functionId invocationId = some (after, out)) :
    Dispatched (seen ++ out) after := by
  obtain ⟨channel, found, _, unissued, rfl, rfl⟩ := Host.get_some stepped
  have own := correlated.named workerId channel found
  set context : ScriptInvocationContext := ⟨invocationId, functionId, host.created⟩
  set event : RpcEvent :=
    ⟨channel.workerId, { content := .invocationRequest ⟨invocationId, functionId⟩ }⟩ with shown
  have fresh : ∀ owner, invocationId ∉ registeredIds owner seen := by
    intro owner member
    obtain ⟨other, registered, same⟩ := mem_registeredIds.mp member
    exact unissued (same ▸ (correlated.bounded owner other registered).2)
  -- An id that waits to be sent is registered, and this one is not.
  have absent : host.sending.tryGetValue invocationId = none := by
    cases held : host.sending.tryGetValue invocationId with
    | none => rfl
    | some other => exact absurd (dispatched.sending _ _ held).2.1 (fresh _)
  have registered : ∀ owner id, id ∈ registeredIds owner (seen ++ [.registered workerId context]) ↔
      id ∈ registeredIds owner seen ∨ owner = workerId ∧ id = invocationId := by
    intro owner id
    rw [registeredIds_append, List.mem_append]
    refine or_congr_right ?_
    by_cases same : workerId = owner
    · simp [registeredIds, registeredOn, same, context]
    · simp [registeredIds, registeredOn, same, Ne.symm same]
  have sent : ∀ owner, (seen ++ [HostObservation.registered workerId context]).filterMap
      (sentId owner) = seen.filterMap (sentId owner) := by
    intro owner
    simp [List.filterMap_append, sentId]
  have sending : ∀ id, (host.sending.tryAdd invocationId event).1.tryGetValue id =
      if id = invocationId then some event else host.sending.tryGetValue id := by
    intro id
    rw [Dictionary.tryGetValue_tryAdd, absent, Option.getD_none]
  constructor
  case sending =>
    intro id other held
    simp only [sent]
    rw [sending] at held
    split at held
    · rename_i same
      cases held
      subst same
      refine ⟨rfl, (registered _ _).mpr (.inr ⟨own, rfl⟩), fun owner member => ?_⟩
      exact fresh owner (dispatched.sent owner _ member)
    · obtain ⟨carries, member, unsent⟩ := dispatched.sending id other held
      exact ⟨carries, (registered _ _).mpr (.inl member), unsent⟩
  case carries =>
    intro other member
    exact dispatched.carries other (by simpa using member)
  case sent =>
    intro owner id member
    rw [sent] at member
    exact (registered _ _).mpr (.inl (dispatched.sent owner id member))
  case once =>
    intro owner
    rw [sent]
    exact dispatched.once owner
  case settled =>
    intro owner id member
    rw [sent]
    rcases (registered _ _).mp member with earlier | ⟨rfl, rfl⟩
    · refine (dispatched.settled owner id earlier).imp_left ?_
      rintro ⟨other, held, same⟩
      have different : id ≠ invocationId := fun here => fresh owner (here ▸ earlier)
      exact ⟨other, by rw [sending, if_neg different]; exact held, same⟩
    · exact .inl ⟨event, by rw [sending, if_pos rfl], own⟩

theorem Dispatched.publish {seen out : List HostObservation} {host after : Host}
    (dispatched : Dispatched seen host) {invocationId : String}
    (stepped : host.publish invocationId = some (after, out)) :
    Dispatched (seen ++ out) after := by
  obtain ⟨event, held, rfl, rfl⟩ := Host.publish_some stepped
  obtain ⟨carries, member, unsent⟩ := dispatched.sending invocationId event held
  have registered : ∀ owner, registeredIds owner (seen ++ [.outbound event]) =
      registeredIds owner seen := by
    intro owner
    simp [registeredIds, registeredOn]
  have sent : ∀ owner, (seen ++ [HostObservation.outbound event]).filterMap (sentId owner) =
      seen.filterMap (sentId owner) ++ if event.workerId = owner then [invocationId] else [] := by
    intro owner
    by_cases same : event.workerId = owner <;> simp [List.filterMap_append, sentId, same, carries]
  have sending : ∀ id, (host.sending.tryRemove invocationId).1.tryGetValue id =
      if id = invocationId then none else host.sending.tryGetValue id :=
    host.sending.tryGetValue_tryRemove invocationId
  constructor
  case sending =>
    intro id other kept
    rw [sending] at kept
    split at kept
    · cases kept
    · rename_i different
      obtain ⟨own, owned, before⟩ := dispatched.sending id other kept
      refine ⟨own, by rwa [registered], fun owner now => ?_⟩
      rw [sent, List.mem_append] at now
      rcases now with earlier | last
      · exact before owner earlier
      · split at last
        · exact different (List.mem_singleton.mp last)
        · cases last
  case carries =>
    intro other member
    rcases List.mem_append.mp member with earlier | last
    · exact dispatched.carries other earlier
    · cases List.mem_singleton.mp last
      simp [carries]
  case sent =>
    intro owner id now
    rw [registered]
    rw [sent, List.mem_append] at now
    rcases now with earlier | last
    · exact dispatched.sent owner id earlier
    · split at last
      · rename_i same
        rw [List.mem_singleton.mp last, ← same]
        exact member
      · cases last
  case once =>
    intro owner
    rw [sent]
    split
    · rw [List.nodup_append]
      -- What waits to be sent has not been sent yet.
      refine ⟨dispatched.once owner, by simp, fun id earlier last now same => ?_⟩
      rw [List.mem_singleton.mp now] at same
      exact unsent owner (same ▸ earlier)
    · rw [List.append_nil]
      exact dispatched.once owner
  case settled =>
    intro owner id before
    rw [registered] at before
    rw [sent, List.mem_append]
    rcases dispatched.settled owner id before with ⟨other, kept, same⟩ | earlier
    · by_cases here : id = invocationId
      · subst here
        rw [held] at kept
        cases kept
        exact .inr (.inr (by simp [same]))
      · exact .inl ⟨other, by rw [sending, if_neg here]; exact kept, same⟩
    · exact .inr (.inl earlier)

theorem answers_registers_nothing {host : Host} {workerId : String} {response : InvocationResponse}
    {entry : Option ScriptInvocationContext} {sources : Nat → TaskCompletionSource}
    {out : List HostObservation} (answers : host.Answers workerId response entry sources out)
    (owner : String) : registeredIds owner out = [] ∧ ∀ event, .outbound event ∉ out := by
  cases entry with
  | none =>
    obtain ⟨_, rfl⟩ := answers
    exact ⟨rfl, by simp⟩
  | some context =>
    rcases answers with ⟨_, _, rfl⟩ | ⟨_, _, _, rfl⟩ <;> exact ⟨rfl, by simp⟩

theorem Dispatched.step {seen out : List HostObservation} {host after : Host}
    (dispatched : Dispatched seen host) (correlated : Correlated seen host) {action : HostAction}
    (stepped : host.step action = some (after, out)) : Dispatched (seen ++ out) after := by
  cases action with
  | construct workerId =>
    obtain ⟨_, rfl, rfl⟩ := Host.construct_some stepped
    exact dispatched.frame rfl (fun _ => rfl) (by simp)
  | addWorkerChannel workerId =>
    simp only [Host.step, Host.addWorkerChannel, Option.ite_none_right_eq_some] at stepped
    cases stepped.2
    exact dispatched.frame rfl (fun _ => rfl) (by simp)
  | get workerId functionId invocationId => exact dispatched.get correlated stepped
  | publish invocationId => exact dispatched.publish stepped
  | inbound event =>
    obtain ⟨rfl, rfl⟩ := Host.step_inbound stepped
    exact dispatched.frame rfl (fun _ => rfl) (by simp)
  | observe workerId =>
    obtain ⟨_, _, _, _, rfl, rfl⟩ := Host.observe_some stepped
    exact dispatched.frame rfl (fun _ => rfl) (by simp)
  | invoke workerId =>
    obtain ⟨_, _, _, _, _, _, _, answers, _, _, _, sending⟩ :=
      Host.invoke_views correlated.named stepped
    exact dispatched.frame sending (fun owner => (answers_registers_nothing answers owner).1)
      (answers_registers_nothing answers workerId).2

theorem dispatched_of_run {actions : List HostAction} {seen : List HostObservation} {host : Host}
    (run : hostMachine.Run actions seen host) : Dispatched seen host := by
  induction run with
  | start => constructor <;> simp [hostMachine, Host.initial, registeredIds]
  | next earlier stepped ih => exact ih.step (correlated_of_run earlier) stepped

theorem channels_of_step {host after : Host} {action : HostAction}
    {out : List HostObservation} (stepped : host.step action = some (after, out))
    {workerId : String} (present : (host.channels workerId).isSome) :
    (after.channels workerId).isSome := by
  have kept : ∀ owner channel, ((host.setChannel owner channel).channels workerId).isSome := by
    intro owner channel
    by_cases same : workerId = owner
    · simp [Host.setChannel, same]
    · simpa [Host.setChannel, Function.update_of_ne same] using present
  cases action with
  | construct owner =>
    obtain ⟨_, rfl, _⟩ := Host.construct_some stepped
    exact kept _ _
  | addWorkerChannel owner =>
    simp only [Host.step, Host.addWorkerChannel, Option.ite_none_right_eq_some] at stepped
    cases stepped.2
    exact present
  | get owner functionId invocationId =>
    obtain ⟨channel, _, _, _, rfl, _⟩ := Host.get_some stepped
    exact kept _ _
  | publish invocationId =>
    obtain ⟨_, _, rfl, _⟩ := Host.publish_some stepped
    exact present
  | inbound event =>
    obtain ⟨rfl, _⟩ := Host.step_inbound stepped
    rw [Host.channels_inbound, Option.isSome_map]
    exact present
  | observe owner =>
    obtain ⟨_, _, _, _, rfl, _⟩ := Host.observe_some stepped
    exact kept _ _
  | invoke owner =>
    obtain ⟨_, _, _, _, _, _, _, _, rfl, _⟩ := Host.invoke_some stepped
    exact kept _ _

theorem channel_of_registers {host after : Host} (named : host.Named) {action : HostAction}
    {out : List HostObservation} (stepped : host.step action = some (after, out))
    {workerId id : String} (registers : id ∈ registeredIds workerId out) :
    (host.channels workerId).isSome := by
  cases action with
  | construct owner =>
    obtain ⟨_, _, rfl⟩ := Host.construct_some stepped
    simp [registeredIds] at registers
  | addWorkerChannel owner =>
    simp only [Host.step, Host.addWorkerChannel, Option.ite_none_right_eq_some] at stepped
    cases stepped.2
    simp [registeredIds] at registers
  | get owner functionId invocationId =>
    obtain ⟨channel, found, _, _, _, rfl⟩ := Host.get_some stepped
    have same : owner = workerId := by
      by_contra different
      simp [registeredIds, registeredOn, different] at registers
    rw [← same, found]
    rfl
  | publish invocationId =>
    obtain ⟨_, _, _, rfl⟩ := Host.publish_some stepped
    simp [registeredIds, registeredOn] at registers
  | inbound event =>
    obtain ⟨_, rfl⟩ := Host.step_inbound stepped
    simp [registeredIds, registeredOn] at registers
  | observe owner =>
    obtain ⟨_, _, _, _, _, rfl⟩ := Host.observe_some stepped
    simp [registeredIds] at registers
  | invoke owner =>
    obtain ⟨_, _, _, _, _, _, _, answers, _⟩ := Host.invoke_views named stepped
    rw [(answers_registers_nothing answers workerId).1] at registers
    cases registers

theorem channel_of_registered {actions : List HostAction} {seen : List HostObservation}
    {host : Host} (run : hostMachine.Run actions seen host) {workerId id : String}
    (registered : id ∈ registeredIds workerId seen) : (host.channels workerId).isSome := by
  induction run with
  | start => simp [registeredIds] at registered
  | @next actions seen out host after action earlier stepped ih =>
    rw [registeredIds_append, List.mem_append] at registered
    rcases registered with before | now
    · exact channels_of_step stepped (ih before)
    · exact channels_of_step stepped
        (channel_of_registers (correlated_of_run earlier).named stepped now)

/-! ### Responses on their way to the channel -/

/-- The invocations answered by the responses a channel has still to take. -/
def Host.awaitingIds (host : Host) (workerId : String) : List String :=
  (host.awaiting workerId).filterMap (·.message.respondedId)

theorem Host.awaitingIds_inbound {host : Host} (named : host.Named) (event : RpcEvent)
    (workerId : String) :
    (host.inbound event).1.awaitingIds workerId = host.awaitingIds workerId ++
      if (host.channels workerId).isSome then
        [HostObservation.inbound event].filterMap (returnedId workerId) else [] := by
  unfold Host.awaitingIds
  rw [Host.awaiting_inbound named, List.filterMap_append]
  congr 1
  have chosen := event.message.contentCase_eq_invocationResponse
  cases present : (host.channels workerId).isSome with
  | false => simp
  | true =>
    cases content : event.message.invocationResponse with
    | none =>
      have unset : event.message.respondedId = none := by
        simp [StreamingMessage.respondedId, content]
      simp [returnedId, unset, apply_ite]
    | some response =>
      have kind : event.messageType = .invocationResponse := chosen.mpr ⟨response, content⟩
      have selected : selectsResponse workerId event = decide (event.workerId = workerId) := by
        rw [selectsResponse, kind, beq_self_eq_true, Bool.and_true, beq_eq_decide]
      have answers : event.message.respondedId = some response.invocationId := by
        simp [StreamingMessage.respondedId, content]
      by_cases same : event.workerId = workerId <;>
        simp [returnedId, selected, same, answers]

theorem taken_of_step {seen out : List HostObservation} {host after : Host}
    (correlated : Correlated seen host) {action : HostAction}
    (stepped : host.step action = some (after, out)) (workerId : String) :
    out.filterMap (takenId workerId) ++ after.awaitingIds workerId =
      host.awaitingIds workerId ++
        if (host.channels workerId).isSome then out.filterMap (returnedId workerId) else [] := by
  cases action with
  | construct owner =>
    obtain ⟨absent, rfl, rfl⟩ := Host.construct_some stepped
    unfold Host.awaitingIds
    rw [Host.awaiting_setChannel]
    split
    · rename_i same
      subst same
      simp [LanguageWorkerChannel.create, Host.awaiting, absent]
    · simp
  | addWorkerChannel owner =>
    simp only [Host.step, Host.addWorkerChannel, Option.ite_none_right_eq_some] at stepped
    cases stepped.2
    simp [Host.awaitingIds, Host.awaiting]
  | get owner functionId invocationId =>
    have awaiting := Host.awaiting_get stepped
    obtain ⟨_, _, _, _, _, rfl⟩ := Host.get_some stepped
    simp [Host.awaitingIds, awaiting, List.filterMap_cons, takenId, returnedId]
  | publish invocationId =>
    obtain ⟨_, _, rfl, rfl⟩ := Host.publish_some stepped
    simp [Host.awaitingIds, Host.awaiting, List.filterMap_cons, takenId, returnedId]
  | inbound event =>
    obtain ⟨rfl, rfl⟩ := Host.step_inbound stepped
    exact Host.awaitingIds_inbound correlated.named event workerId
  | observe owner =>
    obtain ⟨channel, pipeline, found, same, rfl, rfl⟩ := Host.observe_some stepped
    unfold Host.awaitingIds
    rw [Host.awaiting_setChannel]
    split
    · rename_i here
      subst here
      simp [same, Host.awaiting_of_channel found]
    · simp
  | invoke owner =>
    obtain ⟨event, response, rest, queue, content, awaiting, _, answers, _⟩ :=
      Host.invoke_views correlated.named stepped
    have answered : event.message.respondedId = some response.invocationId := by
      simp [StreamingMessage.respondedId, content]
    have returned : out.filterMap (returnedId workerId) = [] := by
      cases found : host.executing owner response.invocationId with
      | none =>
        rw [found] at answers
        obtain ⟨_, rfl⟩ := answers
        rfl
      | some context =>
        rw [found] at answers
        rcases answers with ⟨_, _, rfl⟩ | ⟨_, _, _, rfl⟩ <;> rfl
    have taken : out.filterMap (takenId workerId) =
        if owner = workerId then [response.invocationId] else [] := by
      cases found : host.executing owner response.invocationId with
      | none =>
        rw [found] at answers
        obtain ⟨_, rfl⟩ := answers
        by_cases same : owner = workerId <;> simp [takenId, same]
      | some context =>
        rw [found] at answers
        have unset := correlated.unset _ _ _ found
        have own := (correlated.entry _ _ _ found).1
        rcases answers with ⟨refused, _⟩ | ⟨_, _, _, rfl⟩
        · -- `SetResult` does not raise: a pending context has no result.
          simp [TaskCompletionSource.setResult, unset] at refused
        · by_cases same : owner = workerId <;> simp [takenId, same, own]
    unfold Host.awaitingIds
    rw [returned, taken, awaiting]
    by_cases same : owner = workerId
    · subst same
      simp [queue, answered]
    · simp [same, Ne.symm same]

/-- A response goes unmatched only when its id is not pending. -/
theorem unmatched_cases {host after : Host} (named : host.Named) {action : HostAction}
    {out : List HostObservation} (stepped : host.step action = some (after, out))
    {workerId : String} {response : InvocationResponse}
    (unmatched : .unmatched workerId response ∈ out) :
    response.invocationId ∈ host.awaitingIds workerId ∧
      host.executing workerId response.invocationId = none := by
  cases action with
  | construct owner =>
    obtain ⟨_, _, rfl⟩ := Host.construct_some stepped
    simp at unmatched
  | addWorkerChannel owner =>
    simp only [Host.step, Host.addWorkerChannel, Option.ite_none_right_eq_some] at stepped
    cases stepped.2
    simp at unmatched
  | get owner functionId invocationId =>
    obtain ⟨_, _, _, _, _, rfl⟩ := Host.get_some stepped
    simp at unmatched
  | publish invocationId =>
    obtain ⟨_, _, _, rfl⟩ := Host.publish_some stepped
    simp at unmatched
  | inbound event =>
    obtain ⟨_, rfl⟩ := Host.step_inbound stepped
    simp at unmatched
  | observe owner =>
    obtain ⟨_, _, _, _, _, rfl⟩ := Host.observe_some stepped
    simp at unmatched
  | invoke owner =>
    obtain ⟨event, answer, rest, queue, content, _, _, answers, _⟩ :=
      Host.invoke_views named stepped
    cases found : host.executing owner answer.invocationId with
    | none =>
      rw [found] at answers
      rw [answers.2, List.mem_singleton] at unmatched
      cases unmatched
      refine ⟨?_, found⟩
      rw [Host.awaitingIds, queue]
      simp [StreamingMessage.respondedId, content]
    | some context =>
      rw [found] at answers
      rcases answers with ⟨_, _, rfl⟩ | ⟨_, _, _, rfl⟩ <;> simp at unmatched

end BenchmarkHost
