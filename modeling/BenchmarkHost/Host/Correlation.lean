import BenchmarkHost.Host.Channel

/-! Correlation of invocations with an arbitrary worker.

`_executingInvocations` and the completed invocations of a channel partition
the invocations ever registered on it, whatever inbound events arrive. The
invariant ties the pending entries, the completion sources and the responses
still queued to the history of the run.
-/

set_option autoImplicit false

namespace BenchmarkHost

open Library

namespace HostObservation

def registeredOn (workerId : String) : HostObservation → Option ScriptInvocationContext
  | .registered owner context => if owner = workerId then some context else none
  | _ => none

def completedOn (workerId : String) : HostObservation → Option ScriptInvocationContext
  | .resultSet owner context _ => if owner = workerId then some context else none
  | _ => none

def setSource : HostObservation → Option Nat
  | .resultSet _ context _ => some context.resultSource
  | _ => none

def neutral : HostObservation → Bool
  | .outbound _ | .inbound _ | .unmatched _ _ => true
  | .registered _ _ | .resultSet _ _ _ | .raised _ => false

end HostObservation

open HostObservation

def registeredIds (workerId : String) (seen : List HostObservation) : List String :=
  (seen.filterMap (registeredOn workerId)).map (·.invocationId)

def completedIds (workerId : String) (seen : List HostObservation) : List String :=
  (seen.filterMap (completedOn workerId)).map (·.invocationId)

theorem mem_registeredIds {workerId id : String} {seen : List HostObservation} :
    id ∈ registeredIds workerId seen ↔
      ∃ context, .registered workerId context ∈ seen ∧ context.invocationId = id := by
  simp only [registeredIds, List.mem_map, List.mem_filterMap]
  constructor
  · rintro ⟨context, ⟨observation, member, shown⟩, rfl⟩
    cases observation <;> simp only [registeredOn, reduceCtorEq, Option.ite_none_right_eq_some,
      Option.some.injEq] at shown
    obtain ⟨rfl, rfl⟩ := shown
    exact ⟨_, member, rfl⟩
  · rintro ⟨context, member, rfl⟩
    exact ⟨context, ⟨_, member, by simp [registeredOn]⟩, rfl⟩

theorem mem_completedIds {workerId id : String} {seen : List HostObservation} :
    id ∈ completedIds workerId seen ↔
      ∃ context value, .resultSet workerId context value ∈ seen ∧ context.invocationId = id := by
  simp only [completedIds, List.mem_map, List.mem_filterMap]
  constructor
  · rintro ⟨context, ⟨observation, member, shown⟩, rfl⟩
    cases observation <;> simp only [completedOn, reduceCtorEq, Option.ite_none_right_eq_some,
      Option.some.injEq] at shown
    obtain ⟨rfl, rfl⟩ := shown
    exact ⟨_, _, member, rfl⟩
  · rintro ⟨context, value, member, rfl⟩
    exact ⟨context, ⟨_, member, by simp [completedOn]⟩, rfl⟩

/-- The life of every invocation, read off the history and the state. -/
structure Correlated (seen : List HostObservation) (host : Host) : Prop where
  named : host.Named
  entry : ∀ workerId id context, host.executing workerId id = some context →
    context.invocationId = id ∧ .registered workerId context ∈ seen
  unset : ∀ workerId id context, host.executing workerId id = some context →
    (host.resultSources context.resultSource).result = none
  settled : ∀ workerId context, .registered workerId context ∈ seen →
    host.executing workerId context.invocationId = some context ∨
      ∃ value, .resultSet workerId context value ∈ seen
  set : ∀ workerId context value, .resultSet workerId context value ∈ seen →
    .registered workerId context ∈ seen ∧ value = "Hello-" ++ context.invocationId ∧
      (host.resultSources context.resultSource).result = some value
  bounded : ∀ workerId context, .registered workerId context ∈ seen →
    context.resultSource < host.created ∧ context.invocationId ∈ host.issued
  unique : ∀ first second one other, .registered first one ∈ seen →
    .registered second other ∈ seen →
    one.invocationId = other.invocationId ∨ one.resultSource = other.resultSource →
    first = second ∧ one = other
  sources : ∀ source, (host.resultSources source).result ≠ none →
    ∃ workerId context value, .resultSet workerId context value ∈ seen ∧
      context.resultSource = source
  once : (seen.filterMap setSource).Nodup
  quiet : ∀ workerId, .raised workerId ∉ seen
  arrived : ∀ workerId, ∀ event ∈ host.awaiting workerId, .inbound event ∈ seen

theorem mem_append_neutral {seen out : List HostObservation} {observation : HostObservation}
    (neutral : ∀ other ∈ out, other.neutral = true) (marks : observation.neutral = false) :
    observation ∈ seen ++ out ↔ observation ∈ seen := by
  refine ⟨fun member => ?_, List.mem_append_left out⟩
  rcases List.mem_append.mp member with earlier | later
  · exact earlier
  · exact absurd (neutral observation later) (by simp [marks])

theorem Correlated.frame {seen out : List HostObservation} {host after : Host}
    (correlated : Correlated seen host) (named : after.Named)
    (neutral : ∀ other ∈ out, other.neutral = true)
    (executing : ∀ workerId id, after.executing workerId id = host.executing workerId id)
    (sources : after.resultSources = host.resultSources) (created : after.created = host.created)
    (issued : after.issued = host.issued)
    (arrived : ∀ workerId, ∀ event ∈ after.awaiting workerId, .inbound event ∈ seen ++ out) :
    Correlated (seen ++ out) after := by
  have registered : ∀ workerId context,
      HostObservation.registered workerId context ∈ seen ++ out ↔
        .registered workerId context ∈ seen := fun _ _ => mem_append_neutral neutral rfl
  have resultSet : ∀ workerId context value,
      HostObservation.resultSet workerId context value ∈ seen ++ out ↔
        .resultSet workerId context value ∈ seen := fun _ _ _ => mem_append_neutral neutral rfl
  have silent : out.filterMap setSource = [] := by
    rw [List.filterMap_eq_nil_iff]
    intro observation member
    have plain := neutral observation member
    cases observation <;> simp_all [HostObservation.neutral, setSource]
  constructor
  case named => exact named
  case entry => simpa only [executing, registered] using correlated.entry
  case unset => simpa only [executing, sources] using correlated.unset
  case settled => simpa only [executing, registered, resultSet] using correlated.settled
  case set => simpa only [registered, resultSet, sources] using correlated.set
  case bounded => simpa only [registered, created, issued] using correlated.bounded
  case unique => simpa only [registered] using correlated.unique
  case sources => simpa only [resultSet, sources] using correlated.sources
  case once => simpa only [List.filterMap_append, silent, List.append_nil] using correlated.once
  case quiet =>
    exact fun workerId => (mem_append_neutral neutral rfl).not.mpr (correlated.quiet workerId)
  case arrived => exact arrived

theorem Correlated.get {seen out : List HostObservation} {host after : Host}
    (correlated : Correlated seen host) {workerId functionId invocationId : String}
    (stepped : host.get workerId functionId invocationId = some (after, out)) :
    Correlated (seen ++ out) after := by
  have fresh : ∀ owner context, .registered owner context ∈ seen →
      context.invocationId ≠ invocationId := by
    obtain ⟨_, _, _, unissued, _⟩ := Host.get_some stepped
    rintro owner context member rfl
    exact unissued (correlated.bounded owner context member).2
  have absent : host.executing workerId invocationId = none := by
    cases found : host.executing workerId invocationId with
    | none => rfl
    | some context =>
      obtain ⟨same, member⟩ := correlated.entry _ _ _ found
      exact absurd same (fresh workerId context member)
  have executing := Host.executing_get stepped absent
  have awaiting := Host.awaiting_get stepped
  have named : after.Named :=
    correlated.named.step (show host.step (.get workerId functionId invocationId) = _ from stepped)
  obtain ⟨channel, found, _, _, rfl, rfl⟩ := Host.get_some stepped
  -- The new context is the only registration that is not an earlier one.
  have registered : ∀ owner context, HostObservation.registered owner context ∈ seen ++
      [.registered workerId ⟨invocationId, functionId, host.created⟩] ↔
      .registered owner context ∈ seen ∨
        owner = workerId ∧ context = ⟨invocationId, functionId, host.created⟩ := by simp
  have resultSet : ∀ owner context value, HostObservation.resultSet owner context value ∈ seen ++
      [.registered workerId ⟨invocationId, functionId, host.created⟩] ↔
      .resultSet owner context value ∈ seen := by simp
  -- A source with a result belongs to an earlier context, and `created` is above them all.
  have unsetNew : (host.resultSources host.created).result = none := by
    by_contra set
    obtain ⟨owner, context, value, member, same⟩ := correlated.sources _ set
    have bounded := correlated.bounded owner context (correlated.set _ _ _ member).1
    omega
  constructor
  case named => exact named
  case entry =>
    intro owner id context pending
    rw [executing] at pending
    rw [registered]
    split at pending
    · rename_i here
      cases pending
      exact ⟨here.2.symm, .inr ⟨here.1, rfl⟩⟩
    · obtain ⟨same, member⟩ := correlated.entry _ _ _ pending
      exact ⟨same, .inl member⟩
  case unset =>
    intro owner id context pending
    rw [executing] at pending
    split at pending
    · cases pending
      exact unsetNew
    · exact correlated.unset _ _ _ pending
  case settled =>
    intro owner context member
    rw [executing]
    simp only [resultSet]
    rcases (registered _ _).mp member with earlier | ⟨rfl, rfl⟩
    · rw [if_neg fun here => fresh owner context earlier here.2]
      exact correlated.settled _ _ earlier
    · simp
  case set =>
    intro owner context value member
    obtain ⟨earlier, held⟩ := correlated.set _ _ _ ((resultSet _ _ _).mp member)
    exact ⟨(registered _ _).mpr (.inl earlier), held⟩
  case bounded =>
    intro owner context member
    change _ < host.created + 1 ∧ _ ∈ host.issued ++ [invocationId]
    rcases (registered _ _).mp member with earlier | ⟨rfl, rfl⟩
    · obtain ⟨bounded, issued⟩ := correlated.bounded _ _ earlier
      exact ⟨by omega, List.mem_append_left _ issued⟩
    · simp
  case unique =>
    -- Two equal contexts are both earlier or both new, by the id and by the source.
    intro first second one other oneIn otherIn shared
    rcases (registered _ _).mp oneIn with oneEarlier | ⟨rfl, rfl⟩ <;>
      rcases (registered _ _).mp otherIn with otherEarlier | ⟨rfl, rfl⟩
    · exact correlated.unique _ _ _ _ oneEarlier otherEarlier shared
    · have bounded := (correlated.bounded _ _ oneEarlier).1
      rcases shared with same | same
      · exact absurd same (fresh _ _ oneEarlier)
      · simp only at same; omega
    · have bounded := (correlated.bounded _ _ otherEarlier).1
      rcases shared with same | same
      · exact absurd same.symm (fresh _ _ otherEarlier)
      · simp only at same; omega
    · exact ⟨rfl, rfl⟩
  case sources =>
    intro source set
    simp only [resultSet]
    exact correlated.sources source set
  case once =>
    simp only [List.filterMap_append, List.filterMap_cons, setSource, List.filterMap_nil,
      List.append_nil]
    exact correlated.once
  case quiet =>
    intro owner
    simpa using correlated.quiet owner
  case arrived =>
    intro owner event member
    rw [awaiting] at member
    exact List.mem_append_left _ (correlated.arrived owner event member)

theorem Correlated.complete {seen : List HostObservation} {host after : Host}
    (correlated : Correlated seen host) {workerId id : String} {context : ScriptInvocationContext}
    (found : host.executing workerId id = some context) (named : after.Named)
    (executing : ∀ other key, after.executing other key =
      if other = workerId ∧ key = id then none else host.executing other key)
    (sources : after.resultSources =
      Function.update host.resultSources context.resultSource ⟨some ("Hello-" ++ id)⟩)
    (created : after.created = host.created) (issued : after.issued = host.issued)
    (arrived : ∀ other, ∀ event ∈ after.awaiting other, .inbound event ∈ seen) :
    Correlated (seen ++ [.resultSet workerId context ("Hello-" ++ id)]) after := by
  obtain ⟨rfl, own⟩ := correlated.entry _ _ _ found
  have registered : ∀ owner other, HostObservation.registered owner other ∈ seen ++
      [.resultSet workerId context ("Hello-" ++ context.invocationId)] ↔
      .registered owner other ∈ seen := by simp
  have resultSet : ∀ owner other value, HostObservation.resultSet owner other value ∈ seen ++
      [.resultSet workerId context ("Hello-" ++ context.invocationId)] ↔
      .resultSet owner other value ∈ seen ∨
        owner = workerId ∧ other = context ∧ value = "Hello-" ++ context.invocationId := by simp
  have untouched : ∀ source, source ≠ context.resultSource →
      after.resultSources source = host.resultSources source := by
    intro source different
    rw [sources, Function.update_of_ne different]
  have unset := correlated.unset _ _ _ found
  -- A source set before belongs to another context.
  have others : ∀ owner other value, .resultSet owner other value ∈ seen →
      other.resultSource ≠ context.resultSource := by
    intro owner other value member same
    have held := (correlated.set _ _ _ member).2.2
    rw [same, unset] at held
    cases held
  constructor
  case named => exact named
  case entry =>
    intro owner key other pending
    rw [executing] at pending
    rw [registered]
    split at pending
    · cases pending
    · exact correlated.entry _ _ _ pending
  case unset =>
    intro owner key other pending
    rw [executing] at pending
    split at pending
    · cases pending
    · rename_i elsewhere
      rw [untouched]
      · exact correlated.unset _ _ _ pending
      · -- No other pending context has the completion source that is set.
        intro same
        obtain ⟨keySame, member⟩ := correlated.entry _ _ _ pending
        obtain ⟨rfl, rfl⟩ := correlated.unique _ _ _ _ member own (.inr same)
        exact elsewhere ⟨rfl, keySame.symm⟩
  case settled =>
    intro owner other member
    rw [registered] at member
    rw [executing]
    simp only [resultSet]
    rcases correlated.settled _ _ member with pending | ⟨value, earlier⟩
    · -- The context taken out is settled by the result given here, the others as before.
      by_cases here : owner = workerId ∧ other.invocationId = context.invocationId
      · obtain ⟨rfl, same⟩ := here
        obtain ⟨_, rfl⟩ := correlated.unique _ _ _ _ member own (.inl same)
        exact .inr ⟨_, .inr ⟨rfl, rfl, rfl⟩⟩
      · exact .inl (by rw [if_neg here]; exact pending)
    · exact .inr ⟨value, .inl earlier⟩
  case set =>
    intro owner other value member
    rw [registered]
    rcases (resultSet _ _ _).mp member with earlier | ⟨rfl, rfl, rfl⟩
    · obtain ⟨first, text, held⟩ := correlated.set _ _ _ earlier
      exact ⟨first, text, by rw [untouched _ (others _ _ _ earlier)]; exact held⟩
    · exact ⟨own, rfl, by rw [sources, Function.update_self]⟩
  case bounded =>
    intro owner other member
    rw [created, issued]
    exact correlated.bounded _ _ ((registered _ _).mp member)
  case unique =>
    intro first second one other oneIn otherIn shared
    exact correlated.unique _ _ _ _ ((registered _ _).mp oneIn) ((registered _ _).mp otherIn) shared
  case sources =>
    intro source set
    by_cases here : source = context.resultSource
    · exact ⟨_, _, _, (resultSet _ _ _).mpr (.inr ⟨rfl, rfl, rfl⟩), here.symm⟩
    · rw [untouched source here] at set
      obtain ⟨owner, other, value, member, same⟩ := correlated.sources source set
      exact ⟨owner, other, value, (resultSet _ _ _).mpr (.inl member), same⟩
  case once =>
    simp only [List.filterMap_append, List.filterMap_cons, setSource, List.filterMap_nil]
    rw [List.nodup_append]
    refine ⟨correlated.once, by simp, ?_⟩
    intro source earlier last member same
    rw [List.mem_singleton.mp member] at same
    obtain ⟨observation, inSeen, shown⟩ := List.mem_filterMap.mp earlier
    cases observation <;> simp only [setSource, reduceCtorEq, Option.some.injEq] at shown
    exact others _ _ _ inSeen (shown.trans same)
  case quiet =>
    intro owner
    simpa using correlated.quiet owner
  case arrived =>
    exact fun owner event member => List.mem_append_left _ (arrived owner event member)

theorem setResult_some {source after : TaskCompletionSource} {value : String} :
    source.setResult value = some after ↔ source.result = none ∧ after = ⟨some value⟩ := by
  cases result : source.result <;> simp [TaskCompletionSource.setResult, result, eq_comm]

theorem Correlated.invoke {seen out : List HostObservation} {host after : Host}
    (correlated : Correlated seen host) {workerId : String}
    (stepped : host.invoke workerId = some (after, out)) : Correlated (seen ++ out) after := by
  obtain ⟨event, response, rest, queue, _, awaiting, executing, answers, named, created, issued,
    _⟩ :=
    Host.invoke_views correlated.named stepped
  have arrived : ∀ other, ∀ later ∈ after.awaiting other, .inbound later ∈ seen := by
    intro other later member
    rw [awaiting] at member
    split at member
    · subst other
      exact correlated.arrived workerId later (queue ▸ List.mem_cons_of_mem event member)
    · exact correlated.arrived other later member
  cases found : host.executing workerId response.invocationId with
  | none =>
    rw [found] at answers
    obtain ⟨sources, rfl⟩ := answers
    refine correlated.frame named (by simp [neutral]) ?_ sources created issued
      fun other later member => List.mem_append_left _ (arrived other later member)
    intro other id
    rw [executing]
    split
    · rename_i here
      rw [here.1, here.2, found]
    · rfl
  | some context =>
    rw [found] at answers
    have unset := correlated.unset _ _ _ found
    rcases answers with ⟨refused, _⟩ | ⟨source, set, sources, rfl⟩
    · simp [TaskCompletionSource.setResult, unset] at refused
    · rw [(setResult_some.mp set).2] at sources
      exact correlated.complete found named executing sources created issued arrived

theorem Correlated.step {seen out : List HostObservation} {host after : Host}
    (correlated : Correlated seen host) {action : HostAction}
    (stepped : host.step action = some (after, out)) : Correlated (seen ++ out) after := by
  have named := correlated.named.step stepped
  cases action with
  | construct workerId =>
    obtain ⟨absent, rfl, rfl⟩ := Host.construct_some stepped
    refine correlated.frame named (by simp) ?_ rfl rfl rfl ?_
    · intro other id
      rw [Host.executing_setChannel]
      split
      · subst other
        simp [LanguageWorkerChannel.create, Host.executing, absent]
      · rfl
    · intro other event member
      rw [Host.awaiting_setChannel] at member
      split at member
      · simp [LanguageWorkerChannel.create] at member
      · simpa using correlated.arrived other event member
  | addWorkerChannel workerId =>
    simp only [Host.step, Host.addWorkerChannel, Option.ite_none_right_eq_some] at stepped
    cases stepped.2
    exact correlated.frame named (by simp) (fun _ _ => rfl) rfl rfl rfl
      fun other event member => List.mem_append_left _ (correlated.arrived other event member)
  | get workerId functionId invocationId => exact correlated.get stepped
  | publish invocationId =>
    obtain ⟨event, _, rfl, rfl⟩ := Host.publish_some stepped
    exact correlated.frame named (by simp [neutral]) (fun _ _ => rfl) rfl rfl rfl
      fun other later member => List.mem_append_left _ (correlated.arrived other later member)
  | inbound event =>
    obtain ⟨rfl, rfl⟩ := Host.step_inbound stepped
    refine correlated.frame named (by simp [neutral]) (Host.executing_inbound host event)
      rfl rfl rfl ?_
    intro other later member
    rw [Host.awaiting_inbound correlated.named] at member
    rcases List.mem_append.mp member with queued | new
    · exact List.mem_append_left _ (correlated.arrived other later queued)
    · split at new
      · rw [List.mem_singleton.mp new]
        simp
      · simp at new
  | observe workerId =>
    obtain ⟨channel, pipeline, found, same, rfl, rfl⟩ := Host.observe_some stepped
    refine correlated.frame named (by simp) ?_ rfl rfl rfl ?_
    · intro other id
      rw [Host.executing_setChannel]
      split
      · subst other
        exact (Host.executing_of_channel found id).symm
      · rfl
    · intro other event member
      rw [Host.awaiting_setChannel] at member
      split at member
      · subst other
        rw [same, ← Host.awaiting_of_channel found] at member
        simpa using correlated.arrived _ event member
      · simpa using correlated.arrived other event member
  | invoke workerId => exact correlated.invoke stepped

theorem correlated_of_run {actions : List HostAction} {seen : List HostObservation} {host : Host}
    (run : hostMachine.Run actions seen host) : Correlated seen host := by
  refine run.invariant ?_ fun _ _ _ _ _ _ _ correlated stepped => correlated.step stepped
  constructor <;> simp [hostMachine, Host.initial, Host.Named, Host.executing, Host.awaiting]

/-- What is promised of a channel whatever answers its requests. -/
structure CorrelationExact (seen : List HostObservation) (host : Host) : Prop where
  covered : ∀ workerId channel, host.channels workerId = some channel → ∀ id,
    id ∈ registeredIds workerId seen ↔
      id ∈ channel.executingInvocations.keys ∨ id ∈ completedIds workerId seen
  disjoint : ∀ workerId channel, host.channels workerId = some channel →
    ∀ id ∈ channel.executingInvocations.keys, id ∉ completedIds workerId seen
  setOnce : (seen.filterMap setSource).Nodup
  neverRaises : ∀ workerId, .raised workerId ∉ seen
  value : ∀ workerId context, .registered workerId context ∈ seen → ∀ result,
    (host.resultSources context.resultSource).result = some result →
    result = "Hello-" ++ context.invocationId ∧ .resultSet workerId context result ∈ seen
  held : ∀ workerId context result, .resultSet workerId context result ∈ seen →
    (host.resultSources context.resultSource).result = some result
  answered : ∀ before workerId context result later,
    seen = before ++ .resultSet workerId context result :: later →
    .registered workerId context ∈ before ∧
      ∃ event response, .inbound event ∈ before ∧ event.workerId = workerId ∧
        event.message.invocationResponse = some response ∧
        response.invocationId = context.invocationId

theorem Correlated.covered {seen : List HostObservation} {host : Host}
    (correlated : Correlated seen host) {workerId : String} (id : String) :
    id ∈ registeredIds workerId seen ↔
      (∃ context, host.executing workerId id = some context) ∨ id ∈ completedIds workerId seen := by
  rw [mem_registeredIds, mem_completedIds]
  constructor
  · rintro ⟨context, member, rfl⟩
    rcases correlated.settled _ _ member with pending | ⟨value, done⟩
    · exact .inl ⟨context, pending⟩
    · exact .inr ⟨context, value, done, rfl⟩
  · rintro (⟨context, pending⟩ | ⟨context, value, done, rfl⟩)
    · obtain ⟨same, member⟩ := correlated.entry _ _ _ pending
      exact ⟨context, member, same⟩
    · exact ⟨context, (correlated.set _ _ _ done).1, rfl⟩

theorem Correlated.disjoint {seen : List HostObservation} {host : Host}
    (correlated : Correlated seen host) {workerId id : String} {context : ScriptInvocationContext}
    (pending : host.executing workerId id = some context) :
    id ∉ completedIds workerId seen := by
  rw [mem_completedIds]
  rintro ⟨other, value, done, rfl⟩
  obtain ⟨same, member⟩ := correlated.entry _ _ _ pending
  obtain ⟨registered, _, held⟩ := correlated.set _ _ _ done
  obtain ⟨_, rfl⟩ := correlated.unique _ _ _ _ member registered (.inl same)
  rw [correlated.unset _ _ _ pending] at held
  cases held

theorem Correlated.answered {seen early late : List HostObservation} {host after : Host}
    (correlated : Correlated seen host) {action : HostAction} {workerId value : String}
    {context : ScriptInvocationContext}
    (stepped : host.step action =
      some (after, early ++ .resultSet workerId context value :: late)) :
    early = [] ∧ .registered workerId context ∈ seen ∧
      ∃ event response, .inbound event ∈ seen ∧ event.workerId = workerId ∧
        event.message.invocationResponse = some response ∧
        response.invocationId = context.invocationId := by
  have single : ∀ other : HostObservation,
      [other] = early ++ .resultSet workerId context value :: late →
      early = [] ∧ other = .resultSet workerId context value := by
    intro other same
    cases early with
    | nil => exact ⟨rfl, (List.cons.inj same).1⟩
    | cons first rest => simp at same
  -- Only `InvokeResponse` sets a result.
  cases action with
  | construct owner => simpa using (Host.construct_some stepped).2.2
  | addWorkerChannel owner =>
    simp [Host.step, Host.addWorkerChannel] at stepped
  | get owner functionId invocationId =>
    obtain ⟨_, _, _, _, _, out⟩ := Host.get_some stepped
    cases (single _ out.symm).2
  | publish invocationId =>
    obtain ⟨_, _, _, out⟩ := Host.publish_some stepped
    cases (single _ out.symm).2
  | inbound event => cases (single _ (Host.step_inbound stepped).2.symm).2
  | observe owner =>
    obtain ⟨_, _, _, _, _, out⟩ := Host.observe_some stepped
    simp at out
  | invoke owner =>
    obtain ⟨event, response, rest, queue, content, _, _, answers, _⟩ :=
      Host.invoke_views correlated.named stepped
    have waiting : event ∈ host.awaiting owner := queue ▸ List.mem_cons_self
    cases found : host.executing owner response.invocationId with
    | none =>
      rw [found] at answers
      cases (single _ answers.2.symm).2
    | some pending =>
      rw [found] at answers
      rcases answers with ⟨_, _, out⟩ | ⟨_, _, _, out⟩
      · cases (single _ out.symm).2
      · obtain ⟨first, same⟩ := single _ out.symm
        cases same
        obtain ⟨own, registered⟩ := correlated.entry _ _ _ found
        exact ⟨first, registered, event, response, correlated.arrived _ _ waiting,
          (Host.awaiting_response correlated.named waiting).1, content, own.symm⟩

/-- Whatever inbound events arrive, in whatever order they meet the requests:
each invocation is pending or completed, and completed once, with its own
result, by a response to it. -/
theorem correlation_exact {actions : List HostAction} {seen : List HostObservation} {host : Host}
    (run : hostMachine.Run actions seen host) : CorrelationExact seen host := by
  have correlated := correlated_of_run run
  have keys : ∀ workerId channel, host.channels workerId = some channel → ∀ id,
      id ∈ channel.executingInvocations.keys ↔
        ∃ context, host.executing workerId id = some context := by
    intro workerId channel found id
    rw [Dictionary.mem_keys]
    simp only [Host.executing_of_channel found]
  constructor
  · intro workerId channel found id
    rw [keys workerId channel found]
    exact correlated.covered id
  · intro workerId channel found id member
    obtain ⟨context, pending⟩ := (keys workerId channel found id).mp member
    exact correlated.disjoint pending
  · exact correlated.once
  · exact correlated.quiet
  · intro workerId context member result held
    obtain ⟨owner, other, value, done, same⟩ :=
      correlated.sources context.resultSource (by rw [held]; simp)
    obtain ⟨registered, text, set⟩ := correlated.set _ _ _ done
    obtain ⟨rfl, rfl⟩ := correlated.unique _ _ _ _ member registered (.inr same.symm)
    rw [held, Option.some.injEq] at set
    subst set
    exact ⟨text, done⟩
  · intro workerId context result done
    exact (correlated.set _ _ _ done).2.2
  · intro before workerId context result later split
    obtain ⟨_, first, _, _, _, early, _, earlier, stepped, rfl⟩ := run.emitted split
    obtain ⟨rfl, facts⟩ := (correlated_of_run earlier).answered stepped
    simpa using facts

/-- An early, a stray and a duplicated response around one invocation of each of
two channels. -/
def hostileSchedule : List HostAction :=
  [.construct "w", .construct "v", .addWorkerChannel "w", .addWorkerChannel "v",
    .inbound ⟨"w", { content := .invocationResponse ⟨"i", "early"⟩ }⟩,
    .observe "w", .observe "v", .invoke "w",
    .get "w" "5" "i", .get "v" "5" "j", .publish "i",
    .inbound ⟨"v", { content := .invocationResponse ⟨"i", "stray"⟩ }⟩,
    .inbound ⟨"w", { content := .invocationResponse ⟨"i", "Success"⟩ }⟩,
    .inbound ⟨"w", { content := .invocationResponse ⟨"i", "Success"⟩ }⟩,
    .observe "w", .observe "w", .observe "w", .observe "v", .observe "v",
    .invoke "w", .invoke "w", .invoke "v"]

theorem correlation_exact_hostile :
    ∃ host seen, hostMachine.exec Host.initial hostileSchedule = some (host, seen) ∧
      CorrelationExact seen host ∧
      completedIds "w" seen = ["i"] ∧ completedIds "v" seen = [] :=
  ⟨_, _, rfl, correlation_exact (@Machine.Run.of_exec _ _ _ hostMachine hostileSchedule _ _ rfl),
    by decide, by decide⟩

end BenchmarkHost
