import BenchmarkHost.Composition.Conservation

/-! The order of requests and results.

Writes on a worker's stream follow the publications for that worker alone, one
at a time; a write that fails takes only its own message away. Results are set
in the order in which their requests were published.
-/

set_option autoImplicit false

namespace BenchmarkHost

open Library

/-- What a subscriber does next does not depend on how its write went. -/
theorem write_outcome (service : FunctionRpcService) (workerId : String) :
    (service.step (.write workerId false)).map Prod.fst =
      (service.step (.write workerId true)).map Prod.fst := by
  simp only [FunctionRpcService.step, FunctionRpcService.write]
  split
  · rfl
  · split
    · split <;> rfl
    · rfl

/-- The order kept on every worker's stream and by its channel. -/
structure OrderKept (seen : List SystemObservation) (system : System) : Prop where
  /-- The attempts on a worker's stream are the first events published for it. -/
  attempts : ∀ workerId subscription,
    system.pair.service.entry workerId = some subscription →
    (serviceSeen seen).filterMap (·.attemptedOn subscription.responseStream) <+:
      (serviceSeen seen).filterMap (·.publishedLive workerId)
  /-- All attempts but the one in progress have returned. -/
  oneAtATime : ∀ workerId subscription,
    system.pair.service.entry workerId = some subscription →
    ((serviceSeen seen).filterMap (·.attemptedOn subscription.responseStream)).length =
      ((serviceSeen seen).filterMap (·.returnedOn subscription.responseStream)).length +
        if subscription.writing then 1 else 0
  /-- The attempts that did not fail, in order, are what the client gets. -/
  delivered : ∀ call, (pairSeen seen).filterMap (Pair.receivedOn call) ++
      system.pair.responseStream call =
    ((serviceSeen seen).filterMap (·.deliveredOn call)).map (·.message)
  /-- After a failed write the subscriber stands where a successful one leaves it. -/
  undisturbed : ∀ workerId, (system.pair.service.step (.write workerId false)).map Prod.fst =
    (system.pair.service.step (.write workerId true)).map Prod.fst
  completions : ∀ workerId, (completedIds workerId (hostSeen seen)).Sublist
    ((hostSeen seen).filterMap (·.sentId workerId))

theorem order_kept {workerOf : CallId → String} {actions : List SystemAction}
    {seen : List SystemObservation} {system : System}
    (run : (systemMachine workerOf).Run actions seen system) : OrderKept seen system := by
  obtain ⟨schedule, pair⟩ := pair_run run
  obtain ⟨_, service⟩ := service_run pair
  have ordered := ordered_of_run service
  constructor
  · exact ordered.begun
  · exact ordered.serial
  · intro call
    exact (response_history pair call).trans (Pair.filterMap_deliveredOn call _)
  · exact fun workerId => write_outcome system.pair.service workerId
  · intro workerId
    have taken := (List.sublist_append_left _ _).trans (held_pass run workerId).order
    exact (completed_sublist workerId _).trans (taken.trans (accepted_sublist run workerId))

/-- Two requests for one worker, one for another; the first write fails. -/
def failingWrite : List SystemAction :=
  [.host (.construct "w"), .host (.construct "v"), .pair (.client 0 .openCall), .pair (.accept 0),
    .host (.addWorkerChannel "w"), .host (.addWorkerChannel "v"), .pair (.client 0 .subscribe),
    .pair (.client 0 (.writeStart true)), .pair (.read 0), .pair (.client 0 .startWritten),
    .host (.get "w" "1" "i"), .host (.get "v" "1" "k"), .host (.get "w" "1" "j"),
    .host (.publish "i"), .host (.publish "k"), .host (.publish "j"), .pair (.write "w" false),
    .pair (.written "w"), .pair (.write "w" true), .pair (.deliver 0), .pair (.client 0 .observe),
    .pair (.client 0 .handle), .pair (.client 0 (.respond true)), .pair (.read 0),
    .host (.observe "w"), .host (.observe "w"), .host (.invoke "w")]

theorem order_kept_failing :
    ∃ system seen, (systemMachine fun _ => "w").exec (System.initial fun _ => "w")
        failingWrite = some (system, seen) ∧
      OrderKept seen system ∧ completedIds "w" (hostSeen seen) = ["j"] :=
  ⟨_, _, rfl, order_kept
    (@Machine.Run.of_exec _ _ _ (systemMachine fun _ => "w") failingWrite _ _ rfl), by decide⟩

end BenchmarkHost
