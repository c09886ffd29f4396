import BenchmarkHost.Composition.Handshake

/-! The two writers of a worker's request stream.

`RpcStream` writes `StartStream` and the outbound subscriber writes responses.
The subscriber waits for its own writes, but nothing makes it wait for the
first one: the service may answer `StartStream` before its `WriteAsync` is over.
-/

set_option autoImplicit false

namespace BenchmarkHost

open Library PairObservation

def ClientAction.writes : ClientAction → Bool
  | .writeStart _ | .respond _ => true
  | _ => false

namespace FunctionRpcClient

/-- A `WriteAsync` on the request stream has been called and is not over. -/
def WritePending (client : FunctionRpcClient) : Prop :=
  client.phase = .starting ∨ client.responding = true

theorem phase_of_step {client after : FunctionRpcClient} {action : ClientAction}
    {out : List ClientObservation} (stepped : client.step action = some (after, out)) :
    (action = .startWritten ∧ after.phase = .reading) ∨
    action ≠ .startWritten ∧
      (after.phase = client.phase ∨
        (client.Unstarted ∧ after.phase ≠ .reading ∧
          (after.phase = .closed → out.filterMap (·.wroteMessage) = [])) ∨
        (client.phase = .reading ∧ after.phase = .closed)) := by
  rcases phase_cases stepped with
    ⟨now, _, reads⟩ | ⟨other, same | ⟨fresh, next⟩ | ⟨opened, next⟩ | ⟨subscribed, next⟩ | closed⟩
  · exact .inl ⟨now, reads⟩
  · exact .inr ⟨other, .inl same⟩
  · exact .inr ⟨other, .inr (.inl ⟨.inl fresh, by simp [next]⟩)⟩
  · exact .inr ⟨other, .inr (.inl ⟨.inr (.inl opened), by simp [next]⟩)⟩
  · refine .inr ⟨other, .inr (.inl ⟨.inr (.inr subscribed), ?_⟩)⟩
    rcases next with starting | ⟨closed, silent⟩
    · simp [starting]
    · exact ⟨by simp [closed], fun _ => silent⟩
  · exact .inr ⟨other, .inr (.inr closed)⟩

theorem responding_of_step {client after : FunctionRpcClient} {action : ClientAction}
    {out : List ClientObservation} (stepped : client.step action = some (after, out))
    (responding : after.responding = true) :
    client.responding = true ∨ out.filterMap (·.wroteMessage) ≠ [] := by
  cases action with
  | openCall | subscribe | startWritten | close =>
    simp only [step, openCall, subscribe, startWritten, close] at stepped
    split at stepped <;> cases stepped
    exact .inl responding
  | writeStart succeeds =>
    obtain ⟨_, ⟨_, rfl, _⟩ | ⟨rfl, _⟩ | ⟨rfl, _⟩⟩ := writeStart_some stepped <;>
      exact .inl responding
  | receive message =>
    obtain ⟨_, rfl, _⟩ := receive_some stepped
    exact .inl responding
  | observe =>
    obtain ⟨_, _, rfl, _⟩ := observe_some stepped
    exact .inl responding
  | handle =>
    obtain ⟨_, _, _, _, _, rfl, _⟩ := handle_some stepped
    exact .inl responding
  | respond succeeds =>
    obtain ⟨_, _, _, _, ⟨_, rfl, _⟩ | ⟨_, rfl, _⟩ | ⟨_, _, _, rfl⟩⟩ := respond_some stepped
    · exact .inl responding
    · exact .inl responding
    · exact .inr (by simp [ClientObservation.wroteMessage])
  | responded =>
    simp only [step, responded, Option.ite_none_right_eq_some] at stepped
    cases stepped.2
    cases responding

/-- A call of `WriteAsync` raises for another write exactly when one is pending. -/
theorem overlapped_iff {client after : FunctionRpcClient} {action : ClientAction}
    {out : List ClientObservation} (stepped : client.step action = some (after, out)) :
    (∃ message, .overlapped message ∈ out) ↔ action.writes = true ∧ client.WritePending := by
  cases action with
  | openCall | subscribe | startWritten | close =>
    simp only [step, openCall, subscribe, startWritten, close] at stepped
    split at stepped <;> cases stepped
    simp [ClientAction.writes]
  | writeStart succeeds =>
    simp only [step, writeStart] at stepped
    split at stepped
    · rename_i phase
      split at stepped
      · rename_i pending
        cases stepped
        simp [ClientAction.writes, WritePending, pending]
      · rename_i free
        split at stepped <;> cases stepped <;> simp [ClientAction.writes, WritePending, phase, free]
    · cases stepped
  | receive message =>
    obtain ⟨_, _, rfl⟩ := receive_some stepped
    simp [ClientAction.writes]
  | observe =>
    obtain ⟨_, _, _, rfl⟩ := observe_some stepped
    simp [ClientAction.writes]
  | handle =>
    obtain ⟨_, _, _, _, _, _, rfl⟩ := handle_some stepped
    simp [ClientAction.writes]
  | respond succeeds =>
    obtain ⟨_, _, _, free, ⟨phase, _, rfl⟩ | ⟨phase, _, rfl⟩ | ⟨phase, _, _, rfl⟩⟩ :=
      respond_some stepped <;> simp [ClientAction.writes, WritePending, phase, free]
  | responded =>
    simp only [step, responded, Option.ite_none_right_eq_some] at stepped
    cases stepped.2
    simp [ClientAction.writes]

end FunctionRpcClient

/-- The first write of every client against the actions taken. -/
structure Timed (actions : List PairAction) (seen : List PairObservation) (pair : Pair) : Prop where
  completed : ∀ call, .client call .startWritten ∈ actions →
    (pair.clients call).phase = .reading ∨ (pair.clients call).phase = .closed
  reading : ∀ call, (pair.clients call).phase = .reading → .client call .startWritten ∈ actions
  closed : ∀ call, (pair.clients call).phase = .closed →
    .client call .startWritten ∈ actions ∨ seen.filterMap (Pair.wroteOn call) = []
  responding : ∀ call, (pair.clients call).responding = true →
    seen.filterMap (Pair.wroteOn call) ≠ []

theorem Timed.step {actions : List PairAction} {seen out : List PairObservation}
    {pair after : Pair} {action : PairAction} (timed : Timed actions seen pair)
    (stepped : pair.step action = some (after, out))
    (unwritten : ∀ call, (pair.clients call).Unstarted → seen.filterMap (Pair.wroteOn call) = []) :
    Timed (actions ++ [action]) (seen ++ out) after := by
  have wrote : ∀ call, (seen ++ out).filterMap (Pair.wroteOn call) =
      seen.filterMap (Pair.wroteOn call) ++ (out.filterMap (clientPart call)).filterMap
        (·.wroteMessage) := by
    intro call
    rw [List.filterMap_append, Pair.filterMap_wroteOn call out]
  have started : ∀ call, .client call .startWritten ∈ actions ++ [action] ↔
      .client call .startWritten ∈ actions ∨ action = .client call .startWritten := by
    intro call
    rw [List.mem_append, List.mem_singleton, eq_comm]
  constructor
  case completed =>
    intro call
    rw [started]
    rintro (before | now)
    · have phase := timed.completed call before
      rcases Pair.client_of_step call stepped with ⟨part, shown, moved, _, _⟩ | ⟨same, _, _⟩
      · rcases FunctionRpcClient.phase_of_step moved with ⟨_, phase⟩ | ⟨_, same | fresh | closed⟩
        · exact .inl phase
        · rwa [same]
        · -- A stream whose first write is over is past its start.
          rcases fresh.1 with early | early | early <;> rw [early] at phase <;> simp at phase
        · exact .inr closed.2
      · rwa [same]
    · rcases Pair.client_of_step call stepped with ⟨part, shown, moved, _, mine⟩ | ⟨_, _, other⟩
      · obtain rfl := (mine .startWritten (by simp)).mp now
        rcases FunctionRpcClient.phase_of_step moved with ⟨_, phase⟩ | ⟨different, _⟩
        · exact .inl phase
        · exact absurd rfl different
      · exact absurd now (other _)
  case reading =>
    intro call
    rw [started]
    intro phase
    rcases Pair.client_of_step call stepped with ⟨part, shown, moved, _, mine⟩ | ⟨same, _, _⟩
    · rcases FunctionRpcClient.phase_of_step moved with ⟨now, _⟩ | ⟨_, same | fresh | closed⟩
      · exact .inr ((mine .startWritten (by simp)).mpr now)
      · exact .inl (timed.reading call (same ▸ phase))
      · exact absurd phase fresh.2.1
      · rw [closed.2] at phase
        cases phase
    · exact .inl (timed.reading call (same ▸ phase))
  case closed =>
    intro call
    rw [started, wrote]
    intro phase
    rcases Pair.client_of_step call stepped with ⟨part, shown, moved, own, mine⟩ | ⟨same, none, _⟩
    · rcases FunctionRpcClient.phase_of_step moved with ⟨now, _⟩ | ⟨_, same | fresh | closed⟩
      · exact .inl (.inr ((mine .startWritten (by simp)).mpr now))
      · rcases timed.closed call (same ▸ phase) with before | nothing
        · exact .inl (.inl before)
        · right
          rw [nothing, own, List.nil_append]
          rcases FunctionRpcClient.wrote_cases moved with silent | ⟨early, _⟩ | ⟨opened, _⟩
          · exact silent
          · rw [← same, phase] at early
            cases early
          · exact absurd (same ▸ phase) opened
      · -- The write of `StartStream` failed, so the stream closes with nothing on it.
        right
        rw [unwritten call fresh.1, own, fresh.2.2 phase]
        rfl
      · exact .inl (.inl (timed.reading call closed.1))
    · rw [none]
      rcases timed.closed call (same ▸ phase) with before | nothing
      · exact .inl (.inl before)
      · exact .inr (by simp [nothing])
  case responding =>
    intro call
    rw [wrote]
    intro responding
    rcases Pair.client_of_step call stepped with ⟨part, shown, moved, own, _⟩ | ⟨same, _, _⟩
    · rcases FunctionRpcClient.responding_of_step moved responding with before | now
      · simp [timed.responding call before]
      · rw [own]
        simp [now]
    · rw [same] at responding
      simp [timed.responding call responding]

theorem timed_of_run {workerOf : CallId → String} {actions : List PairAction}
    {seen : List PairObservation} {pair : Pair}
    (run : (pairMachine workerOf).Run actions seen pair) : Timed actions seen pair := by
  induction run with
  | start => constructor <;> simp [pairMachine, Pair.initial, FunctionRpcClient.create]
  | next earlier stepped ih =>
    exact ih.step stepped fun call unstarted => (begins_of_run earlier call).2 unstarted

/-- Whenever a client calls `WriteAsync`, none of its earlier writes is pending. -/
def OneWritePending (workerOf : CallId → String) (actions : List PairAction) : Prop :=
  ∀ earlier call action later, actions = earlier ++ .client call action :: later →
    action.writes = true → ∀ seen pair after out,
      (pairMachine workerOf).Run earlier seen pair →
      pair.step (.client call action) = some (after, out) → ¬ (pair.clients call).WritePending

/-- Every response is written after the write of `StartStream` is over. -/
def AnswersAfterStart (actions : List PairAction) : Prop :=
  ∀ earlier call succeeds later, actions = earlier ++ .client call (.respond succeeds) :: later →
    .client call .startWritten ∈ earlier

theorem one_write_pending_iff {workerOf : CallId → String} {actions : List PairAction}
    {seen : List PairObservation} {pair : Pair}
    (run : (pairMachine workerOf).Run actions seen pair) :
    OneWritePending workerOf actions ↔ AnswersAfterStart actions := by
  constructor
  · rintro alone earlier call succeeds later rfl
    obtain ⟨before, state, rest, front, executed, _⟩ := run.split
    obtain ⟨after, out, _, stepped, _, _⟩ := (pairMachine workerOf).exec_cons executed
    have free := alone earlier call (.respond succeeds) later rfl rfl before state after out front
      stepped
    obtain ⟨_, _, moved, _⟩ := Pair.clientStep_some (show state.clientStep call _ = _ from stepped)
    obtain ⟨event, rest, queue, _⟩ := FunctionRpcClient.respond_some moved
    -- There is an answer, so the client has written its `StartStream`.
    have spoken : before.filterMap (Pair.wroteOn call) ≠ [] := by
      intro unwritten
      have events := (silent_of_unwritten front unwritten).2
      rw [queue] at events
      cases events
    have timed := timed_of_run front
    cases phase : (state.clients call).phase with
    | constructed => exact absurd ((begins_of_run front call).2 (.inl phase)) spoken
    | opened => exact absurd ((begins_of_run front call).2 (.inr (.inl phase))) spoken
    | subscribed => exact absurd ((begins_of_run front call).2 (.inr (.inr phase))) spoken
    | starting => exact absurd (.inl phase) free
    | reading => exact timed.reading call phase
    | closed => exact (timed.closed call phase).resolve_right spoken
  · rintro ordered earlier call action later split writes before state after out front stepped
    have timed := timed_of_run front
    rintro (starting | responding)
    · cases action with
      | writeStart succeeds =>
        obtain ⟨_, _, moved, _⟩ :=
          Pair.clientStep_some (show state.clientStep call _ = _ from stepped)
        have phase := (FunctionRpcClient.writeStart_some moved).1
        rw [starting] at phase
        cases phase
      | respond succeeds =>
        have phase := timed.completed call (ordered earlier call succeeds later split)
        rw [starting] at phase
        rcases phase with phase | phase <;> cases phase
      | _ => cases writes
    · cases action with
      | writeStart succeeds =>
        obtain ⟨_, _, moved, _⟩ :=
          Pair.clientStep_some (show state.clientStep call _ = _ from stepped)
        have phase := (FunctionRpcClient.writeStart_some moved).1
        exact timed.responding call responding ((begins_of_run front call).2 (.inr (.inr phase)))
      | respond succeeds =>
        obtain ⟨_, _, moved, _⟩ :=
          Pair.clientStep_some (show state.clientStep call _ = _ from stepped)
        obtain ⟨_, _, _, free, _⟩ := FunctionRpcClient.respond_some moved
        rw [responding] at free
        cases free
      | _ => cases writes

/-- A worker that answers its first request before its handshake is over. -/
def promptAnswer : List PairAction :=
  [.client 0 .openCall, .accept 0, .client 0 .subscribe, .client 0 (.writeStart true), .read 0,
    .publish ⟨"w", { content := .invocationRequest ⟨"i", "5"⟩ }⟩, .write "w" true, .deliver 0,
    .client 0 .observe, .client 0 .handle, .client 0 (.respond true)]

theorem one_write_pending_iff_prompt :
    ∃ pair seen, (pairMachine fun _ => "w").exec (Pair.initial fun _ => "w") promptAnswer =
        some (pair, seen) ∧
      (OneWritePending (fun _ => "w") promptAnswer ↔ AnswersAfterStart promptAnswer) :=
  ⟨_, _, rfl,
    one_write_pending_iff (@Machine.Run.of_exec _ _ _ (pairMachine _) promptAnswer _ _ rfl)⟩

/-- The response raises and is lost: no queue and no stream holds it afterwards. -/
theorem two_writes_pending :
    ∃ pair seen, (pairMachine fun _ => "w").exec (Pair.initial fun _ => "w") promptAnswer =
        some (pair, seen) ∧
      .client 0 (.overlapped { content := .invocationResponse ⟨"i", "Success"⟩ }) ∈ seen ∧
      pair.requestStream 0 = [] ∧ (pair.clients 0).outboundEvents = some [] ∧
      ¬ OneWritePending (fun _ => "w") promptAnswer := by
  refine ⟨_, _, rfl, by decide, rfl, rfl, fun alone => ?_⟩
  have run := @Machine.Run.of_exec _ _ _ (pairMachine fun _ => "w") promptAnswer.dropLast _ _ rfl
  exact alone promptAnswer.dropLast 0 (.respond true) [] rfl rfl _ _ _ _ run rfl (.inl rfl)

end BenchmarkHost
