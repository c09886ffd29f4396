import BenchmarkHost.Library.Dictionary
import BenchmarkHost.Library.Managed

/-! `InvokeFunction`: one response for each request of a stream.

The handler turns the request it has read into the response: it renames it and
adds a binding to its `Output`. The map refuses a key that is bound already,
and what it raises ends the handler.
-/

set_option autoImplicit false

namespace BenchmarkHost

open Library

structure FunctionMetadata where
  invocationId : String
  functionName : String
  input : Dictionary String (List UInt8)
  output : Dictionary String (List UInt8)

def copyFromUtf8 (text : String) : List UInt8 := text.toUTF8.toList

/-- What a handler has written and how it came to an end. -/
structure Responses where
  written : List FunctionMetadata
  raised : Option RuntimeException

namespace RouteGuideImpl

def result : List UInt8 := copyFromUtf8 "response to hey"

def respond (funcMetadata : FunctionMetadata) : Except RuntimeException FunctionMetadata :=
  let funcMetadata := { funcMetadata with functionName := " Queue trigger out" }
  match funcMetadata.output.add funcMetadata.invocationId result with
  | some output => .ok { funcMetadata with output }
  | none => .error .argument

/-- The handler on the requests still to come, while no write fails. -/
def invokeFunction : List FunctionMetadata → Responses
  | [] => ⟨[], none⟩
  | funcMetadata :: requests =>
    match respond funcMetadata with
    | .error raised => ⟨[], some raised⟩
    | .ok response =>
      let later := invokeFunction requests
      ⟨response :: later.written, later.raised⟩

end RouteGuideImpl

open RouteGuideImpl

/-- A response to a request adds the result under the request's own id. -/
structure Answers (request response : FunctionMetadata) : Prop where
  invocationId : response.invocationId = request.invocationId
  input : response.input = request.input
  bound : response.output.tryGetValue request.invocationId = some result
  others : ∀ key, key ≠ request.invocationId →
    response.output.tryGetValue key = request.output.tryGetValue key

def Unanswered (request : FunctionMetadata) : Prop :=
  request.output.tryGetValue request.invocationId = none

/-- Every request of the stream is answered, in order, and the handler returns. -/
def AnswersAll (requests : List FunctionMetadata) : Prop :=
  (invokeFunction requests).raised = none ∧
    List.Forall₂ Answers requests (invokeFunction requests).written

/-! ### One request -/

theorem respond_ok {request : FunctionMetadata} (unanswered : Unanswered request) :
    ∃ response, respond request = .ok response ∧ Answers request response := by
  have added : request.output.add request.invocationId result =
      some ⟨request.output.entries.insert request.invocationId result⟩ :=
    Dictionary.add_eq_some.mpr ⟨unanswered, rfl⟩
  refine ⟨{ request with
    functionName := " Queue trigger out"
    output := ⟨request.output.entries.insert request.invocationId result⟩ }, ?_, rfl, rfl, ?_, ?_⟩
  · rw [respond]
    dsimp only
    rw [added]
  · exact (Dictionary.tryGetValue_add added _).trans (if_pos rfl)
  · intro key other
    exact (Dictionary.tryGetValue_add added key).trans (if_neg other)

theorem respond_error {request : FunctionMetadata} (answered : ¬ Unanswered request) :
    respond request = .error .argument := by
  cases found : request.output.tryGetValue request.invocationId with
  | none => exact absurd found answered
  | some value => simp [respond, Dictionary.add, found]

theorem respond_response {request response : FunctionMetadata} (answers : Answers request response) :
    respond response = .error .argument := by
  apply respond_error
  intro unanswered
  rw [Unanswered, answers.invocationId, answers.bound] at unanswered
  cases unanswered

/-! ### The stream -/

theorem invokeFunction_unanswered {request response : FunctionMetadata}
    {requests : List FunctionMetadata} (responded : respond request = .ok response) :
    invokeFunction (request :: requests) =
      ⟨response :: (invokeFunction requests).written, (invokeFunction requests).raised⟩ := by
  rw [invokeFunction, responded]

theorem invokeFunction_answered {request : FunctionMetadata} {requests : List FunctionMetadata}
    (answered : ¬ Unanswered request) :
    invokeFunction (request :: requests) = ⟨[], some .argument⟩ := by
  rw [invokeFunction, respond_error answered]

/-- The first request with an entry for its id ends the stream: those before it
are answered, and no later one is. -/
theorem invokeFunction_stops {before after : List FunctionMetadata} {request : FunctionMetadata}
    (unanswered : ∀ earlier ∈ before, Unanswered earlier) (answered : ¬ Unanswered request) :
    (invokeFunction (before ++ request :: after)).raised = some .argument ∧
      List.Forall₂ Answers before (invokeFunction (before ++ request :: after)).written := by
  induction before with
  | nil =>
    rw [List.nil_append, invokeFunction_answered answered]
    exact ⟨rfl, .nil⟩
  | cons first rest ih =>
    obtain ⟨response, responded, answers⟩ := respond_ok (unanswered first List.mem_cons_self)
    obtain ⟨raised, later⟩ := ih fun other member =>
      unanswered other (List.mem_cons_of_mem first member)
    rw [List.cons_append, invokeFunction_unanswered responded]
    exact ⟨raised, .cons answers later⟩

theorem answers_all_iff (requests : List FunctionMetadata) :
    AnswersAll requests ↔
      ∀ request ∈ requests, request.output.tryGetValue request.invocationId = none := by
  induction requests with
  | nil => exact iff_of_true ⟨rfl, .nil⟩ fun request member => nomatch member
  | cons first rest ih =>
    rw [List.forall_mem_cons, ← ih, AnswersAll]
    by_cases unanswered : Unanswered first
    · obtain ⟨response, responded, answers⟩ := respond_ok unanswered
      rw [invokeFunction_unanswered responded]
      constructor
      · rintro ⟨raised, all⟩
        exact ⟨unanswered, raised, (List.forall₂_cons.mp all).2⟩
      · rintro ⟨_, raised, all⟩
        exact ⟨raised, .cons answers all⟩
    · rw [invokeFunction_answered unanswered]
      constructor
      · rintro ⟨raised, _⟩
        cases raised
      · rintro ⟨free, _⟩
        exact absurd free unanswered

/-! ### A response sent back -/

def hey (invocationId : String) : FunctionMetadata where
  invocationId
  functionName := "QueuTrigger"
  input := ⟨AList.singleton invocationId (copyFromUtf8 "hey")⟩
  output := .empty

/-- The second request is the response to the first, and the third, which has
no output at all, is never answered. -/
theorem echo_ends_stream :
    ∃ response, respond (hey "34534") = .ok response ∧
      (invokeFunction [hey "34534", response, hey "34535"]).raised = some .argument ∧
      ¬ AnswersAll [hey "34534", response, hey "34535"] := by
  have unanswered : Unanswered (hey "34534") := Dictionary.tryGetValue_empty _
  obtain ⟨response, responded, answers⟩ := respond_ok unanswered
  have refused := respond_response answers
  have raised : (invokeFunction [hey "34534", response, hey "34535"]).raised = some .argument := by
    rw [invokeFunction_unanswered responded, invokeFunction, refused]
  refine ⟨response, responded, raised, ?_⟩
  rintro ⟨returns, _⟩
  rw [raised] at returns
  cases returns

end BenchmarkHost
