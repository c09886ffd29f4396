import BenchmarkHost.RouteGuide.GetBytes

/-! What arrives of a file that is sent in chunks.

A chunk is written unless its end wraps around or one of the calls that send it
raises. The first chunk that is not written ends the stream, and the client
cannot tell that end from a complete transfer.
-/

set_option autoImplicit false

namespace BenchmarkHost

open Library Extensions RouteGuideImpl RouteGuideClient

/-! ### Pieces of equal size -/

/-- The chunks from number `first` on, each cut where its number says. -/
def pieces (bytes : List UInt8) (size first count : Nat) : List Chunk :=
  (List.range' first count).map fun number =>
    ⟨number == 0, (bytes.drop (number * size)).take size, false⟩

theorem pieces_succ (bytes : List UInt8) (size first count : Nat) :
    pieces bytes size first (count + 1) =
      ⟨first == 0, (bytes.drop (first * size)).take size, false⟩ ::
        pieces bytes size (first + 1) count := by
  rw [pieces, List.range'_succ, List.map_cons]
  rfl

theorem flatMap_pieces (bytes : List UInt8) (size first count : Nat) :
    (pieces bytes size first count).flatMap (·.chunkBytes) =
      (bytes.drop (first * size)).take (count * size) := by
  induction count generalizing first with
  | zero => simp [pieces]
  | succ count ih =>
    have whole : (count + 1) * size = size + count * size := by
      rw [Nat.succ_mul, Nat.add_comm]
    have next : (first + 1) * size = first * size + size := Nat.succ_mul _ _
    rw [pieces_succ, List.flatMap_cons, ih, whole, List.take_add, List.drop_drop, next]

theorem sinceRestart_pieces (bytes : List UInt8) (size count : Nat) :
    sinceRestart (·.firstChunk) (pieces bytes size 0 count) = pieces bytes size 0 count := by
  cases count with
  | zero => rfl
  | succ count =>
    have continues : ∀ chunk ∈ pieces bytes size 1 count, chunk.firstChunk = false := by
      intro chunk member
      obtain ⟨number, among, rfl⟩ := List.mem_map.mp member
      have later := (List.mem_range'_1.mp among).1
      exact beq_false_of_ne (by omega)
    rw [pieces_succ]
    exact @sinceRestart_split Chunk (·.firstChunk) [] _ _ rfl continues

theorem foldl_receive_pieces (bytes : List UInt8) (size count : Nat) :
    (pieces bytes size 0 count).foldl receive [] = bytes.take (count * size) := by
  rw [receive_eq, foldl_accumulate, ite_self, List.nil_append, sinceRestart_pieces,
    flatMap_pieces, Nat.zero_mul, List.drop_zero]

/-! ### The chunks that the server writes -/

/-- The end of the chunk does not wrap around and no call that sends it raises. -/
def Sendable (faults : Faults) (size number : Nat) : Prop :=
  number * size + size < 2 ^ 31 ∧ ∀ callee, faults (.chunk (.ofNat number)) callee = none

theorem sendable_noFault {size number : Nat} :
    Sendable noFault size number ↔ number * size + size < 2 ^ 31 :=
  and_iff_left fun _ => rfl

theorem eq_ofNat {i : Int32} {number : Nat} (reached : i.toInt = number) : i = .ofNat number := by
  have below := i.toInt_lt
  rw [← Int32.toInt_inj, reached, Int32.toInt_ofNat_of_lt (by omega)]

theorem sendChunk_clean {service : RouteGuideImpl} {faults : Faults} {i : Int32}
    {bytes : List UInt8} (clean : ∀ callee, faults (.chunk i) callee = none)
    (copied : slice service.testBytes (service.startIndex i) (service.endIndex i) = .ok bytes) :
    service.sendChunk faults i = ⟨[⟨i == 0, bytes, false⟩], none⟩ := by
  simp only [sendChunk, makeChunk, writeChunk, clean, attempt, copied]
  rfl

theorem sendChunk_raises (service : RouteGuideImpl) {faults : Faults} {i : Int32}
    (fails : (∃ callee, faults (.chunk i) callee ≠ none) ∨
      ∃ raised, slice service.testBytes (service.startIndex i) (service.endIndex i) =
        .error raised) :
    ∃ raised, service.sendChunk faults i = ⟨[], some raised⟩ := by
  unfold sendChunk makeChunk
  cases slices : faults (.chunk i) .slice with
  | some raised => exact ⟨raised, rfl⟩
  | none =>
    cases copied : slice service.testBytes (service.startIndex i) (service.endIndex i) with
    | error raised => exact ⟨raised, rfl⟩
    | ok bytes =>
      cases copies : faults (.chunk i) .copyFrom with
      | some raised => exact ⟨raised, rfl⟩
      | none =>
        obtain ⟨callee, raises⟩ | ⟨raised, refused⟩ := fails
        · cases callee with
          | slice => exact absurd slices raises
          | copyFrom => exact absurd copies raises
          | writeAsync =>
            obtain ⟨raised, writes⟩ := Option.ne_none_iff_exists'.mp raises
            refine ⟨raised, ?_⟩
            simp only [attempt, writeChunk, writes]
            rfl
        · rw [copied] at refused
          cases refused

section
variable {service : RouteGuideImpl} {size : Nat} (sized : service.chunkSize.toInt = size)

include sized

theorem numberOfChunks_spec (positive : 0 < size) : ∃ number, service.numberOfChunks = .ok number ∧
    number.toInt = number.toNatClampNeg ∧
    service.testBytes.elements.length ≤ number.toNatClampNeg * size ∧
      number.toNatClampNeg * size < service.testBytes.elements.length + size := by
  have bound := service.testBytes.length_lt
  have nonzero : service.chunkSize ≠ 0 := by
    intro zero
    rw [zero, Int32.toInt_zero] at sized
    omega
  obtain ⟨count, same, few, covers, tight⟩ :=
    ceiling_spec service.testBytes.elements.length positive
  have value : (Int32.ofInt count).toInt = count :=
    Int32.toInt_ofInt_of_le (by omega) (by omega)
  have counted : (Int32.ofInt count).toNatClampNeg = count := by
    rw [← Int32.toNat_toInt, value, Int.toNat_natCast]
  refine ⟨.ofInt count, ?_, ?_⟩
  · rw [numberOfChunks, if_neg nonzero, ManagedArray.toInt_length, sized, same]
  · rw [counted]
    exact ⟨value, covers, tight⟩

section
variable {i : Int32} {number : Nat} (reached : i.toInt = number)
  (begins : number * size < service.testBytes.elements.length)

include reached begins

theorem toInt_startIndex : (service.startIndex i).toInt = (number * size : Nat) := by
  have bound := service.testBytes.length_lt
  rw [startIndex, Int32.toInt_mul, reached, sized, ← Int.natCast_mul,
    bmod_fits (by omega) (by omega)]

theorem toInt_nextIndex (fits : number * size + size < 2 ^ 31) :
    (service.startIndex i + service.chunkSize).toInt = (number * size + size : Nat) := by
  rw [Int32.toInt_add, toInt_startIndex sized reached begins, sized,
    bmod_fits (by omega) (by omega), Int.natCast_add]

theorem toInt_endIndex (fits : number * size + size < 2 ^ 31) :
    (service.endIndex i).toInt =
      (min (number * size + size) service.testBytes.elements.length : Nat) := by
  have unclamped := toInt_nextIndex sized reached begins fits
  unfold endIndex
  simp only [gt_iff_lt, Int32.lt_iff_toInt_lt, ManagedArray.toInt_length, unclamped]
  split
  · rw [ManagedArray.toInt_length]
    omega
  · rw [unclamped]
    omega

/-- An end that wraps around is negative, so the clamp to the length does not apply. -/
theorem toInt_endIndex_wrapped (wraps : 2 ^ 31 ≤ number * size + size) :
    (service.startIndex i + service.chunkSize).toInt =
        (number * size + size : Nat) - 2 ^ 32 ∧
      (service.endIndex i).toInt = (number * size + size : Nat) - 2 ^ 32 := by
  have bound := service.testBytes.length_lt
  have small := service.chunkSize.toInt_lt
  have unclamped : (service.startIndex i + service.chunkSize).toInt =
      (number * size + size : Nat) - 2 ^ 32 := by
    rw [Int32.toInt_add, toInt_startIndex sized reached begins, sized,
      bmod_over (by omega) (by omega), Int.natCast_add]
  refine ⟨unclamped, ?_⟩
  unfold endIndex
  simp only [gt_iff_lt, Int32.lt_iff_toInt_lt, ManagedArray.toInt_length, unclamped]
  rw [if_neg (by omega), unclamped]

theorem slice_fits (fits : number * size + size < 2 ^ 31) :
    slice service.testBytes (service.startIndex i) (service.endIndex i) =
      .ok ((service.testBytes.elements.drop (number * size)).take size) := by
  have bound := service.testBytes.length_lt
  have start := toInt_startIndex sized reached begins
  have clamped := toInt_endIndex sized reached begins fits
  set length := min size (service.testBytes.elements.length - number * size) with shown
  have ends : effectiveEnd service.testBytes (service.endIndex i) =
      (number * size : Nat) + length := by
    unfold effectiveEnd
    rw [clamped]
    split <;> omega
  have piece : (service.testBytes.elements.drop (number * size)).take length =
      (service.testBytes.elements.drop (number * size)).take size := by
    rw [List.take_eq_take_iff, List.length_drop]
    omega
  rw [slice_inside start ends (by omega), piece]

theorem slice_wraps (wraps : 2 ^ 31 ≤ number * size + size) :
    ∃ raised, slice service.testBytes (service.startIndex i) (service.endIndex i) =
      .error raised := by
  have bound := service.testBytes.length_lt
  have small := service.chunkSize.toInt_lt
  have start := toInt_startIndex sized reached begins
  have wrapped := (toInt_endIndex_wrapped sized reached begins wraps).2
  have ends : effectiveEnd service.testBytes (service.endIndex i) =
      service.testBytes.elements.length + ((number * size + size : Nat) - 2 ^ 32) := by
    rw [effectiveEnd, wrapped, if_pos (by omega)]
  have backwards : effectiveEnd service.testBytes (service.endIndex i) <
      (service.startIndex i).toInt := by omega
  exact slice_outside (Int.ne_of_lt backwards) fun inside =>
    Int.lt_asymm backwards inside.2.1

theorem sendChunk_sendable {faults : Faults} (sendable : Sendable faults size number) :
    service.sendChunk faults i = ⟨pieces service.testBytes.elements size number 1, none⟩ := by
  have flag : (i == 0) = (number == 0) := by
    rw [Bool.eq_iff_iff, beq_iff_eq, beq_iff_eq, ← Int32.toInt_inj, reached, Int32.toInt_zero]
    omega
  have clean := sendable.2
  rw [← eq_ofNat reached] at clean
  rw [sendChunk_clean clean (slice_fits sized reached begins sendable.1), flag]
  rfl

theorem sendChunk_failed {faults : Faults} (failed : ¬ Sendable faults size number) :
    ∃ raised, service.sendChunk faults i = ⟨[], some raised⟩ := by
  by_cases fits : number * size + size < 2 ^ 31
  · refine sendChunk_raises service (.inl ?_)
    by_contra clean
    refine failed ⟨fits, fun callee => ?_⟩
    rw [← eq_ofNat reached]
    by_contra raises
    exact clean ⟨callee, raises⟩
  · exact sendChunk_raises service (.inr (slice_wraps sized reached begins (by omega)))

end

theorem sendLoop_cases (faults : Faults) (positive : 0 < size) {i : Int32} {number count : Nat}
    (reached : i.toInt = number)
    (begins : ∀ k, number ≤ k → k < number + count →
      k * size < service.testBytes.elements.length) :
    (∀ k, number ≤ k → k < number + count → Sendable faults size k) ∧
      service.sendLoop faults count i =
        ⟨pieces service.testBytes.elements size number count, none⟩ ∨
    ∃ sent, sent < count ∧ ¬ Sendable faults size (number + sent) ∧
      (service.sendLoop faults count i).written =
        pieces service.testBytes.elements size number sent := by
  induction count generalizing i number with
  | zero => exact .inl ⟨fun k low high => by omega, rfl⟩
  | succ count ih =>
    have here := begins number (Nat.le_refl number) (by omega)
    have bound := service.testBytes.length_lt
    have few : number ≤ number * size := Nat.le_mul_of_pos_right number positive
    by_cases sendable : Sendable faults size number
    · have advanced : (i + 1).toInt = (number + 1 : Nat) := by
        rw [Int32.toInt_add, reached, show (1 : Int32).toInt = 1 from rfl,
          bmod_fits (by omega) (by omega)]
        rfl
      rw [sendLoop, sendChunk_sendable sized reached here sendable]
      rcases ih advanced fun k low high => begins k (by omega) (by omega) with
        ⟨later, rest⟩ | ⟨sent, fewer, failed, written⟩
      · refine .inl ⟨fun k low high => ?_, ?_⟩
        · rcases Nat.eq_or_lt_of_le low with rfl | above
          · exact sendable
          · exact later k above (by omega)
        · rw [rest, pieces_succ _ _ _ count]
          rfl
      · refine .inr ⟨sent + 1, by omega, ?_, ?_⟩
        · rwa [Nat.add_right_comm] at failed
        · rw [pieces_succ _ _ _ sent, ← written]
          rfl
    · obtain ⟨raised, refused⟩ := sendChunk_failed sized reached here sendable
      refine .inr ⟨0, by omega, sendable, ?_⟩
      rw [sendLoop, refused]
      rfl

theorem small_iff : service.testBytes.length ≤ service.chunkSize ↔
    service.testBytes.elements.length ≤ size := by
  rw [Int32.le_iff_toInt_le, ManagedArray.toInt_length, sized]
  omega

/-- A file of at most one chunk: the branch for it raises before it writes. -/
theorem body_small (unset : service.testString = none)
    (small : service.testBytes.elements.length ≤ size) (faults : Faults)
    (numberOfChunks : Int32) :
    service.body faults numberOfChunks = ⟨[], some .nullReference⟩ := by
  rw [body, sendSmall, if_pos ((small_iff sized).mpr small), unset]
  rfl

theorem body_large (large : size < service.testBytes.elements.length) (faults : Faults)
    (numberOfChunks : Int32) :
    service.body faults numberOfChunks =
      service.sendLoop faults numberOfChunks.toNatClampNeg 0 := by
  have skipped : ¬ service.testBytes.length ≤ service.chunkSize := by
    rw [small_iff sized]
    omega
  rw [body, sendSmall, if_neg skipped]
  rfl

section
variable (positive : 0 < size) {faults : Faults} {count : Nat}
  (covers : service.testBytes.elements.length ≤ count * size)
  (tight : count * size < service.testBytes.elements.length + size)

include positive covers tight

/-- Either every chunk is sendable and the whole file is written, or the pieces
before the first chunk that is not. -/
theorem sendLoop_outcome :
    (∀ k, k * size < service.testBytes.elements.length → Sendable faults size k) ∧
      service.sendLoop faults count 0 = ⟨pieces service.testBytes.elements size 0 count, none⟩ ∨
    ∃ sent, sent * size < service.testBytes.elements.length ∧ ¬ Sendable faults size sent ∧
      (service.sendLoop faults count 0).written =
        pieces service.testBytes.elements size 0 sent := by
  have begins : ∀ k, 0 ≤ k → k < 0 + count → k * size < service.testBytes.elements.length := by
    intro k _ below
    have step : (k + 1) * size ≤ count * size := Nat.mul_le_mul_right size (by omega)
    rw [Nat.succ_mul] at step
    omega
  rcases sendLoop_cases sized faults positive Int32.toInt_zero begins with
    ⟨every, sent⟩ | ⟨sent, fewer, failed, written⟩
  · refine .inl ⟨fun k inside => every k (Nat.zero_le k) ?_, sent⟩
    have below := Nat.lt_of_mul_lt_mul_right (Nat.lt_of_lt_of_le inside covers)
    omega
  · rw [Nat.zero_add] at failed
    exact .inr ⟨sent, begins sent (Nat.zero_le sent) (by omega), failed, written⟩

theorem received_iff :
    (service.sendLoop faults count 0).written.foldl receive [] = service.testBytes.elements ↔
      ∀ k, k * size < service.testBytes.elements.length → Sendable faults size k := by
  rcases sendLoop_outcome sized positive covers tight with
    ⟨every, sent⟩ | ⟨sent, short, failed, written⟩
  · rw [sent, foldl_receive_pieces, List.take_of_length_le covers]
    exact iff_of_true rfl every
  · rw [written, foldl_receive_pieces]
    -- The chunks written before the exception are all that arrives.
    refine iff_of_false (fun whole => ?_) fun every => failed (every sent short)
    have lengths := congrArg List.length whole
    rw [List.length_take] at lengths
    omega

theorem received_first (first : Sendable faults size 0) (second : ¬ Sendable faults size 1)
    (two : service.testBytes.elements.length ≤ 2 * size)
    (large : size < service.testBytes.elements.length) :
    (service.sendLoop faults count 0).written.foldl receive [] =
      service.testBytes.elements.take size := by
  rcases sendLoop_outcome sized positive covers tight with
    ⟨every, _⟩ | ⟨sent, short, failed, written⟩
  · exact absurd (every 1 (by omega)) second
  · have below : sent < 2 := Nat.lt_of_mul_lt_mul_right (Nat.lt_of_lt_of_le short two)
    have one : sent = 1 := by
      rcases Nat.eq_zero_or_pos sent with rfl | later
      · exact absurd first failed
      · omega
    rw [written, one, foldl_receive_pieces, Nat.one_mul]

end

/-- A call whose number of chunks can be computed ends normally, whatever its
body raises. -/
theorem getBytes_eq (positive : 0 < size) (faults : Faults) : ∃ number,
    service.numberOfChunks = .ok number ∧
      service.getBytes faults = ⟨(service.body faults number).written, none⟩ := by
  obtain ⟨number, counted, _⟩ := numberOfChunks_spec sized positive
  exact ⟨number, counted, by rw [RouteGuideImpl.getBytes, counted]⟩

theorem whole_iff (positive : 0 < size) (unset : service.testString = none) (faults : Faults) :
    (service.getBytes faults).written.foldl receive [] = service.testBytes.elements ↔
      service.testBytes.elements = [] ∨ size < service.testBytes.elements.length ∧
        ∀ k, k * size < service.testBytes.elements.length → Sendable faults size k := by
  obtain ⟨number, counted, sent⟩ := getBytes_eq sized positive faults
  obtain ⟨_, same, _, covers, tight⟩ := numberOfChunks_spec sized positive
  rw [counted] at same
  cases same
  rw [sent]
  by_cases small : service.testBytes.elements.length ≤ size
  · rw [body_small sized unset small]
    have unequal : ¬ size < service.testBytes.elements.length := by omega
    simp [unequal, eq_comm]
  · have large : size < service.testBytes.elements.length := by omega
    have nonempty : service.testBytes.elements ≠ [] := by
      rintro empty
      simp [empty] at large
    rw [body_large sized large, received_iff sized positive covers tight]
    simp [nonempty, large]

end

/-! ### Files of the server -/

theorem sized_create (testBytes : ManagedArray UInt8) :
    (create testBytes).chunkSize.toInt = (64000 : Nat) := by
  have same : (create testBytes).chunkSize.toInt = (64000 : Nat) := rfl
  exact same

theorem ends_fit_iff (length : Nat) :
    (∀ k, k * 64000 < length → k * 64000 + 64000 < 2 ^ 31) ↔ length ≤ 2147456000 := by
  constructor
  · intro fits
    by_contra above
    have last := fits 33554 (by omega)
    omega
  · intro below k inside
    have few : k < 33554 :=
      Nat.lt_of_mul_lt_mul_right (Nat.lt_of_lt_of_le inside below)
    have step : (k + 1) * 64000 ≤ 33554 * 64000 := Nat.mul_le_mul_right 64000 few
    rw [Nat.succ_mul] at step
    exact Nat.lt_of_le_of_lt step (by decide)

theorem received_create (testBytes : ManagedArray UInt8) (faults : Faults) :
    RouteGuideClient.getBytes ((create testBytes).getBytes faults) =
      .ok (((create testBytes).getBytes faults).written.foldl receive []) := by
  obtain ⟨_, _, sent⟩ := getBytes_eq (sized_create testBytes) (by omega) faults
  rw [sent]
  rfl

/-- The client ends up with the bytes that the plain transfer sends. -/
def Agrees (service : RouteGuideImpl) : Prop :=
  RouteGuideClient.getBytes (service.getBytes noFault) = .ok service.getAllBytes.allBytes ∧
    service.getAllBytes.allBytes = service.testBytes.elements

/-- The file arrives when it is empty, or longer than one chunk and the end of
its last chunk does not wrap around. -/
theorem chunked_agrees_iff (testBytes : ManagedArray UInt8) :
    Agrees (create testBytes) ↔ testBytes.elements.length = 0 ∨
      64000 < testBytes.elements.length ∧ testBytes.elements.length ≤ 2147456000 := by
  have whole := whole_iff (sized_create testBytes) (by omega) rfl noFault
  have bytes : (create testBytes).testBytes = testBytes := rfl
  have agrees : Agrees (create testBytes) ↔
      ((create testBytes).getBytes noFault).written.foldl receive [] = testBytes.elements := by
    rw [Agrees, received_create, getAllBytes, bytes, Except.ok.injEq]
    exact and_iff_left rfl
  rw [bytes] at whole
  simp only [sendable_noFault, ends_fit_iff] at whole
  rw [agrees, whole, List.length_eq_zero_iff]

/-- A file of one byte arrives empty. -/
theorem single_byte_lost : ¬ Agrees (create ⟨[7], by decide⟩) := by
  rintro ⟨received, _⟩
  cases received

/-! ### Failures on the way -/

/-- A stream that ends normally carries the file since its last first chunk. -/
def CompleteMeansWhole (service : RouteGuideImpl) (faults : Faults) : Prop :=
  (service.getBytes faults).raised = none →
    (sinceRestart (·.firstChunk) (service.getBytes faults).written).flatMap (·.chunkBytes) =
      service.testBytes.elements

theorem completeMeansWhole_iff (testBytes : ManagedArray UInt8) (faults : Faults) :
    CompleteMeansWhole (create testBytes) faults ↔
      ((create testBytes).getBytes faults).written.foldl receive [] = testBytes.elements := by
  have bytes : (create testBytes).testBytes = testBytes := rfl
  obtain ⟨_, _, sent⟩ := getBytes_eq (sized_create testBytes) (by omega) faults
  rw [CompleteMeansWhole, sent, bytes, receive_eq, foldl_accumulate, ite_self, List.nil_append]
  exact forall_prop_of_true rfl

theorem all_sendable_iff (faults : Faults) {length : Nat} (fits : length < 2 ^ 31) :
    (∀ k, k * 64000 < length → Sendable faults 64000 k) ↔ length ≤ 2147456000 ∧
      ∀ i : Int32, 0 ≤ i → i.toInt * 64000 < length → ∀ callee, faults (.chunk i) callee = none := by
  rw [← ends_fit_iff]
  constructor
  · intro every
    refine ⟨fun k inside => (every k inside).1, fun i nonneg inside callee => ?_⟩
    rw [Int32.le_iff_toInt_le, Int32.toInt_zero] at nonneg
    obtain ⟨number, reached⟩ := Int.eq_ofNat_of_zero_le nonneg
    rw [eq_ofNat reached]
    exact (every number (by omega)).2 callee
  · rintro ⟨ends, clean⟩ k inside
    have reached : (Int32.ofNat k).toInt = k := Int32.toInt_ofNat_of_lt (by omega)
    refine ⟨ends k inside, clean (.ofNat k) ?_ (by omega)⟩
    rw [Int32.le_iff_toInt_le, Int32.toInt_zero]
    omega

/-- A transfer that ends normally is whole when the file is empty, or when it
takes more than one chunk, no end wraps around and nothing raises on the way.
For the client nothing else tells whether it is. -/
theorem complete_means_whole_iff (testBytes : ManagedArray UInt8) (faults : Faults) :
    (CompleteMeansWhole (create testBytes) faults ↔ testBytes.elements.length = 0 ∨
      64000 < testBytes.elements.length ∧ testBytes.elements.length ≤ 2147456000 ∧
        ∀ i : Int32, 0 ≤ i → i.toInt * 64000 < testBytes.elements.length →
          ∀ callee, faults (.chunk i) callee = none) ∧
    (CompleteMeansWhole (create testBytes) faults ↔
      ∀ received, RouteGuideClient.getBytes ((create testBytes).getBytes faults) = .ok received →
        received = testBytes.elements) := by
  have bytes : (create testBytes).testBytes = testBytes := rfl
  rw [completeMeansWhole_iff]
  constructor
  · have whole := whole_iff (sized_create testBytes) (by omega) rfl faults
    rw [bytes, all_sendable_iff faults testBytes.length_lt] at whole
    rw [whole, List.length_eq_zero_iff]
  · rw [received_create]
    simp only [Except.ok.injEq, forall_eq']

/-- The second `WriteAsync` of a transfer raises. -/
def secondWriteFails : Faults := fun part callee =>
  if part = .chunk 1 ∧ callee = .writeAsync then some .invalidOperation else none

theorem first_sendable : Sendable secondWriteFails 64000 0 :=
  ⟨by decide, fun callee => by cases callee <;> rfl⟩

theorem second_not_sendable : ¬ Sendable secondWriteFails 64000 1 := fun second => by
  cases second.2 .writeAsync

theorem first_chunk_taken (testBytes : ManagedArray UInt8)
    (length : testBytes.elements.length = 64001) :
    ((create testBytes).getBytes secondWriteFails).written.foldl receive [] =
      testBytes.elements.take 64000 := by
  have bytes : (create testBytes).testBytes = testBytes := rfl
  have sized := sized_create testBytes
  obtain ⟨number, counted, sent⟩ := getBytes_eq sized (by omega) secondWriteFails
  obtain ⟨_, same, _, covers, tight⟩ := numberOfChunks_spec sized (by omega)
  rw [counted] at same
  cases same
  rw [bytes, length] at covers tight
  have large : 64000 < (create testBytes).testBytes.elements.length := by
    rw [bytes, length]
    decide
  rw [sent, body_large sized large]
  refine received_first sized (by decide) ?_ ?_ first_sendable second_not_sendable ?_ large <;>
    rw [bytes, length]
  · exact covers
  · exact tight
  · decide

def zeros (length : Nat) (fits : length ≤ maxLength) : ManagedArray UInt8 :=
  ⟨List.replicate length 0, by rw [List.length_replicate]; exact fits⟩

@[simp] theorem elements_zeros (length : Nat) (fits : length ≤ maxLength) :
    (zeros length fits).elements = List.replicate length 0 :=
  rfl

theorem truncation_unseen :
    RouteGuideClient.getBytes ((create (zeros 64001 (by decide))).getBytes secondWriteFails) =
      .ok (List.replicate 64000 0) ∧
    ¬ CompleteMeansWhole (create (zeros 64001 (by decide))) secondWriteFails := by
  have fits : 64001 ≤ maxLength := by decide
  have length : (zeros 64001 fits).elements.length = 64001 := by
    rw [elements_zeros, List.length_replicate]
  have short : (zeros 64001 fits).elements.take 64000 = List.replicate 64000 0 := by
    rw [elements_zeros, List.take_replicate, Nat.min_eq_left (by decide)]
  rw [completeMeansWhole_iff, received_create, first_chunk_taken _ length, short]
  refine ⟨rfl, fun whole => ?_⟩
  have lengths := congrArg List.length whole
  rw [List.length_replicate, length] at lengths
  exact absurd lengths (by decide)

end BenchmarkHost
