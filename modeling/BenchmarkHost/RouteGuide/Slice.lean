import BenchmarkHost.Library.Managed

/-! `Slice`: a copy of part of an array.

A negative end counts from the end of the array. The length of the copy and
the indices read wrap around, so a bad pair of bounds shows up as an allocation
or a read that raises.
-/

set_option autoImplicit false

namespace BenchmarkHost

open Library ManagedArray

namespace Extensions
variable {Element : Type}

/-- The loop of `Slice` from index `i` on, with its number of turns left. -/
def sliceLoop (source : ManagedArray Element) (start : Int32) :
    Nat → Int32 → Except RuntimeException (List Element)
  | 0, _ => .ok []
  | turns + 1, i => do
    let element ← source.get (i + start)
    let rest ← sliceLoop source start turns (i + 1)
    return element :: rest

def slice (source : ManagedArray Element) (start finish : Int32) :
    Except RuntimeException (List Element) := do
  let finish := if finish < 0 then source.length + finish else finish
  let len := finish - start
  allocate len
  sliceLoop source start len.toNatClampNeg 0

/-- The end that `Slice` uses, as a mathematical integer. -/
def effectiveEnd (source : ManagedArray Element) (finish : Int32) : Int :=
  if finish.toInt < 0 then source.elements.length + finish.toInt else finish.toInt

theorem toInt_end (source : ManagedArray Element) (finish : Int32) :
    (if finish < 0 then source.length + finish else finish).toInt =
      effectiveEnd source finish := by
  have low := finish.le_toInt
  have bound := source.length_lt
  unfold effectiveEnd
  simp only [Int32.lt_iff_toInt_lt, Int32.toInt_zero]
  split
  · rw [Int32.toInt_add, toInt_length, bmod_fits (by omega) (by omega)]
  · rfl

theorem effectiveEnd_bounds (source : ManagedArray Element) (finish : Int32) :
    -2 ^ 31 ≤ effectiveEnd source finish ∧ effectiveEnd source finish < 2 ^ 31 := by
  rw [← toInt_end]
  exact ⟨Int32.le_toInt _, Int32.toInt_lt _⟩

def len (source : ManagedArray Element) (start finish : Int32) : Int32 :=
  (if finish < 0 then source.length + finish else finish) - start

theorem toInt_len (source : ManagedArray Element) (start finish : Int32) :
    (len source start finish).toInt =
      (effectiveEnd source finish - start.toInt).bmod (2 ^ 32) := by
  rw [len, Int32.toInt_sub, toInt_end]

theorem slice_eq (source : ManagedArray Element) (start finish : Int32) :
    slice source start finish = (allocate (len source start finish) >>= fun _ =>
      sliceLoop source start (len source start finish).toNatClampNeg 0) :=
  rfl

theorem sliceLoop_inside {source : ManagedArray Element} {start i : Int32} {first done turns : Nat}
    (begins : start.toInt = first) (reached : i.toInt = done)
    (inside : first + done + turns ≤ source.elements.length) :
    sliceLoop source start turns i = .ok ((source.elements.drop (first + done)).take turns) := by
  have bound := source.length_lt
  induction turns generalizing i done with
  | zero => simp [sliceLoop]
  | succ turns ih =>
    have next : (i + 1).toInt = (done + 1 : Nat) := by
      rw [Int32.toInt_add, reached, show (1 : Int32).toInt = 1 from rfl,
        bmod_fits (by omega) (by omega)]
      rfl
    have index : (i + start).toInt = (first + done : Nat) := by
      rw [Int32.toInt_add, reached, begins, bmod_fits (by omega) (by omega)]
      omega
    have within : first + done < source.elements.length := by omega
    have rest := ih next (by omega)
    rw [sliceLoop, get_inside index within, rest]
    rw [List.drop_eq_getElem_cons within, List.take_succ_cons]
    rfl

theorem sliceLoop_past {source : ManagedArray Element} {start i : Int32} {first done turns : Nat}
    (begins : start.toInt = first) (reached : i.toInt = done) (reads : turns ≠ 0)
    (fits : first + done < 2 ^ 31) (past : source.elements.length < first + done + turns) :
    ∃ raised, sliceLoop source start turns i = .error raised := by
  have bound := source.length_lt
  induction turns generalizing i done with
  | zero => exact absurd rfl reads
  | succ turns ih =>
    have index : (i + start).toInt = (first + done : Nat) := by
      rw [Int32.toInt_add, reached, begins, bmod_fits (by omega) (by omega)]
      omega
    by_cases within : first + done < source.elements.length
    · have next : (i + 1).toInt = (done + 1 : Nat) := by
        rw [Int32.toInt_add, reached, show (1 : Int32).toInt = 1 from rfl,
          bmod_fits (by omega) (by omega)]
        rfl
      obtain ⟨raised, later⟩ := ih next (by omega) (by omega) (by omega)
      refine ⟨raised, ?_⟩
      rw [sliceLoop, get_inside index within, later]
      rfl
    · refine ⟨.indexOutOfRange, ?_⟩
      rw [sliceLoop, get_outside (.inr (by omega))]
      rfl

theorem slice_allocated {source : ManagedArray Element} {start finish : Int32} {turns : Nat}
    (length : (len source start finish).toInt = turns) (fits : turns ≤ maxLength) :
    slice source start finish = sliceLoop source start turns 0 := by
  have allocated := (allocate_eq_ok (len source start finish)).mpr ⟨by omega, by omega⟩
  have counted : (len source start finish).toNatClampNeg = turns := by
    rw [← Int32.toNat_toInt, length, Int.toNat_natCast]
  rw [slice_eq, allocated, counted]
  rfl

theorem slice_refused {source : ManagedArray Element} {start finish : Int32}
    (length : (len source start finish).toInt < 0 ∨
      (maxLength : Int) < (len source start finish).toInt) :
    ∃ raised, slice source start finish = .error raised := by
  rw [slice_eq]
  cases allocated : allocate (len source start finish) with
  | error raised => exact ⟨raised, rfl⟩
  | ok _ =>
    have fits := (allocate_eq_ok _).mp allocated
    omega

theorem slice_inside {source : ManagedArray Element} {start finish : Int32} {first length : Nat}
    (begins : start.toInt = first) (ends : effectiveEnd source finish = first + length)
    (inside : first + length ≤ source.elements.length) :
    slice source start finish = .ok ((source.elements.drop first).take length) := by
  have bound := source.length_lt
  have fits := source.fits
  have turns : (len source start finish).toInt = length := by
    rw [toInt_len, ends, begins, bmod_fits (by omega) (by omega)]
    omega
  rw [slice_allocated turns (by omega)]
  exact sliceLoop_inside begins Int32.toInt_zero inside

theorem slice_empty {source : ManagedArray Element} {start finish : Int32}
    (same : effectiveEnd source finish = start.toInt) : slice source start finish = .ok [] := by
  have turns : (len source start finish).toInt = (0 : Nat) := by
    rw [toInt_len, same, Int.sub_self]
    rfl
  rw [slice_allocated turns (Nat.zero_le _)]
  rfl

/-- All other bounds raise, also where the difference or an index wraps around. -/
theorem slice_outside {source : ManagedArray Element} {start finish : Int32}
    (different : effectiveEnd source finish ≠ start.toInt)
    (outside : ¬ (0 ≤ start.toInt ∧ start.toInt < effectiveEnd source finish ∧
      effectiveEnd source finish ≤ source.elements.length)) :
    ∃ raised, slice source start finish = .error raised := by
  have bound := source.length_lt
  have low := start.le_toInt
  have high := start.toInt_lt
  obtain ⟨endLow, endHigh⟩ := effectiveEnd_bounds source finish
  by_cases refused : (len source start finish).toInt < 0 ∨
      (maxLength : Int) < (len source start finish).toInt
  · exact slice_refused refused
  · -- The wrapped length is the difference of the bounds, or 2 ^ 32 more.
    have wrapped : (len source start finish).toInt = effectiveEnd source finish - start.toInt ∨
        (len source start finish).toInt = effectiveEnd source finish - start.toInt + 2 ^ 32 := by
      rw [toInt_len, Int.bmod_def] at refused ⊢
      split at refused <;> omega
    obtain ⟨turns, counted⟩ : ∃ turns : Nat, (len source start finish).toInt = turns :=
      Int.eq_ofNat_of_zero_le (by omega)
    have reads : turns ≠ 0 := by omega
    rw [slice_allocated counted (by omega)]
    by_cases negative : start.toInt < 0
    · obtain ⟨more, rfl⟩ := Nat.exists_eq_succ_of_ne_zero reads
      refine ⟨.indexOutOfRange, ?_⟩
      rw [sliceLoop, get_outside (.inl (by rw [Int32.zero_add]; exact negative))]
      rfl
    · obtain ⟨first, begins⟩ : ∃ first : Nat, start.toInt = first :=
        Int.eq_ofNat_of_zero_le (by omega)
      have fresh : (0 : Int32).toInt = (0 : Nat) := rfl
      exact sliceLoop_past begins fresh reads (by omega) (by omega)

/-- The bounds between which there is something to copy, or nothing. -/
def InRange (source : ManagedArray Element) (start finish : Int32) : Prop :=
  effectiveEnd source finish = start.toInt ∨
    0 ≤ start.toInt ∧ start.toInt < effectiveEnd source finish ∧
      effectiveEnd source finish ≤ source.elements.length

/-- What a copy that returns has copied. -/
structure Copied (source : ManagedArray Element) (start finish : Int32)
    (result : List Element) : Prop where
  elements : result = between source.elements start.toInt (effectiveEnd source finish)
  length : (result.length : Int) = effectiveEnd source finish - start.toInt
  bounds : result = [] ∧ start.toInt = effectiveEnd source finish ∨
    0 ≤ start.toInt ∧ start.toInt < effectiveEnd source finish ∧
      effectiveEnd source finish ≤ source.elements.length

theorem copied_of_slice {source : ManagedArray Element} {start finish : Int32}
    {result : List Element} (returned : slice source start finish = .ok result) :
    Copied source start finish result := by
  by_cases same : effectiveEnd source finish = start.toInt
  · rw [slice_empty same, Except.ok.injEq] at returned
    subst returned
    exact ⟨by rw [same, between_self], by simp [same], .inl ⟨rfl, same.symm⟩⟩
  · by_cases inside : 0 ≤ start.toInt ∧ start.toInt < effectiveEnd source finish ∧
        effectiveEnd source finish ≤ source.elements.length
    · obtain ⟨first, begins⟩ := Int.eq_ofNat_of_zero_le inside.1
      obtain ⟨last, ends⟩ : ∃ last : Nat, effectiveEnd source finish = last :=
        Int.eq_ofNat_of_zero_le (by omega)
      have reaches : effectiveEnd source finish = first + (last - first : Nat) := by omega
      have copied := slice_inside begins reaches (by omega)
      rw [returned, Except.ok.injEq] at copied
      rw [← between_of_nat, ← begins, ← ends] at copied
      refine ⟨copied, ?_, .inr inside⟩
      rw [copied, length_between]
      omega
    · obtain ⟨raised, refused⟩ := slice_outside same inside
      rw [refused] at returned
      cases returned

theorem slice_inRange {source : ManagedArray Element} {start finish : Int32}
    (inside : InRange source start finish) : ∃ result, slice source start finish = .ok result := by
  rcases inside with same | ⟨nonneg, nonempty, within⟩
  · exact ⟨[], slice_empty same⟩
  · obtain ⟨first, begins⟩ := Int.eq_ofNat_of_zero_le nonneg
    obtain ⟨length, ends⟩ : ∃ length : Nat, effectiveEnd source finish - start.toInt = length :=
      Int.eq_ofNat_of_zero_le (by omega)
    exact ⟨_, @slice_inside _ _ _ _ first length begins (by omega) (by omega)⟩

/-- `Slice` returns the elements between its bounds, or raises: it returns where
these are in range, and nowhere else. -/
theorem slice_exact (source : ManagedArray Element) (start finish : Int32) :
    (∀ result, slice source start finish = .ok result → Copied source start finish result) ∧
    (InRange source start finish → ∃ result, slice source start finish = .ok result) ∧
    (¬ InRange source start finish → ∃ raised, slice source start finish = .error raised) ∧
    ((len source start finish).toInt ≠ effectiveEnd source finish - start.toInt ∨
        (∃ i : Int32, 0 ≤ i ∧ i < len source start finish ∧
          (i + start).toInt ≠ i.toInt + start.toInt) →
      ∃ raised, slice source start finish = .error raised) := by
  refine ⟨fun result returned => copied_of_slice returned, slice_inRange, fun outside => ?_,
    fun wraps => ?_⟩
  · exact slice_outside (fun same => outside (.inl same)) fun inside => outside (.inr inside)
  · cases returned : slice source start finish with
    | error raised => exact ⟨raised, rfl⟩
    | ok result =>
      -- Nothing wraps around in a copy that returns.
      have bound := source.length_lt
      have copied := copied_of_slice returned
      have bounds := copied.bounds
      have exactLength : (len source start finish).toInt =
          effectiveEnd source finish - start.toInt := by
        rw [toInt_len, bmod_fits (by omega) (by omega)]
      rcases wraps with wrapped | ⟨i, nonneg, below, wrapped⟩
      · exact absurd exactLength wrapped
      · rw [Int32.le_iff_toInt_le, Int32.toInt_zero] at nonneg
        rw [Int32.lt_iff_toInt_lt, exactLength] at below
        refine absurd ?_ wrapped
        rw [Int32.toInt_add, bmod_fits (by omega) (by omega)]

end Extensions

end BenchmarkHost
