import Mathlib.Logic.Basic

/-! Points as keys of a dictionary.

`Equals` compares the two coordinates, and `GetHashCode` agrees with it.
-/

set_option autoImplicit false

namespace BenchmarkHost

structure Point where
  latitude : Int32
  longitude : Int32
  deriving Repr

namespace Point

def equals (point : Point) : Option Point → Bool
  | none => false
  | some other =>
    if point.latitude != other.latitude then false
    else if point.longitude != other.longitude then false
    else true

def getHashCode (point : Point) : Int32 :=
  let hash := 1
  let hash := if point.latitude != 0 then hash ^^^ point.latitude else hash
  if point.longitude != 0 then hash ^^^ point.longitude else hash

theorem equals_iff (point other : Point) : point.equals (some other) = true ↔ point = other := by
  rcases point with ⟨latitude, longitude⟩
  rcases other with ⟨otherLatitude, otherLongitude⟩
  simp only [equals, mk.injEq]
  by_cases first : latitude = otherLatitude <;> by_cases second : longitude = otherLongitude <;>
    simp [first, second]

/-- Keys are compared with `Equals`. -/
instance : DecidableEq Point := fun point other =>
  decidable_of_iff (point.equals (some other) = true) (point.equals_iff other)

theorem getHashCode_eq_of_equals {point other : Point}
    (same : point.equals (some other) = true) : point.getHashCode = other.getHashCode := by
  rw [(point.equals_iff other).mp same]

end Point

structure RouteNote where
  location : Option Point
  message : String
  deriving DecidableEq, Repr

end BenchmarkHost
