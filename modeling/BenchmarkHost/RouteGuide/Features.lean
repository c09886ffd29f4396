import BenchmarkHost.Library.Raising
import BenchmarkHost.RouteGuide.GetBytes
import BenchmarkHost.RouteGuide.Points
import Mathlib.Order.Interval.Set.UnorderedInterval

/-! `GetFeature` and `ListFeatures`: a lookup by point and a query by area.

The server keeps the features in the order of its file. A point is answered
with the first feature located at it, whatever its name, and a rectangle with
every named feature inside.
-/

set_option autoImplicit false

namespace BenchmarkHost

open Library

/-- An empty name says that the feature could not be named. -/
structure Feature where
  name : String
  location : Option Point
  deriving DecidableEq, Repr

/-- Two diagonally opposite corners. -/
structure Rectangle where
  lo : Option Point
  hi : Option Point
  deriving DecidableEq, Repr

def Feature.doesExist : Option Feature → Bool
  | none => false
  | some feature => feature.name.length != 0

def Rectangle.contains (rectangle : Rectangle) (point : Option Point) :
    Except RuntimeException Bool := do
  let lo ← dereference rectangle.lo
  let hi ← dereference rectangle.hi
  let left := min lo.longitude hi.longitude
  let right := max lo.longitude hi.longitude
  let top := max lo.latitude hi.latitude
  let bottom := min lo.latitude hi.latitude
  let point ← dereference point
  return point.longitude ≥ left && point.longitude ≤ right &&
    point.latitude ≥ bottom && point.latitude ≤ top

/-! ### The features of the file -/

structure JsonLocation where
  longitude : Int32
  latitude : Int32
  deriving DecidableEq, Repr

structure JsonFeature where
  name : Option String
  location : Option JsonLocation
  deriving DecidableEq, Repr

namespace RouteGuideUtil

/-- The setter of a name refuses null. -/
def parseFeature (jsonFeature : Option JsonFeature) : Except RuntimeException Feature := do
  let jsonFeature ← dereference jsonFeature
  match jsonFeature.name with
  | none => throw .argumentNull
  | some name =>
    let location ← dereference jsonFeature.location
    return { name, location := some ⟨location.latitude, location.longitude⟩ }

/-- A file without content is deserialized to null. -/
def parseFeatures (jsonFeatures : Option (List (Option JsonFeature))) :
    Except RuntimeException (List Feature) := do
  let jsonFeatures ← dereference jsonFeatures
  jsonFeatures.mapM parseFeature

end RouteGuideUtil

namespace RouteGuideImpl

def checkFeature (features : List Feature) (location : Point) :
    Except RuntimeException Feature := do
  let result ← features.findM? fun feature => do
    let other ← dereference feature.location
    return other.equals (some location)
  match result with
  | none => return { name := "", location := some location }
  | some result => return result

def getFeature (features : List Feature) (request : Point) : Except RuntimeException Feature :=
  checkFeature features request

/-- What is streamed while no write fails. -/
def listFeatures (features : List Feature) (request : Rectangle) :
    Except RuntimeException (List Feature) :=
  features.filterM fun feature =>
    if Feature.doesExist (some feature) then request.contains feature.location
    else return false

end RouteGuideImpl

/-! ### The lists a server is constructed with -/

structure FeatureList where
  features : List Feature
  located : ∀ feature ∈ features, ∃ point, feature.location = some point

namespace RouteGuideUtil

theorem located_of_parseFeature {jsonFeature : Option JsonFeature} {feature : Feature}
    (parsed : parseFeature jsonFeature = .ok feature) : ∃ point, feature.location = some point := by
  rcases jsonFeature with _ | ⟨_ | name, _ | location⟩
  · cases parsed
  · cases parsed
  · cases parsed
  · cases parsed
  · cases parsed
    exact ⟨_, rfl⟩

def entry (feature : Feature) : Option JsonFeature :=
  some ⟨some feature.name,
    feature.location.map fun point => ⟨point.longitude, point.latitude⟩⟩

theorem parseFeature_entry {feature : Feature} {point : Point}
    (located : feature.location = some point) : parseFeature (entry feature) = .ok feature := by
  rcases feature with ⟨name, location⟩
  cases located
  rfl

/-- Parsing neither orders nor merges features; all it ensures is that each has a location. -/
theorem parseFeatures_iff (features : List Feature) :
    (∃ jsonFeatures, parseFeatures jsonFeatures = .ok features) ↔
      ∀ feature ∈ features, ∃ point, feature.location = some point := by
  constructor
  · rintro ⟨_ | jsonFeatures, parsed⟩
    · cases parsed
    · intro feature member
      obtain ⟨jsonFeature, _, read⟩ := read_of_mem_mapM parsed feature member
      exact located_of_parseFeature read
  · intro located
    refine ⟨some (features.map entry), mapM_map_of_total fun feature member => ?_⟩
    obtain ⟨point, here⟩ := located feature member
    exact parseFeature_entry here

end RouteGuideUtil

/-! ### Areas -/

/-- The points between two corners, in whichever order these are given. -/
def area (lo hi : Point) : Set Point :=
  {point | point.longitude.toInt ∈ Set.uIcc lo.longitude.toInt hi.longitude.toInt ∧
    point.latitude.toInt ∈ Set.uIcc lo.latitude.toInt hi.latitude.toInt}

instance (lo hi point : Point) : Decidable (point ∈ area lo hi) :=
  inferInstanceAs (Decidable (point.longitude.toInt ∈ Set.Icc _ _ ∧
    point.latitude.toInt ∈ Set.Icc _ _))

theorem area_swap (lo hi : Point) : area lo hi = area hi lo := by
  unfold area
  simp only [Set.uIcc_comm]

theorem area_mixed (lo hi : Point) :
    area ⟨lo.latitude, hi.longitude⟩ ⟨hi.latitude, lo.longitude⟩ = area lo hi := by
  unfold area
  simp only [Set.uIcc_comm hi.longitude.toInt]

theorem contains_eq (lo hi point : Point) :
    Rectangle.contains ⟨some lo, some hi⟩ (some point) = .ok (decide (point ∈ area lo hi)) := by
  change Except.ok _ = Except.ok _
  congr 1
  rw [← Bool.decide_and, ← Bool.decide_and, ← Bool.decide_and]
  apply decide_eq_decide.mpr
  simp only [area, Set.mem_ofPred_eq, Set.uIcc, Set.mem_Icc, ge_iff_le, Int32.le_iff_toInt_le,
    toInt_min, toInt_max]
  exact and_assoc

/-! ### The two searches -/

namespace FeatureList
variable (list : FeatureList)

def isAt (point : Point) (feature : Feature) : Bool := feature.location == some point

def isListed (lo hi : Point) (feature : Feature) : Bool :=
  Feature.doesExist (some feature) && feature.location.any (· ∈ area lo hi)

theorem checkFeature_eq (point : Point) :
    RouteGuideImpl.checkFeature list.features point =
      .ok ((list.features.find? (isAt point)).getD ⟨"", some point⟩) := by
  have found : (list.features.findM? fun feature => do
      let other ← dereference feature.location
      return other.equals (some point)) = .ok (list.features.find? (isAt point)) := by
    apply findM?_of_total
    intro feature member
    obtain ⟨other, located⟩ := list.located feature member
    rw [isAt, located]
    change Except.ok _ = Except.ok _
    rw [Bool.eq_iff_iff.mpr ((other.equals_iff point).trans _)]
    simp
  rw [RouteGuideImpl.checkFeature, found]
  cases list.features.find? (isAt point) <;> rfl

theorem listFeatures_eq (lo hi : Point) :
    RouteGuideImpl.listFeatures list.features ⟨some lo, some hi⟩ =
      .ok (list.features.filter (isListed lo hi)) := by
  apply filterM_of_total
  intro feature member
  obtain ⟨point, located⟩ := list.located feature member
  rw [isListed, located]
  cases Feature.doesExist (some feature) with
  | false => rfl
  | true => exact contains_eq lo hi point

end FeatureList

end BenchmarkHost
