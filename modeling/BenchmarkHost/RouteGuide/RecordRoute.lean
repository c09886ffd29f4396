import BenchmarkHost.RouteGuide.Features
import Mathlib.Algebra.Order.Floor.Ring
import Mathlib.Analysis.Real.Pi.Bounds

/-! `RecordRoute`: the summary of a stream of points.

Three numbers and the previous point are carried from one point to the next.
The distance is kept as a 32-bit number of metres: each leg is truncated, and
the sum wraps around.
-/

set_option autoImplicit false

namespace BenchmarkHost

open Library

structure RouteSummary where
  pointCount : Int32
  featureCount : Int32
  distance : Int32
  elapsedTime : Int32
  deriving DecidableEq, Repr

structure RouteTotals where
  pointCount : Int32
  featureCount : Int32
  distance : Int32
  previous : Option Point
  deriving DecidableEq, Repr

section
variable {Metres : Type} [Ring Metres] [LinearOrder Metres] [FloorRing Metres]

/-- The conversion to an integer drops the fraction. -/
def truncate (metres : Metres) : Int := if metres < 0 then ⌈metres⌉ else ⌊metres⌋

namespace RouteGuideImpl

def visit (features : List Feature) (getDistance : Point → Point → Metres)
    (totals : RouteTotals) (point : Point) : Except RuntimeException RouteTotals := do
  let pointCount := totals.pointCount + 1
  let feature ← checkFeature features point
  let featureCount :=
    if Feature.doesExist (some feature) then totals.featureCount + 1 else totals.featureCount
  let distance :=
    match totals.previous with
    | some previous => totals.distance + Int32.ofInt (truncate (getDistance previous point))
    | none => totals.distance
  return { pointCount, featureCount, distance, previous := some point }

def recordRoute (features : List Feature) (getDistance : Point → Point → Metres)
    (requests : List Point) (elapsedMilliseconds : Int64) :
    Except RuntimeException RouteSummary := do
  let totals ← requests.foldlM (visit features getDistance) ⟨0, 0, 0, none⟩
  return {
    pointCount := totals.pointCount
    featureCount := totals.featureCount
    distance := totals.distance
    elapsedTime := (elapsedMilliseconds / 1000).toInt32 }

end RouteGuideImpl

end

/-! ### Legs of a route -/

def legs (points : List Point) : List (Point × Point) := points.zip points.tail

theorem legs_append (points : List Point) (point : Point) :
    legs (points ++ [point]) =
      legs points ++ (points.getLast?.map fun previous => (previous, point)).toList := by
  induction points with
  | nil => rfl
  | cons first rest ih =>
    cases rest with
    | nil => rfl
    | cons second others =>
      have later := ih
      unfold legs at later ⊢
      rw [List.getLast?_cons_cons]
      exact congrArg (List.cons (first, second)) later

section
variable {Metres : Type} [Ring Metres] [LinearOrder Metres] [FloorRing Metres]

/-- The metres of a route: those of its legs, each truncated. -/
def travelled (getDistance : Point → Point → Metres) (points : List Point) : Int :=
  ((legs points).map fun leg => truncate (getDistance leg.1 leg.2)).sum

theorem travelled_append (getDistance : Point → Point → Metres) (points : List Point)
    (point : Point) :
    travelled getDistance (points ++ [point]) = travelled getDistance points +
      match points.getLast? with
      | some previous => truncate (getDistance previous point)
      | none => 0 := by
  rw [travelled, legs_append, List.map_append, List.sum_append]
  cases points.getLast? with
  | none => rfl
  | some previous => exact congrArg (travelled getDistance points + ·) (Int.add_zero _)

theorem truncate_of_nonneg {metres : Metres} (nonneg : 0 ≤ metres) : truncate metres = ⌊metres⌋ :=
  if_neg (not_lt_of_ge nonneg)

end

/-! ### The loop -/

def isNamedAt (features : List Feature) (point : Point) : Bool :=
  match RouteGuideImpl.checkFeature features point with
  | .ok feature => Feature.doesExist (some feature)
  | .error _ => false

namespace FeatureList
variable (list : FeatureList)

section
variable {Metres : Type} [Ring Metres] [LinearOrder Metres] [FloorRing Metres]
variable (getDistance : Point → Point → Metres)

def totals (points : List Point) : RouteTotals where
  pointCount := Int32.ofNat points.length
  featureCount := Int32.ofNat (points.countP (isNamedAt list.features))
  distance := Int32.ofInt (travelled getDistance points)
  previous := points.getLast?

theorem visit_totals (points : List Point) (point : Point) :
    RouteGuideImpl.visit list.features getDistance (list.totals getDistance points) point =
      .ok (list.totals getDistance (points ++ [point])) := by
  have named : isNamedAt list.features point = Feature.doesExist
      (some ((list.features.find? (isAt point)).getD ⟨"", some point⟩)) := by
    rw [isNamedAt, list.checkFeature_eq]
  rw [RouteGuideImpl.visit, list.checkFeature_eq]
  change Except.ok _ = Except.ok _
  rw [← named]
  congr 1
  unfold totals
  congr 1
  case e_pointCount =>
    rw [List.length_append, Int32.ofNat_add]
    rfl
  case e_featureCount =>
    rw [List.countP_append, List.countP_singleton]
    cases isNamedAt list.features point with
    | false => rfl
    | true => exact (Int32.ofNat_add _ 1).symm
  case e_distance =>
    rw [travelled_append]
    dsimp only
    cases points.getLast? with
    | none => exact congrArg Int32.ofInt (Int.add_zero _).symm
    | some previous => exact (Int32.ofInt_add _ _).symm
  case e_previous => exact List.getLast?_concat.symm

theorem foldlM_visit (points : List Point) :
    points.foldlM (RouteGuideImpl.visit list.features getDistance) ⟨0, 0, 0, none⟩ =
      .ok (list.totals getDistance points) := by
  induction points using List.reverseRecOn with
  | nil => rfl
  | append_singleton points point ih =>
    rw [List.foldlM_append, ih]
    change (RouteGuideImpl.visit list.features getDistance (list.totals getDistance points) point >>=
      pure) = _
    rw [list.visit_totals]
    rfl

theorem recordRoute_eq (points : List Point) (elapsedMilliseconds : Int64) :
    RouteGuideImpl.recordRoute list.features getDistance points elapsedMilliseconds = .ok {
      pointCount := Int32.ofNat points.length
      featureCount := Int32.ofNat (points.countP (isNamedAt list.features))
      distance := Int32.ofInt (travelled getDistance points)
      elapsedTime := (elapsedMilliseconds / 1000).toInt32 } := by
  rw [RouteGuideImpl.recordRoute, list.foldlM_visit]
  rfl

example : RouteGuideImpl.recordRoute [] (fun _ _ => (3 / 2 : ℚ)) [⟨0, 0⟩, ⟨0, 1⟩, ⟨1, 1⟩] 2500 =
    .ok ⟨3, 0, 2, 2⟩ := by decide +kernel

end

end FeatureList

/-! ### Distances on the globe -/

/-- What `GetDistance` answers: at most half the circumference. -/
structure DistanceFunction where
  metres : Point → Point → ℝ
  nonneg : ∀ start finish, 0 ≤ metres start finish
  atMost : ∀ start finish, metres start finish ≤ Real.pi * 6371000

namespace DistanceFunction
variable (getDistance : DistanceFunction)

theorem leg_nonneg (start finish : Point) : 0 ≤ truncate (getDistance.metres start finish) := by
  rw [truncate_of_nonneg (getDistance.nonneg start finish)]
  exact Int.floor_nonneg.mpr (getDistance.nonneg start finish)

/-- The conversion of a single leg is exact; only the sum may wrap around. -/
theorem leg_fits (start finish : Point) :
    (Int32.ofInt (truncate (getDistance.metres start finish))).toInt =
      truncate (getDistance.metres start finish) := by
  have nonneg := getDistance.leg_nonneg start finish
  have below : (truncate (getDistance.metres start finish) : ℝ) < 2 ^ 31 := by
    rw [truncate_of_nonneg (getDistance.nonneg start finish)]
    calc (⌊getDistance.metres start finish⌋ : ℝ)
        ≤ getDistance.metres start finish := Int.floor_le _
      _ ≤ Real.pi * 6371000 := getDistance.atMost start finish
      _ < 2 ^ 31 := by linarith [Real.pi_lt_d2]
  exact Int32.toInt_ofInt_of_le (le_trans (by decide) nonneg) (by exact_mod_cast below)

theorem travelled_nonneg (points : List Point) : 0 ≤ travelled getDistance.metres points := by
  apply List.sum_nonneg
  intro metres member
  obtain ⟨leg, _, rfl⟩ := List.mem_map.mp member
  exact getDistance.leg_nonneg leg.1 leg.2

theorem travelled_append_le (points : List Point) (point : Point) :
    travelled getDistance.metres points ≤ travelled getDistance.metres (points ++ [point]) := by
  rw [travelled_append]
  cases points.getLast? with
  | none => simp
  | some previous => exact le_add_of_nonneg_right (getDistance.leg_nonneg previous point)

theorem travelled_prefix_le {shorter points : List Point} (part : shorter <+: points) :
    travelled getDistance.metres shorter ≤ travelled getDistance.metres points := by
  obtain ⟨rest, rfl⟩ := part
  induction rest using List.reverseRecOn with
  | nil => rw [List.append_nil]
  | append_singleton rest point ih =>
    rw [← List.append_assoc]
    exact le_trans ih (getDistance.travelled_append_le _ point)

theorem toInt_travelled {points : List Point}
    (fits : travelled getDistance.metres points < 2 ^ 31) :
    (Int32.ofInt (travelled getDistance.metres points)).toInt =
      travelled getDistance.metres points :=
  Int32.toInt_ofInt_of_le (le_trans (by decide) (getDistance.travelled_nonneg points)) fits

noncomputable def distanceOf (points : List Point) : ℝ :=
  ((legs points).map fun leg => getDistance.metres leg.1 leg.2).sum

noncomputable def dropped (points : List Point) : ℝ :=
  ((legs points).map fun leg => Int.fract (getDistance.metres leg.1 leg.2)).sum

theorem distanceOf_eq (points : List Point) :
    getDistance.distanceOf points =
      (travelled getDistance.metres points : ℝ) + getDistance.dropped points := by
  unfold distanceOf travelled dropped
  induction legs points with
  | nil => simp
  | cons leg rest ih =>
    have whole := Int.floor_add_fract (getDistance.metres leg.1 leg.2)
    simp only [List.map_cons, List.sum_cons, Int.cast_add, ih,
      truncate_of_nonneg (getDistance.nonneg leg.1 leg.2)]
    linarith

theorem dropped_nonneg (points : List Point) : 0 ≤ getDistance.dropped points := by
  apply List.sum_nonneg
  intro metres member
  obtain ⟨leg, _, rfl⟩ := List.mem_map.mp member
  exact Int.fract_nonneg _

/-- Rounding down once, after the sum, gives the same distance only while the
fractions that the legs lose add up to less than a metre. -/
theorem distance_eq_floor_iff (points : List Point) :
    (Int32.ofInt (travelled getDistance.metres points)).toInt =
        ⌊getDistance.distanceOf points⌋ ↔
      travelled getDistance.metres points < 2 ^ 31 ∧ getDistance.dropped points < 1 := by
  have whole := getDistance.distanceOf_eq points
  have nonneg := getDistance.dropped_nonneg points
  have below := Int32.toInt_lt (Int32.ofInt (travelled getDistance.metres points))
  rw [whole, Int.floor_intCast_add]
  have rounded := Int.floor_nonneg.mpr nonneg
  constructor
  · intro same
    have fits : travelled getDistance.metres points < 2 ^ 31 := by omega
    rw [getDistance.toInt_travelled fits] at same
    have none : ⌊getDistance.dropped points⌋ = 0 := by omega
    exact ⟨fits, (Int.floor_eq_zero_iff.mp none).2⟩
  · rintro ⟨fits, less⟩
    rw [getDistance.toInt_travelled fits, Int.floor_eq_zero_iff.mpr ⟨nonneg, less⟩,
      add_zero]

end DistanceFunction

/-- A summary of a route is exact when it counts the points and the named
features, and its distance is the sum of the legs: never negative, no less than
the distance of any part from the start, and zero without a leg. -/
structure ExactSummary (list : FeatureList) (getDistance : DistanceFunction)
    (points : List Point) (summary : RouteSummary) : Prop where
  pointCount : summary.pointCount.toInt = points.length
  featureCount : summary.featureCount.toInt = points.countP (isNamedAt list.features)
  distance : summary.distance.toInt = travelled getDistance.metres points
  nonneg : 0 ≤ summary.distance
  grows : ∀ shorter elapsedMilliseconds earlier, shorter <+: points →
    RouteGuideImpl.recordRoute list.features getDistance.metres shorter elapsedMilliseconds =
      .ok earlier → earlier.distance ≤ summary.distance
  still : points.length ≤ 1 → summary.distance = 0

theorem travelled_of_short {Metres : Type} [Ring Metres] [LinearOrder Metres] [FloorRing Metres]
    (getDistance : Point → Point → Metres) {points : List Point} (short : points.length ≤ 1) :
    travelled getDistance points = 0 := by
  match points with
  | [] => rfl
  | [_] => rfl
  | _ :: _ :: _ => exact absurd short (by simp)

theorem summary_exact_iff (list : FeatureList) (getDistance : DistanceFunction)
    (points : List Point) (elapsedMilliseconds : Int64) (few : points.length < 2 ^ 31) :
    ∃ summary, RouteGuideImpl.recordRoute list.features getDistance.metres points
        elapsedMilliseconds = .ok summary ∧
      (ExactSummary list getDistance points summary ↔
        travelled getDistance.metres points < 2 ^ 31) := by
  refine ⟨_, list.recordRoute_eq getDistance.metres points elapsedMilliseconds, ?_, ?_⟩
  · intro exactly
    rw [← exactly.distance]
    exact Int32.toInt_lt _
  · intro fits
    have distance := getDistance.toInt_travelled fits
    have counted : points.countP (isNamedAt list.features) ≤ points.length := List.countP_le_length
    constructor
    case pointCount => exact Int32.toInt_ofNat_of_lt few
    case featureCount => exact Int32.toInt_ofNat_of_lt (Nat.lt_of_le_of_lt counted few)
    case distance => exact distance
    case nonneg =>
      rw [Int32.le_iff_toInt_le, distance]
      exact getDistance.travelled_nonneg points
    case grows =>
      intro shorter elapsedMilliseconds earlier part recorded
      rw [list.recordRoute_eq] at recorded
      cases recorded
      have less := getDistance.travelled_prefix_le part
      rw [Int32.le_iff_toInt_le, distance,
        getDistance.toInt_travelled (lt_of_le_of_lt less fits)]
      exact less
    case still =>
      intro short
      rw [travelled_of_short getDistance.metres short]
      rfl

/-! ### From one point to its antipode and back -/

def shuttle (here there : Point) : Nat → List Point
  | 0 => []
  | n + 1 => here :: shuttle there here n

/-- Any two points taken to be antipodes, which are about 20015086.8 metres apart. -/
noncomputable def antipodes : DistanceFunction where
  metres start finish := if start = finish then 0 else 20015086
  nonneg start finish := by split <;> norm_num
  atMost start finish := by
    have pi := Real.pi_gt_d20
    split <;> linarith

theorem travelled_shuttle {here there : Point} (apart : here ≠ there) (n : Nat) :
    travelled antipodes.metres (shuttle here there (n + 1)) = n * 20015086 := by
  induction n generalizing here there with
  | zero => rfl
  | succ n ih =>
    have leg : truncate (antipodes.metres here there) = 20015086 := by
      rw [truncate_of_nonneg (antipodes.nonneg here there)]
      change ⌊(if here = there then 0 else 20015086 : ℝ)⌋ = 20015086
      rw [if_neg apart]
      exact Int.floor_ofNat 20015086
    change truncate (antipodes.metres here there) +
      travelled antipodes.metres (shuttle there here (n + 1)) = _
    rw [leg, ih (Ne.symm apart), Nat.cast_succ]
    omega

def west : Point := ⟨0, -900000000⟩

def east : Point := ⟨0, 900000000⟩

def noFeature : FeatureList := ⟨[], fun _ member => nomatch member⟩

theorem summary_exact_iff_shuttle :
    ∃ summary, RouteGuideImpl.recordRoute noFeature.features antipodes.metres
        (shuttle west east 3) 61000 = .ok summary ∧
      (ExactSummary noFeature antipodes (shuttle west east 3) summary ↔
        travelled antipodes.metres (shuttle west east 3) < 2 ^ 31) :=
  summary_exact_iff noFeature antipodes (shuttle west east 3) 61000 (by decide)

/-- The sum of 108 legs wraps around. -/
theorem distance_wraps :
    ∃ summary, RouteGuideImpl.recordRoute noFeature.features antipodes.metres
        (shuttle west east 109) 61000 = .ok summary ∧
      summary.distance = -2133338008 ∧
      ¬ ExactSummary noFeature antipodes (shuttle west east 109) summary := by
  have metres : travelled antipodes.metres (shuttle west east 109) = 2161629288 :=
    travelled_shuttle (by decide) 108
  refine ⟨_, noFeature.recordRoute_eq antipodes.metres _ 61000, ?_, ?_⟩
  · dsimp only
    rw [metres]
    decide
  · intro exactly
    have nonneg := exactly.nonneg
    dsimp only at nonneg
    rw [metres] at nonneg
    exact absurd nonneg (by decide)

end BenchmarkHost
