import BenchmarkHost.RouteGuide.RecordRoute

/-! The lookup at a point against the query over an area.

The lookup tests the name of the first feature at the point; the query finds
any named feature there. They differ where an unnamed feature hides a named
one.
-/

set_option autoImplicit false

namespace BenchmarkHost

open Library

/-- The four ways to name a rectangle: either diagonal, from either end. -/
def namings (lo hi : Point) : List Rectangle :=
  [⟨some lo, some hi⟩, ⟨some hi, some lo⟩,
    ⟨some ⟨lo.latitude, hi.longitude⟩, some ⟨hi.latitude, lo.longitude⟩⟩,
    ⟨some ⟨hi.latitude, lo.longitude⟩, some ⟨lo.latitude, hi.longitude⟩⟩]

/-- The lookup at a point finds a feature, and a route that reaches the point
counts one, exactly when the query streams a feature located there; and the
query streams the same list for every naming of the rectangle. -/
structure LookupsAgree (list : FeatureList) (lo hi point : Point) (found : Feature)
    (streamed : List Feature) : Prop where
  answered : RouteGuideImpl.getFeature list.features point = .ok found
  listed : ∀ rectangle ∈ namings lo hi,
    RouteGuideImpl.listFeatures list.features rectangle = .ok streamed
  agree : Feature.doesExist (some found) = true ↔
    ∃ feature ∈ streamed, feature.location = some point
  counted : ∀ (getDistance : DistanceFunction) route elapsedMilliseconds,
    ∃ before after,
      RouteGuideImpl.recordRoute list.features getDistance.metres route elapsedMilliseconds =
        .ok before ∧
      RouteGuideImpl.recordRoute list.features getDistance.metres (route ++ [point])
        elapsedMilliseconds = .ok after ∧
      (after.featureCount = before.featureCount + 1 ↔
        ∃ feature ∈ streamed, feature.location = some point)

/-! ### Both searches read the same list -/

namespace FeatureList
variable {list : FeatureList} {lo hi point : Point}

theorem isAt_iff {feature : Feature} :
    isAt point feature = true ↔ feature.location = some point := by
  rw [isAt, beq_iff_eq]

theorem listFeatures_namings {rectangle : Rectangle} (naming : rectangle ∈ namings lo hi) :
    RouteGuideImpl.listFeatures list.features rectangle =
      .ok (list.features.filter (isListed lo hi)) := by
  have listed : ∀ first second : Point, area first second = area lo hi →
      RouteGuideImpl.listFeatures list.features ⟨some first, some second⟩ =
        .ok (list.features.filter (isListed lo hi)) := by
    intro first second same
    have rule : isListed first second = isListed lo hi := by
      funext feature
      unfold isListed
      simp only [same]
    rw [list.listFeatures_eq, rule]
  simp only [namings, List.mem_cons, List.not_mem_nil, or_false] at naming
  rcases naming with rfl | rfl | rfl | rfl
  · exact listed lo hi rfl
  · exact listed hi lo (area_swap hi lo)
  · exact listed _ _ (area_mixed lo hi)
  · apply listed
    rw [area_swap]
    exact area_mixed lo hi

theorem streamed_iff (inside : point ∈ area lo hi) :
    (∃ feature ∈ list.features.filter (isListed lo hi), feature.location = some point) ↔
      ∃ feature ∈ list.features,
        feature.location = some point ∧ Feature.doesExist (some feature) = true := by
  constructor
  · rintro ⟨feature, member, located⟩
    obtain ⟨present, passes⟩ := List.mem_filter.mp member
    rw [isListed, Bool.and_eq_true] at passes
    exact ⟨feature, present, located, passes.1⟩
  · rintro ⟨feature, present, located, named⟩
    have passes : isListed lo hi feature = true := by
      rw [isListed, named, located]
      exact decide_eq_true inside
    exact ⟨feature, List.mem_filter.mpr ⟨present, passes⟩, located⟩

theorem found_exists_iff :
    Feature.doesExist (some ((list.features.find? (isAt point)).getD ⟨"", some point⟩)) = true ↔
      ∃ first, list.features.find? (isAt point) = some first ∧
        Feature.doesExist (some first) = true := by
  cases list.features.find? (isAt point) with
  | none => simp [Feature.doesExist]
  | some first => simp

theorem featureCount_append (route : List Point) :
    Int32.ofNat ((route ++ [point]).countP (isNamedAt list.features)) =
        Int32.ofNat (route.countP (isNamedAt list.features)) + 1 ↔
      isNamedAt list.features point = true := by
  rw [List.countP_append, List.countP_singleton, Int32.ofNat_add]
  cases isNamedAt list.features point with
  | true => exact iff_of_true rfl rfl
  | false =>
    constructor
    · intro same
      have zero := (Int32.add_right_inj _).mp same
      exact absurd zero (by decide)
    · intro named
      cases named

theorem isNamedAt_iff :
    isNamedAt list.features point = true ↔
      ∃ first, list.features.find? (isAt point) = some first ∧
        Feature.doesExist (some first) = true := by
  rw [isNamedAt, list.checkFeature_eq]
  exact found_exists_iff

/-- An unnamed first feature hides no named one. -/
def FirstDecides (list : FeatureList) (point : Point) : Prop :=
  ∀ first, list.features.find? (isAt point) = some first →
    Feature.doesExist (some first) = false →
      ∀ feature ∈ list.features, feature.location = some point →
        Feature.doesExist (some feature) = false

theorem firstDecides_iff :
    FirstDecides list point ↔
      ((∃ first, list.features.find? (isAt point) = some first ∧
          Feature.doesExist (some first) = true) ↔
        ∃ feature ∈ list.features,
          feature.location = some point ∧ Feature.doesExist (some feature) = true) := by
  constructor
  · intro decides
    constructor
    · rintro ⟨first, found, named⟩
      exact ⟨first, List.mem_of_find?_eq_some found, isAt_iff.mp (List.find?_some found), named⟩
    · rintro ⟨feature, present, located, named⟩
      have some : (list.features.find? (isAt point)).isSome = true :=
        List.find?_isSome.mpr ⟨feature, present, isAt_iff.mpr located⟩
      obtain ⟨first, found⟩ := Option.isSome_iff_exists.mp some
      refine ⟨first, found, ?_⟩
      by_contra unnamed
      rw [Bool.not_eq_true] at unnamed
      have hidden := decides first found unnamed feature present located
      rw [named] at hidden
      cases hidden
  · intro agree first found unnamed feature present located
    by_contra named
    rw [Bool.not_eq_false] at named
    obtain ⟨other, same, nonempty⟩ := agree.mpr ⟨feature, present, located, named⟩
    rw [found] at same
    cases same
    rw [unnamed] at nonempty
    cases nonempty

end FeatureList

open FeatureList

theorem lookups_agree_iff (list : FeatureList) (lo hi point : Point)
    (inside : Rectangle.contains ⟨some lo, some hi⟩ (some point) = .ok true) :
    (∃ found streamed, LookupsAgree list lo hi point found streamed) ↔
      ∀ first, list.features.find? (fun feature => feature.location == some point) = some first →
        first.name = "" →
          ∀ feature ∈ list.features, feature.location = some point → feature.name = "" := by
  rw [contains_eq, Except.ok.injEq, decide_eq_true_iff] at inside
  have unnamed : ∀ feature : Feature,
      Feature.doesExist (some feature) = false ↔ feature.name = "" := by
    intro feature
    rw [Feature.doesExist, bne_eq_false_iff_eq, String.length_eq_zero_iff]
  have condition : FirstDecides list point ↔
      ∀ first, list.features.find? (isAt point) = some first → first.name = "" →
        ∀ feature ∈ list.features, feature.location = some point → feature.name = "" := by
    simp only [FirstDecides, unnamed]
  refine Iff.trans ?_ condition
  rw [firstDecides_iff]
  constructor
  · rintro ⟨found, streamed, agreed⟩
    have answered := agreed.answered
    have listed := agreed.listed ⟨some lo, some hi⟩ List.mem_cons_self
    rw [RouteGuideImpl.getFeature, list.checkFeature_eq] at answered
    rw [list.listFeatures_eq] at listed
    cases answered
    cases listed
    rw [← found_exists_iff, ← streamed_iff inside]
    exact agreed.agree
  · intro agree
    rw [← streamed_iff inside] at agree
    refine ⟨_, _, list.checkFeature_eq point, fun rectangle => listFeatures_namings,
      found_exists_iff.trans agree, fun getDistance route elapsedMilliseconds => ?_⟩
    refine ⟨_, _, list.recordRoute_eq _ route _, list.recordRoute_eq _ (route ++ [point]) _, ?_⟩
    exact (featureCount_append route).trans (isNamedAt_iff.trans agree)

/-! ### An unnamed feature in front of a named one -/

def plaza : Point := ⟨409146138, -746188906⟩

def hidden : FeatureList where
  features := [⟨"", some plaza⟩, ⟨"Plaza", some plaza⟩]
  located feature member := by
    simp only [List.mem_cons, List.not_mem_nil, or_false] at member
    rcases member with rfl | rfl <;> exact ⟨plaza, rfl⟩

def southWest : Point := ⟨400000000, -750000000⟩

def northEast : Point := ⟨420000000, -730000000⟩

theorem lookups_agree_iff_plaza :
    (∃ found streamed, LookupsAgree hidden southWest northEast plaza found streamed) ↔
      ∀ first, hidden.features.find? (fun feature => feature.location == some plaza) =
          some first → first.name = "" →
        ∀ feature ∈ hidden.features, feature.location = some plaza → feature.name = "" :=
  lookups_agree_iff hidden southWest northEast plaza rfl

/-- The query streams the plaza, and the lookup finds nothing there. -/
theorem named_feature_hidden :
    Rectangle.contains ⟨some southWest, some northEast⟩ (some plaza) = .ok true ∧
      ¬ ∃ found streamed, LookupsAgree hidden southWest northEast plaza found streamed := by
  refine ⟨rfl, ?_⟩
  rintro ⟨found, streamed, agreed⟩
  have answered : RouteGuideImpl.getFeature hidden.features plaza = .ok ⟨"", some plaza⟩ := rfl
  have listed : RouteGuideImpl.listFeatures hidden.features ⟨some southWest, some northEast⟩ =
      .ok [⟨"Plaza", some plaza⟩] := rfl
  have same := agreed.answered
  rw [answered] at same
  cases same
  have streams := agreed.listed ⟨some southWest, some northEast⟩ List.mem_cons_self
  rw [listed] at streams
  cases streams
  have contrary := agreed.agree.mpr ⟨⟨"Plaza", some plaza⟩, List.mem_singleton_self _, rfl⟩
  cases contrary

end BenchmarkHost
