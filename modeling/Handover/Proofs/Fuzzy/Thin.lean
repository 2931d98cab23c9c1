import Handover.Fuzzy.TypeTwo
import Handover.Proofs.Fuzzy.Exact
import Handover.Proofs.Fuzzy.Map
import Handover.Proofs.Success

/-!
# Footprints without uncertainty

A membership function is a footprint whose bounds coincide.  Read this way, every
type-1 system is a type-2 system.  In exact arithmetic nothing changes: the
checks are the same, both ends of the centroid interval are the centroid, and
the answers agree.
-/

namespace Handover.Fuzzy

open Scalar

section Definitions

variable {α : Type}

/-- The footprint that is one membership function. -/
def Footprint.thin (shape : Membership α) : Footprint α :=
  ⟨shape, shape⟩

/-- The degree without uncertainty. -/
def Interval.thin (degree : α) : Interval α :=
  ⟨degree, degree⟩

/-- The type-2 description with the terms of a type-1 description. -/
def Definition.thin (definition : TypeOneDefinition α) : TypeTwoDefinition α :=
  definition.map Footprint.thin

/-- The type-2 system with the terms of a type-1 system. -/
def System.thin (system : TypeOneSystem α) : TypeTwoSystem α :=
  system.map Footprint.thin

end Definitions

/-! ## Equal bounds -/

section Bounds

variable {α : Type} [Scalar α]

@[simp]
theorem lesser_self (x : α) : lesser x x = x := by
  simp [lesser]

@[simp]
theorem greater_self (x : α) : greater x x = x := by
  simp [greater]

omit [Scalar α] in
@[simp]
theorem switchedWeights_self (side : End) (weights : List α) (index : Nat) :
    switchedWeights side weights weights index = weights := by
  cases side <;> exact List.take_append_drop _ _

/-- With equal bounds the estimate stays where it is. -/
theorem followEstimate_self {side : End} {xs weights : List α} {mean : α}
    (balanced : weightedMean? xs weights = some mean) (rounds : Nat) :
    followEstimate side xs weights weights rounds mean = some mean := by
  induction rounds with
  | zero => rfl
  | succ rounds ih =>
      rw [followEstimate, switchedWeights_self, balanced]
      dsimp only
      split
      · rfl
      · exact ih

/-- Under either bound, the thin terms join to the height of their shapes. -/
theorem joinedBound_thin (bound : Footprint α → Membership α)
    (either : ∀ shape, bound (.thin shape) = shape) (x : α) (terms : List (Term (Membership α)))
    (activation : List α) (enough : activation.length = terms.length) (top : α) :
    TypeTwo.joinedBound bound x (terms.map (Term.map Footprint.thin)) activation top =
      (terms.zip activation).foldl
        (fun top pair => greater top (lesser pair.2 (pair.1.membership.degree x))) top := by
  induction terms generalizing activation top with
  | nil => rfl
  | cons term rest ih =>
      cases activation with
      | nil => cases enough
      | cons strength others =>
          rw [List.map_cons, TypeTwo.joinedBound, List.headD_cons, List.tail_cons,
            ih others (Nat.succ.inj enough)]
          simp only [Term.map, either, List.zip_cons_cons, List.foldl_cons]

theorem joined_thin (system : TypeOneSystem α) {activation : List α}
    (enough : activation.length = system.output.terms.length) (x : α) :
    TypeTwo.joined system.thin ⟨activation, activation⟩ x =
      .thin (TypeOne.joined system.output.terms activation x) := by
  have lower := joinedBound_thin Footprint.lower (fun _ => rfl) x
    system.output.terms activation enough 0
  have upper := joinedBound_thin Footprint.upper (fun _ => rfl) x
    system.output.terms activation enough 0
  simp only [TypeTwo.joined, System.thin, System.map, Variable.map, lower, upper, greater_self]
  rfl

theorem activate_thin (system : TypeOneSystem α) (fuzzified : List (List α)) :
    TypeTwo.activate system.thin (fuzzified.map (List.map Interval.thin)) =
      ⟨TypeOne.activate system fuzzified, TypeOne.activate system fuzzified⟩ := by
  have bounds (bound : Interval α → α) (either : ∀ degree, bound (.thin degree) = degree) :
      (fuzzified.map (List.map Interval.thin)).map (List.map bound) = fuzzified := by
    simp [List.map_map, Function.comp_def, either]
  simp only [TypeTwo.activate, TypeOne.activate, System.thin, System.map, Variable.map,
    List.length_map, bounds Interval.lower fun _ => rfl, bounds Interval.upper fun _ => rfl]

theorem activate_length (system : TypeOneSystem α) (fuzzified : List (List α)) :
    (TypeOne.activate system fuzzified).length = system.output.terms.length := by
  simp [TypeOne.activate, activations]

end Bounds

/-! ## Exact arithmetic -/

section Exact

variable {K : Type} [Field K] [LinearOrder K] [IsStrictOrderedRing K] [FloorSemiring K]
  [Exponential K]

theorem Footprint.not_invertedAt_thin (shape : Membership (Extended K)) (x : Extended K) :
    ¬(thin shape).InvertedAt x := by
  rw [InvertedAt, tolerance_def]
  exact Extended.not_add_lt _ (by positivity)

/-- A thin footprint passes the checks that its shape passes. -/
theorem Footprint.validate_thin (name : String) (samples : List (Extended K))
    (shape : Membership (Extended K)) :
    (thin shape).validate name samples = shape.validate name := by
  have level : (samples.find? fun x => (thin shape).InvertedAt x) = none := by
    rw [List.find?_eq_none]
    exact fun x _ => mt of_decide_eq_true (not_invertedAt_thin shape x)
  rw [validate, level]
  change (do shape.validate name; shape.validate name; .ok ()) = shape.validate name
  cases shape.validate name <;> rfl

theorem middleWeights_self (weights : List (Extended K)) :
    middleWeights weights weights = weights := by
  rw [middleWeights, List.zipWith_self]
  simp [Extended.half_double]

theorem weightedMean?_nil (weights : List (Extended K)) :
    weightedMean? [] weights = none := by
  have light : ¬(Scalar.epsilon : Extended K) < 0 := by
    rw [Extended.epsilon_def, Extended.zero_def, Extended.number_lt, not_lt]
    positivity
  exact if_neg light

theorem centroidEnd?_self (side : End) (xs weights : List (Extended K)) :
    centroidEnd? side xs weights weights = weightedMean? xs weights := by
  rw [centroidEnd?, middleWeights_self]
  cases balanced : weightedMean? xs weights with
  | none => rfl
  | some mean => exact followEstimate_self balanced roundLimit

/-- The centroid interval between equal bounds is the centroid. -/
theorem karnikMendel?_self {xs weights : List (Extended K)}
    (paired : xs.length = weights.length) :
    karnikMendel? xs weights weights =
      (weightedMean? xs weights).map fun mean => (mean, mean) := by
  rw [karnikMendel?, centroidEnd?_self, centroidEnd?_self]
  cases xs with
  | nil => rw [if_pos (.inl rfl), weightedMean?_nil, Option.map_none]
  | cons x rest =>
      rw [if_neg (by simpa using paired)]
      cases weightedMean? (x :: rest) weights with
      | none => rfl
      | some mean => simp

/-! ## Centroids -/

omit [IsStrictOrderedRing K] in
theorem TypeOne.joined_nonneg (terms : List (Term (Membership (Extended K))))
    (activation : List (Extended K)) (x : Extended K) :
    0 ≤ joined terms activation x := by
  unfold joined
  induction terms.zip activation using List.reverseRecOn with
  | nil => exact Extended.le_refl nofun
  | append_singleton rest pair ih =>
      rw [List.foldl_append]
      exact Extended.greater_nonneg ih _

theorem moments_nonneg {points : List (Extended K × Extended K)}
    (nonneg : ∀ point ∈ points, 0 ≤ point.2) : 0 ≤ (moments points).2 := by
  unfold moments
  induction points using List.reverseRecOn with
  | nil => exact Extended.le_refl nofun
  | append_singleton rest point ih =>
      rw [List.foldl_append]
      rw [List.forall_mem_append, List.forall_mem_singleton] at nonneg
      exact Extended.add_nonneg (ih nonneg.1) nonneg.2

/-- The centroid of a joined output is its weighted mean. -/
theorem TypeOne.defuzzify_eq (system : TypeOneSystem (Extended K))
    (activation : List (Extended K)) :
    defuzzify system activation =
      match weightedMean? system.output.domain.samples
        (system.output.domain.samples.map (joined system.output.terms activation)) with
      | some mean => .ok mean
      | none => .error (.emptyOutput system.output.name) := by
  have points : system.output.domain.samples.zip
      (system.output.domain.samples.map (joined system.output.terms activation)) =
        aggregate system activation := by
    rw [List.zip_eq_zipWith, List.zipWith_map_right, List.zipWith_self]
    rfl
  have nonneg : 0 ≤ (moments (aggregate system activation)).2 := by
    apply moments_nonneg
    intro point member
    rcases List.mem_map.mp member with ⟨x, _, rfl⟩
    exact joined_nonneg _ _ _
  have light : ¬Scalar.epsilon < (moments (aggregate system activation)).2 ↔
      (moments (aggregate system activation)).2 ≤ Scalar.epsilon := by
    apply Extended.not_lt _ (Extended.ne_notNumber_of_le nonneg).2
    rw [Extended.epsilon_def]
    exact nofun
  simp only [defuzzify, weightedMean?, points]
  by_cases empty : (moments (aggregate system activation)).2 ≤ Scalar.epsilon
  · rw [if_pos empty, if_neg (light.mpr empty)]
  · rw [if_neg empty, if_pos (not_not.mp (mt light.mp empty))]

theorem TypeTwo.reduceType_thin (system : TypeOneSystem (Extended K))
    {activation : List (Extended K)} (enough : activation.length = system.output.terms.length) :
    reduceType system.thin ⟨activation, activation⟩ =
      match weightedMean? system.output.domain.samples
        (system.output.domain.samples.map (TypeOne.joined system.output.terms activation)) with
      | some mean => .ok (mean, mean)
      | none => .error (.emptyOutput system.output.name) := by
  have heights (bound : Interval (Extended K) → Extended K)
      (either : ∀ degree, bound (.thin degree) = degree) :
      (system.output.domain.samples.map (joined system.thin ⟨activation, activation⟩)).map bound =
        system.output.domain.samples.map (TypeOne.joined system.output.terms activation) := by
    rw [List.map_map]
    apply List.map_congr_left
    intro x _
    rw [Function.comp_apply, joined_thin system enough, either]
  have sampled : system.thin.output.domain.samples = system.output.domain.samples := rfl
  simp only [reduceType, sampled, heights Interval.lower fun _ => rfl,
    heights Interval.upper fun _ => rfl, karnikMendel?_self (List.length_map _).symm]
  cases weightedMean? system.output.domain.samples
    (system.output.domain.samples.map (TypeOne.joined system.output.terms activation)) <;> rfl

/-- The midpoint of the centroid interval of a thin system is the centroid. -/
theorem TypeTwo.defuzzify_thin (system : TypeOneSystem (Extended K))
    {activation : List (Extended K)} (enough : activation.length = system.output.terms.length) :
    defuzzify system.thin ⟨activation, activation⟩ = TypeOne.defuzzify system activation := by
  rw [defuzzify, reduceType_thin system enough, TypeOne.defuzzify_eq]
  split
  · next mean _ => exact congrArg Except.ok (Extended.half_double mean)
  · rfl

/-- Type-2 systems generalise type-1 systems: the thin description is built exactly
if the type-1 description is, with the same fault else, and the thin system has
the same answer or the same fault for every list of crisp inputs. -/
theorem thin_generalises (definition : TypeOneDefinition (Extended K)) :
    definition.thin.build = definition.build.map System.thin ∧
      ∀ (system : TypeOneSystem (Extended K)) (crisp : List (Extended K)),
        TypeTwo.evaluate system.thin crisp = TypeOne.evaluate system crisp := by
  constructor
  · exact definition.build_map fun name domain shape =>
      Footprint.validate_thin name domain.samples shape
  · intro system crisp
    have degrees : system.thin.fuzzify crisp =
        (system.fuzzify crisp).map (List.map (List.map Interval.thin)) :=
      system.fuzzify_map (fun _ _ => rfl) crisp
    rw [TypeTwo.evaluate, TypeOne.evaluate, degrees]
    cases system.fuzzify crisp with
    | error fault => rfl
    | ok fuzzified =>
        have active := activate_thin system fuzzified
        change TypeTwo.defuzzify system.thin (TypeTwo.activate system.thin _) = _
        rw [active]
        exact TypeTwo.defuzzify_thin system (activate_length system fuzzified)

/-- A rule by which the output rises with the input. -/
def rising : TypeOneDefinition (Extended ℚ) :=
  let unit : Domain (Extended ℚ) := ⟨0, 1, 3⟩
  { inputs := [⟨"signal", unit, [⟨"HIGH", .triangular 0 1 1⟩]⟩]
    output := ⟨"trigger", unit, [⟨"YES", .triangular 0 1 1⟩]⟩
    rules := [.ofPairs [("signal", "HIGH")] "YES"] }

theorem thin_generalises_rising :
    ∃ system, rising.build = .ok system ∧ rising.thin.build = .ok system.thin ∧
      ∃ score, TypeOne.evaluate system [.number (1 / 2)] = .ok score ∧
        TypeTwo.evaluate system.thin [.number (1 / 2)] = .ok score ∧ score = .number (3 / 4) := by
  have evaluated : rising.build.toOption.any (fun system =>
      (TypeOne.evaluate system [.number (1 / 2)]).toOption.any fun score =>
        score = .number (3 / 4)) = true := by
    decide +kernel
  rcases exists_of_any_toOption evaluated with ⟨system, built, evaluated⟩
  rcases exists_of_any_toOption evaluated with ⟨score, answered, same⟩
  rcases thin_generalises rising with ⟨builds, agrees⟩
  rw [built] at builds
  refine ⟨system, built, builds, score, answered, ?_, of_decide_eq_true same⟩
  rw [agrees, answered]

end Exact

end Handover.Fuzzy
