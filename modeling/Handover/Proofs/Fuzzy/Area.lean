import Handover.Proofs.Fuzzy.Centroid
import Handover.Proofs.Fuzzy.Range

/-!
# Sets with an area

A set has an area if the weights half way between its bounds have a total that counts.
Type reduction starts from these weights, and from then on its estimate moves outward
and fewer samples keep their upper weight.  So the total may drop until it no longer
counts, and then the search starves although the set has an area.

Every total is at least that of the lower weights, so a search only starves where these
are as light.  If no upper weight is so thin that it does not count, then the left end
never starves, and the right end only starves at the greatest sample of the set, with
no lower weight at any other one.
-/

namespace Handover.Fuzzy

open Scalar Extended

variable {K : Type} [Field K] [LinearOrder K]

/-! ## Searches -/

/-- Samples with weights between two bounds that are not negative. -/
structure Outline (xs lower upper : List K) : Prop where
  inhabited : xs ≠ []
  ascending : xs.Pairwise (· < ·)
  paired : xs.length = upper.length
  bounds : List.Forall₂ (· ≤ ·) lower upper
  nonneg : ∀ w ∈ lower, 0 ≤ w

/-- The total half way between the bounds counts. -/
structure HasArea (lower upper : List K) : Prop where
  heavy : 1 / 2 ^ 52 < (halfway lower upper).sum

/-- A number of turns leads from one estimate to another, none of them within the
tolerance. -/
inductive End.Moves (side : End) (xs lower upper : List K) : Nat → K → K → Prop
  | rest (estimate : K) : side.Moves xs lower upper 0 estimate estimate
  | turn {rounds : Nat} {before next last : K} (turn : side.Turn xs lower upper before next)
      (moving : side.sign * next + 1 / 10 ^ 12 < side.sign * before)
      (later : side.Moves xs lower upper rounds next last) :
      side.Moves xs lower upper (rounds + 1) before last

/-- The search for an end moves to an estimate where the total no longer counts. -/
inductive End.Starves (side : End) (xs lower upper : List K) : Prop
  | at_estimate {rounds : Nat} {estimate : K} (few : rounds < roundLimit)
      (moves : side.Moves xs lower upper rounds (mean xs (halfway lower upper)) estimate)
      (light : (raised side estimate xs lower upper).sum ≤ 1 / 2 ^ 52) :
      side.Starves xs lower upper

variable [IsStrictOrderedRing K] {side : End} {xs lower upper weights : List K} {estimate : K}

omit [IsStrictOrderedRing K] in
theorem Outline.pairedLower (outline : Outline xs lower upper) : xs.length = lower.length :=
  outline.paired.trans outline.bounds.length_eq.symm

theorem Outline.isCentroid_halfway (outline : Outline xs lower upper)
    (area : HasArea lower upper) : IsCentroid xs lower upper (mean xs (halfway lower upper)) :=
  .of_weights _ (weighting_halfway outline.bounds) area.heavy

omit [IsStrictOrderedRing K] in
/-- An estimate that is reached from a mean is one. -/
theorem End.Moves.isCentroid {rounds : Nat} {last : K}
    (moves : side.Moves xs lower upper rounds estimate last) (outline : Outline xs lower upper)
    (centroid : IsCentroid xs lower upper estimate) : IsCentroid xs lower upper last := by
  induction moves with
  | rest => exact centroid
  | turn turn _ _ ih => exact ih (turn.isCentroid outline.bounds outline.paired)

section Searches

variable [FloorSemiring K] [Exponential K]

/-- A search fails exactly if it moves to an estimate where the total does not count. -/
theorem followEstimate_eq_none_iff (side : End) (outline : Outline xs lower upper)
    (centroid : IsCentroid xs lower upper estimate) (rounds : Nat) :
    followEstimate side (xs.map number) (lower.map number) (upper.map number) rounds
        (number estimate : Extended K) = none ↔
      ∃ turns < rounds, ∃ last, side.Moves xs lower upper turns estimate last ∧
        (raised side last xs lower upper).sum ≤ 1 / 2 ^ 52 := by
  induction rounds generalizing estimate with
  | zero => exact iff_of_false nofun fun ⟨_, few, _⟩ => absurd few (Nat.not_lt_zero _)
  | succ rounds ih =>
      obtain ⟨first, rest, rfl⟩ := List.exists_cons_of_ne_nil outline.inhabited
      rw [followEstimate_round outline.ascending outline.bounds outline.nonneg outline.paired
        centroid]
      split_ifs with heavy still
      · refine iff_of_false nofun ?_
        rintro ⟨_, _, _, rest | ⟨turn, moving, _⟩, light⟩
        · exact light.not_gt heavy
        · rw [← turn.mean_eq] at moving
          exact moving.not_ge still
      · have turn := centroid.turn side outline.paired heavy
        rw [ih (turn.isCentroid outline.bounds outline.paired)]
        constructor
        · rintro ⟨turns, few, last, moves, light⟩
          exact ⟨turns + 1, Nat.succ_lt_succ few, last, .turn turn (not_le.mp still) moves, light⟩
        · rintro ⟨_, few, last, rest | ⟨again, _, moves⟩, light⟩
          · exact absurd heavy light.not_gt
          · rw [← again.mean_eq] at moves
            exact ⟨_, Nat.lt_of_succ_lt_succ few, last, moves, light⟩
      · exact iff_of_true rfl ⟨0, Nat.succ_pos rounds, estimate, .rest estimate, not_lt.mp heavy⟩

theorem centroidEnd?_eq_none_iff (outline : Outline xs lower upper) :
    (centroidEnd? side (xs.map number) (lower.map number) (upper.map number) :
        Option (Extended K)) = none ↔
      ¬HasArea lower upper ∨ side.Starves xs lower upper := by
  have paired := outline.paired.trans (length_halfway outline.bounds.length_eq).symm
  rw [centroidEnd?, middleWeights_number]
  by_cases area : HasArea lower upper
  · have fails := followEstimate_eq_none_iff side outline (outline.isCentroid_halfway area)
      roundLimit
    rw [(weightedMean?_eq_some paired).mpr ⟨area.heavy, rfl⟩, or_iff_right (not_not.mpr area)]
    refine fails.trans ?_
    constructor
    · rintro ⟨_, few, _, moves, light⟩
      exact ⟨few, moves, light⟩
    · rintro ⟨few, moves, light⟩
      exact ⟨_, few, _, moves, light⟩
  · rw [Option.eq_none_iff_forall_ne_some.mpr fun _ found =>
      area ⟨((weightedMean?_eq_some paired).mp found).1⟩]
    exact iff_of_true rfl (.inl area)

/-- Type reduction finds an interval exactly if the set has an area and neither search
starves. -/
theorem karnikMendel?_eq_none_iff (outline : Outline xs lower upper) :
    (karnikMendel? (xs.map number) (lower.map number) (upper.map number) :
        Option (Extended K × Extended K)) = none ↔
      ¬HasArea lower upper ∨ ∃ side : End, side.Starves xs lower upper := by
  have wellFormed : ¬((xs.map (number (K := K))).isEmpty ∨
      (xs.map (number (K := K))).length ≠ (lower.map (number (K := K))).length ∨
      (xs.map (number (K := K))).length ≠ (upper.map (number (K := K))).length) := by
    simpa using ⟨outline.inhabited, outline.pairedLower, outline.paired⟩
  rw [karnikMendel?, if_neg wellFormed]
  constructor
  · intro missing
    split at missing
    · cases missing
    · next incomplete =>
      by_contra! found
      have isSome (side : End) : ∃ value, centroidEnd? side (xs.map (number (K := K)))
          (lower.map number) (upper.map number) = some value :=
        Option.ne_none_iff_exists'.mp fun none =>
          ((centroidEnd?_eq_none_iff outline).mp none).elim (absurd found.1) (found.2 side)
      obtain ⟨left, foundLeft⟩ := isSome .left
      obtain ⟨right, foundRight⟩ := isSome .right
      exact incomplete left right foundLeft foundRight
  · intro lacking
    have failing : ∃ side : End, centroidEnd? side (xs.map (number (K := K)))
        (lower.map number) (upper.map number) = none := by
      rcases lacking with noArea | ⟨side, starves⟩
      · exact ⟨.left, (centroidEnd?_eq_none_iff outline).mpr (.inl noArea)⟩
      · exact ⟨side, (centroidEnd?_eq_none_iff outline).mpr (.inr starves)⟩
    split
    · next foundLeft foundRight =>
      rcases failing with ⟨_ | _, failing⟩
      · cases failing.symm.trans foundLeft
      · cases failing.symm.trans foundRight
    · rfl

end Searches

/-! ## Where a search starves -/

omit [Field K] [LinearOrder K] [IsStrictOrderedRing K] in
/-- Weights that are related place by place stand at the same samples. -/
theorem exists_mem_zip_of_forall₂ {R : K → K → Prop} {first second : List K}
    (related : List.Forall₂ R first second) {x w : K} (member : (x, w) ∈ xs.zip first) :
    ∃ v, (x, v) ∈ xs.zip second ∧ R w v := by
  induction related generalizing xs with
  | nil => simp at member
  | @cons a b _ _ here _ ih =>
      cases xs with
      | nil => cases member
      | cons y xs =>
          rw [List.zip_cons_cons, List.mem_cons] at member
          rcases member with same | later
          · cases same
            exact ⟨b, List.mem_cons_self, here⟩
          · rcases ih later with ⟨v, found, relation⟩
            exact ⟨v, List.mem_cons_of_mem _ found, relation⟩

omit [Field K] [IsStrictOrderedRing K] in
theorem mem_raised {x high : K} (member : (x, high) ∈ xs.zip upper)
    (pairedLower : xs.length = lower.length) (raises : side.Raises estimate x) :
    high ∈ raised side estimate xs lower upper := by
  induction xs generalizing lower upper with
  | nil => cases member
  | cons y xs ih =>
      cases lower with
      | nil => cases pairedLower
      | cons low lower =>
          cases upper with
          | nil => cases member
          | cons h upper =>
              rw [List.zip_cons_cons, List.mem_cons] at member
              rw [raised]
              rcases member with same | later
              · cases same
                rw [if_pos raises]
                exact List.mem_cons_self
              · exact List.mem_cons_of_mem _ (ih later (Nat.succ.inj pairedLower))

omit [LinearOrder K] [IsStrictOrderedRing K] in
/-- What the samples pull at a value, one by one. -/
theorem sum_pulls (side : End) (paired : xs.length = weights.length) (value : K) :
    ((xs.zip weights).map fun pair => side.sign * (pair.1 - value) * pair.2).sum =
      side.sign * (moment xs weights - value * weights.sum) := by
  induction xs generalizing weights with
  | nil =>
      cases weights with
      | nil => simp
      | cons _ _ => cases paired
  | cons x xs ih =>
      cases weights with
      | nil => cases paired
      | cons w weights =>
          rw [List.zip_cons_cons, List.map_cons, List.sum_cons, ih (Nat.succ.inj paired),
            moment_cons, List.sum_cons]
          ring

/-- If no sample with a weight lies further out than the mean, then they all lie at it. -/
theorem eq_mean_of_inner (paired : xs.length = weights.length) (nonneg : ∀ w ∈ weights, 0 ≤ w)
    (counts : weights.sum ≠ 0)
    (inner : ∀ x w, (x, w) ∈ xs.zip weights → 0 < w → 0 ≤ side.sign * (x - mean xs weights))
    {x w : K} (member : (x, w) ∈ xs.zip weights) (positive : 0 < w) : x = mean xs weights := by
  have balanced := sum_pulls side paired (mean xs weights)
  rw [← moment_eq_mean_mul counts, sub_self, mul_zero] at balanced
  have inward : ∀ pull ∈ (xs.zip weights).map fun pair =>
      side.sign * (pair.1 - mean xs weights) * pair.2, 0 ≤ pull := by
    simp only [List.forall_mem_map]
    intro pair member
    rcases (nonneg pair.2 (List.of_mem_zip member).2).eq_or_lt with zero | positive
    · rw [← zero, mul_zero]
    · exact mul_nonneg (inner pair.1 pair.2 member positive) positive.le
  have still := List.all_zero_of_le_zero_le_of_sum_eq_zero inward balanced
    (List.mem_map_of_mem member)
  rcases mul_eq_zero.mp ((mul_eq_zero.mp still).resolve_right positive.ne') with flat | level
  · cases side <;> simp [End.sign] at flat
  · exact sub_eq_zero.mp level

theorem Weighting.le_sum (weighting : Weighting lower upper weights) : lower.sum ≤ weights.sum :=
  List.Forall₂.sum_le_sum weighting.atLeast

/-- A search only starves where the lower weights do not count. -/
theorem End.Starves.light (starves : side.Starves xs lower upper)
    (outline : Outline xs lower upper) : lower.sum ≤ 1 / 2 ^ 52 := by
  rcases starves with ⟨_, _, light⟩
  exact (weighting_raised side _ outline.bounds outline.paired).le_sum.trans light

/-- No sample beyond the top has an upper weight, and no other sample than the top has a
lower one. -/
structure TopHeavy (xs lower upper : List K) (top : K) : Prop where
  highest : ∀ x w, (x, w) ∈ xs.zip upper → 0 < w → x ≤ top
  alone : ∀ x w, (x, w) ∈ xs.zip lower → 0 < w → x = top

/-- If every upper weight counts, then only the right end starves, and only at the top. -/
theorem End.Starves.topHeavy (starves : side.Starves xs lower upper)
    (outline : Outline xs lower upper) (area : HasArea lower upper)
    (thick : ∀ w ∈ upper, 0 < w → 1 / 2 ^ 52 < w) :
    side = .right ∧ ∃ top ∈ xs, TopHeavy xs lower upper top := by
  rcases starves with @⟨_, estimate, _, moves, light⟩
  have nonneg := (weighting_raised side estimate outline.bounds outline.paired).nonneg
    outline.nonneg
  have dropped (x w : K) (member : (x, w) ∈ xs.zip upper) (positive : 0 < w) :
      ¬side.Raises estimate x := by
    intro raises
    have part := List.single_le_sum nonneg _ (mem_raised member outline.pairedLower raises)
    exact (thick w (List.of_mem_zip member).2 positive).not_ge (part.trans light)
  rcases moves.isCentroid outline (outline.isCentroid_halfway area) with
    ⟨weights, weighting, heavy⟩
  have paired := outline.paired.trans weighting.length_eq.symm
  -- the estimate is a mean of samples on its inner side, so these lie at the estimate
  have inner (x w : K) (member : (x, w) ∈ xs.zip weights) (positive : 0 < w) :
      ¬side.Raises (mean xs weights) x := by
    rcases exists_mem_zip_of_forall₂ weighting.atMost member with ⟨high, above, most⟩
    exact dropped x high above (positive.trans_le most)
  have level {x w : K} (member : (x, w) ∈ xs.zip weights) (positive : 0 < w) :
      x = mean xs weights :=
    eq_mean_of_inner paired (weighting.nonneg outline.nonneg) (pos_of_heavy heavy).ne'
      (fun x w member positive =>
        (side.splits_self (mean xs weights) x).inner (inner x w member positive))
      member positive
  obtain ⟨⟨top, w⟩, member, positive⟩ : ∃ pair ∈ xs.zip weights, 0 < pair.2 := by
    apply List.exists_lt_of_sum_lt (fun _ => 0) Prod.snd
    simpa [List.map_snd_zip paired.ge] using pos_of_heavy heavy
  obtain rfl := level member positive
  cases side with
  | left => exact absurd le_rfl (inner _ w member positive)
  | right =>
      refine ⟨rfl, _, (List.of_mem_zip member).1, ?_, ?_⟩
      · exact fun x w above positive => not_lt.mp (dropped x w above positive)
      · intro x w below positive
        rcases exists_mem_zip_of_forall₂ weighting.atLeast below with ⟨v, found, least⟩
        exact level found (positive.trans_le least)

/-! ## Built systems -/

section Systems

variable [FloorSemiring K] [Exponential K]

namespace TypeTwo

/-- The joined output in numbers: sample points, lower heights and upper heights. -/
structure Outlines (system : TypeTwoSystem (Extended K))
    (activation : IntervalActivation (Extended K)) (xs lower upper : List K) : Prop
    extends Outline xs lower upper where
  samples : system.output.domain.samples = xs.map number
  lowerHeights : ((xs.map number).map (joined system activation)).map Interval.lower =
    lower.map number
  upperHeights : ((xs.map number).map (joined system activation)).map Interval.upper =
    upper.map number
  unit : ∀ w ∈ upper, w ≤ 1

variable {definition : TypeTwoDefinition (Extended K)} {system : TypeTwoSystem (Extended K)}

theorem exists_outlines (built : definition.build = .ok system)
    (activation : IntervalActivation (Extended K)) :
    ∃ xs lower upper, Outlines system activation xs lower upper := by
  have builds := Definition.builds_of_build built
  have valid : system.output.Valid := builds.output ▸ builds.validOutput
  rcases Domain.samples_ascending valid.domain with ⟨xs, samples, inhabited, ascending⟩
  choose low high heights nonneg ordered most using joined_between built activation
  refine ⟨xs, xs.map low, xs.map high, ⟨inhabited, ascending, (List.length_map _).symm, ?_, ?_⟩,
    samples, ?_, ?_, ?_⟩
  · rw [List.forall₂_map_left_iff, List.forall₂_map_right_iff, List.forall₂_same]
    exact fun x _ => ordered x
  · exact List.forall_mem_map.mpr fun x _ => nonneg x
  · simp only [List.map_map, Function.comp_def, heights]
  · simp only [List.map_map, Function.comp_def, heights]
  · exact List.forall_mem_map.mpr fun x _ => most x

/-- The interval is missed exactly if the joined output has no area or a search starves. -/
theorem Outlines.reduceType_error_iff {activation : IntervalActivation (Extended K)}
    {xs lower upper : List K} (outlines : Outlines system activation xs lower upper)
    {fault : FuzzyError (Extended K)} :
    reduceType system activation = .error fault ↔
      fault = .emptyOutput system.output.name ∧
        (¬HasArea lower upper ∨ ∃ side : End, side.Starves xs lower upper) := by
  rw [← karnikMendel?_eq_none_iff outlines.toOutline, reduceType]
  simp only [outlines.samples, outlines.lowerHeights, outlines.upperHeights]
  split
  · next found =>
    refine iff_of_false (fun failed => by cases failed) fun missing => ?_
    cases found.symm.trans missing.2
  · next missing => rw [Except.error.injEq, eq_comm, and_iff_left missing]

end TypeTwo

/-- Over ascending samples, type reduction finds an interval exactly if the set has an area
and neither search starves, which takes lower weights that do not count.  For a built
system that is what it means to report an empty output. -/
theorem interval_missed_iff :
    (∀ xs lower upper : List K, Outline xs lower upper →
      ((karnikMendel? (xs.map number) (lower.map number) (upper.map number) :
          Option (Extended K × Extended K)).isSome ↔
        HasArea lower upper ∧ ∀ side : End, ¬side.Starves xs lower upper) ∧
      ∀ side : End, side.Starves xs lower upper → HasArea lower upper →
        lower.sum ≤ 1 / 2 ^ 52 ∧
          ((∀ w ∈ upper, 0 < w → 1 / 2 ^ 52 < w) →
            side = .right ∧ ∃ top ∈ xs, TopHeavy xs lower upper top)) ∧
    ∀ (definition : TypeTwoDefinition (Extended K)) (system : TypeTwoSystem (Extended K)),
      definition.build = .ok system → ∀ activation : IntervalActivation (Extended K),
        ∃ xs lower upper, TypeTwo.Outlines system activation xs lower upper ∧
          ∀ fault, TypeTwo.reduceType system activation = .error fault ↔
            fault = .emptyOutput system.output.name ∧
              (¬HasArea lower upper ∨ ∃ side : End, side.Starves xs lower upper) := by
  constructor
  · intro xs lower upper outline
    refine ⟨?_, fun side starves area =>
      ⟨starves.light outline, starves.topHeavy outline area⟩⟩
    rw [Option.isSome_iff_ne_none, Ne, karnikMendel?_eq_none_iff outline, not_or, not_not,
      not_exists]
  · intro definition system built activation
    rcases TypeTwo.exists_outlines built activation with ⟨xs, lower, upper, outlines⟩
    exact ⟨xs, lower, upper, outlines, fun fault => outlines.reduceType_error_iff⟩

end Systems

/-- An output that is certain nowhere but between its two sample points. -/
def plateau : TypeTwoDefinition (Extended ℚ) :=
  let unit : Domain (Extended ℚ) := ⟨0, 1, 2⟩
  let full : Footprint (Extended ℚ) :=
    ⟨.triangular 0 (number (1 / 2)) 1, .trapezoidal 0 0 1 1⟩
  { inputs := [⟨"signal", unit, [⟨"ANY", full⟩]⟩]
    output := ⟨"trigger", unit, [⟨"YES", full⟩]⟩
    rules := [.ofPairs [("signal", "ANY")] "YES"] }

theorem interval_missed_iff_tent :
    let xs : List ℚ := [0, 1, 2]
    let lower : List ℚ := [0, 1 / 2, 0]
    let upper : List ℚ := [1 / 2, 1, 1 / 2]
    Outline xs lower upper ∧
      (karnikMendel? (xs.map number) (lower.map number) (upper.map number) :
        Option (Extended ℚ × Extended ℚ)).isSome ∧
      ∃ system, plateau.build = .ok system ∧
        ∃ xs lower upper, TypeTwo.Outlines system ⟨[1], [1]⟩ xs lower upper := by
  intro xs lower upper
  have outline : Outline xs lower upper :=
    ⟨by decide, by decide +kernel, rfl, by decide +kernel, by decide +kernel⟩
  have area : HasArea lower upper := ⟨by decide +kernel⟩
  have counts : ¬lower.sum ≤ 1 / 2 ^ 52 := by decide +kernel
  have reductions := interval_missed_iff (K := ℚ)
  have found := reductions.1 xs lower upper outline
  have builds : plateau.build.toOption.any (fun _ => true) = true := by decide +kernel
  rcases exists_of_any_toOption builds with ⟨system, built, _⟩
  rcases reductions.2 plateau system built ⟨[1], [1]⟩ with ⟨xs, lower, upper, outlines, _⟩
  exact ⟨outline, found.1.mpr ⟨area, fun side starves => counts (found.2 side starves area).1⟩,
    system, built, xs, lower, upper, outlines⟩

/-- Half way between the bounds every sample counts.  The search for the right end moves
from there to the last sample, and then only lower weights are left. -/
theorem plateau_starves :
    let xs : List ℚ := [0, 1]
    let lower : List ℚ := [0, 0]
    let upper : List ℚ := [1, 1]
    HasArea lower upper ∧
      (karnikMendel? (xs.map number) (lower.map number) (upper.map number) :
        Option (Extended ℚ × Extended ℚ)) = none ∧
      ∃ system, plateau.build = .ok system ∧
        TypeTwo.Outlines system ⟨[1], [1]⟩ xs lower upper ∧
        TypeTwo.reduceType system ⟨[1], [1]⟩ = .error (.emptyOutput system.output.name) := by
  intro xs lower upper
  have area : HasArea lower upper := ⟨by decide +kernel⟩
  have missed : (karnikMendel? (xs.map number) (lower.map number) (upper.map number) :
      Option (Extended ℚ × Extended ℚ)) = none := by decide +kernel
  have outline : Outline xs lower upper :=
    ⟨by decide, by decide +kernel, rfl, by decide +kernel, by decide +kernel⟩
  have drawn : plateau.build.toOption.any (fun system =>
      system.output.domain.samples = xs.map number ∧
      ((xs.map number).map (TypeTwo.joined system ⟨[1], [1]⟩)).map Interval.lower =
        lower.map number ∧
      ((xs.map number).map (TypeTwo.joined system ⟨[1], [1]⟩)).map Interval.upper =
        upper.map number) = true := by
    decide +kernel
  rcases exists_of_any_toOption drawn with ⟨system, built, drawn⟩
  rcases of_decide_eq_true drawn with ⟨samples, lowerHeights, upperHeights⟩
  have outlines : TypeTwo.Outlines system ⟨[1], [1]⟩ xs lower upper :=
    ⟨outline, samples, lowerHeights, upperHeights, by decide +kernel⟩
  exact ⟨area, missed, system, built, outlines,
    outlines.reduceType_error_iff.mpr ⟨rfl, (karnikMendel?_eq_none_iff outline).mp missed⟩⟩

end Handover.Fuzzy
