import Handover.Proofs.Fuzzy.Mean
import Mathlib.Data.List.Forall2

/-!
# Intervals of centroids

Type reduction looks for the least and the greatest mean of the samples under weights
between two bounds.  Its estimate moves outward from round to round: for each estimate
no admissible weights pull further than those that raise every sample beyond it to the
upper bound.  A round that raises the same samples as the one before changes nothing,
so the samples are an upper bound of the rounds.

The procedure stops as soon as the estimate moves by no more than a tolerance, and by
then a sample may still lie between the last two estimates.  Where none does, the result
is the end of the interval.  In general it misses the end by the tolerance times the
share of the upper weights, which is large next to weights that are nearly nothing.
-/

namespace Handover.Fuzzy

open Scalar Extended

/-! ## Directions -/

section Directions

variable {K : Type} [Field K] [LinearOrder K]

/-- Orients the line so that the end of the interval lies downward. -/
def End.sign : End → K
  | left => 1
  | right => -1

/-- At an estimate, a sample gets its upper weight. -/
def End.Raises (side : End) (estimate x : K) : Prop :=
  match side with
  | left => x ≤ estimate
  | right => estimate < x

instance (side : End) (estimate x : K) : Decidable (side.Raises estimate x) :=
  match side with
  | .left => inferInstanceAs (Decidable (x ≤ estimate))
  | .right => inferInstanceAs (Decidable (estimate < x))

/-- The samples that are raised at one estimate are those on the outer side of another
value, apart from samples at the value itself. -/
structure End.Splits (side : End) (estimate value x : K) : Prop where
  outer : side.Raises estimate x → side.sign * (x - value) ≤ 0
  inner : ¬side.Raises estimate x → 0 ≤ side.sign * (x - value)

/-- The weights that raise the samples beyond an estimate. -/
def raised (side : End) (estimate : K) : List K → List K → List K → List K
  | x :: xs, low :: lower, high :: upper =>
    (if side.Raises estimate x then high else low) :: raised side estimate xs lower upper
  | _, _, _ => []

/-- Weights between a lower and an upper bound. -/
structure Weighting (lower upper weights : List K) : Prop where
  atLeast : List.Forall₂ (· ≤ ·) lower weights
  atMost : List.Forall₂ (· ≤ ·) weights upper

/-- The mean of points under weights. -/
def mean (xs weights : List K) : K :=
  moment xs weights / weights.sum

end Directions

variable {K : Type} [Field K] [LinearOrder K] [IsStrictOrderedRing K]
  {side : End} {xs lower upper weights : List K} {estimate : K}

theorem End.splits_self (side : End) (estimate x : K) : side.Splits estimate estimate x := by
  cases side with
  | left =>
      refine ⟨fun outer => ?_, fun inner => ?_⟩
      · rw [sign, one_mul]
        exact sub_nonpos.mpr outer
      · rw [sign, one_mul]
        exact sub_nonneg.mpr (not_le.mp inner).le
  | right =>
      refine ⟨fun outer => ?_, fun inner => ?_⟩
      · rw [sign, neg_one_mul]
        exact neg_nonpos.mpr (sub_nonneg.mpr (le_of_lt outer))
      · rw [sign, neg_one_mul]
        exact neg_nonneg.mpr (sub_nonpos.mpr (not_lt.mp inner))

/-- Further out, fewer samples are raised. -/
theorem End.Raises.inward {next x : K} (raises : side.Raises next x)
    (outward : side.sign * next ≤ side.sign * estimate) : side.Raises estimate x := by
  cases side with
  | left =>
      rw [sign, one_mul, one_mul] at outward
      exact le_trans raises outward
  | right =>
      rw [sign, neg_one_mul, neg_one_mul, neg_le_neg_iff] at outward
      exact lt_of_le_of_lt outward raises

/-! ## Weights that raise the samples beyond an estimate -/

omit [Field K] [IsStrictOrderedRing K] in
theorem raised_congr {other : K} (same : ∀ x ∈ xs, side.Raises estimate x ↔ side.Raises other x)
    (lower upper : List K) :
    raised side estimate xs lower upper = raised side other xs lower upper := by
  induction xs generalizing lower upper with
  | nil => rfl
  | cons x xs ih =>
      rw [List.forall_mem_cons] at same
      cases lower with
      | nil => rfl
      | cons low lower =>
          cases upper with
          | nil => rfl
          | cons high upper => simp only [raised, same.1, ih same.2]

omit [Field K] [IsStrictOrderedRing K] in
/-- Raising samples keeps the weights between the bounds. -/
theorem weighting_raised (side : End) (estimate : K) (bounds : List.Forall₂ (· ≤ ·) lower upper)
    (paired : xs.length = upper.length) :
    Weighting lower upper (raised side estimate xs lower upper) := by
  induction bounds generalizing xs with
  | nil =>
      cases xs with
      | nil => exact ⟨.nil, .nil⟩
      | cons _ _ => cases paired
  | @cons low high lower upper le _ ih =>
      cases xs with
      | nil => cases paired
      | cons x xs =>
          have others := ih (Nat.succ.inj paired)
          rw [raised]
          split
          · exact ⟨.cons le others.atLeast, .cons le_rfl others.atMost⟩
          · exact ⟨.cons le_rfl others.atLeast, .cons le others.atMost⟩

/-- Seen from a value that splits the samples as the estimate does, no admissible weights
pull further out than the raised ones. -/
theorem raised_outermost {value : K} (weighting : Weighting lower upper weights)
    (paired : xs.length = weights.length) (splits : ∀ x ∈ xs, side.Splits estimate value x) :
    side.sign * (moment xs (raised side estimate xs lower upper) -
        value * (raised side estimate xs lower upper).sum) ≤
      side.sign * (moment xs weights - value * weights.sum) := by
  obtain ⟨atLeast, atMost⟩ := weighting
  induction atLeast generalizing xs upper with
  | nil =>
      cases atMost
      cases xs with
      | nil => simp [raised]
      | cons _ _ => cases paired
  | @cons low w lower weights least _ ih =>
      cases atMost with
      | @cons _ high _ upper most others =>
          cases xs with
          | nil => cases paired
          | cons x xs =>
              rw [List.forall_mem_cons] at splits
              have rest := ih (Nat.succ.inj paired) splits.2 others
              rw [raised, moment_cons, moment_cons, List.sum_cons, List.sum_cons]
              split
              · next outer =>
                have pull := mul_le_mul_of_nonpos_left most (splits.1.outer outer)
                linarith
              · next inner =>
                have pull := mul_le_mul_of_nonneg_left least (splits.1.inner inner)
                linarith

/-! ## Switch points -/

section SwitchPoints

variable {α β : Type}

theorem lastIndex?_map (change : α → β) (test : β → Bool) (xs : List α) :
    lastIndex? test (xs.map change) = lastIndex? (fun x => test (change x)) xs := by
  induction xs with
  | nil => rfl
  | cons x rest ih => rw [List.map_cons, lastIndex?, lastIndex?, ih]

theorem not_of_lastIndex?_eq_none {test : α → Bool} {xs : List α}
    (missing : lastIndex? test xs = none) : ∀ x ∈ xs, test x = false := by
  induction xs with
  | nil => nofun
  | cons x rest ih =>
      rw [lastIndex?] at missing
      split at missing
      · cases missing
      · next later =>
        rw [ite_eq_right_iff] at missing
        exact List.forall_mem_cons.mpr ⟨by simpa using missing, ih later⟩

theorem exists_of_lastIndex?_eq_some {test : α → Bool} {xs : List α} {index : Nat}
    (found : lastIndex? test xs = some index) : ∃ x ∈ xs, test x := by
  by_contra! failing
  induction xs generalizing index with
  | nil => cases found
  | cons x rest ih =>
      rw [List.forall_mem_cons] at failing
      rw [lastIndex?, if_neg failing.1] at found
      split at found
      · next later => exact ih later failing.2
      · cases found

end SwitchPoints

omit [Field K] [IsStrictOrderedRing K] in
/-- Beyond every sample, the weights of either end are those of one bound. -/
theorem raised_below (below : ∀ x ∈ xs, estimate < x) (pairedLower : xs.length = lower.length)
    (pairedUpper : xs.length = upper.length) :
    raised side estimate xs lower upper = match side with | .left => lower | .right => upper := by
  induction xs generalizing lower upper with
  | nil =>
      rw [List.length_nil, eq_comm, List.length_eq_zero_iff] at pairedLower pairedUpper
      subst pairedLower pairedUpper
      cases side <;> rfl
  | cons x xs ih =>
      cases lower with
      | nil => cases pairedLower
      | cons low lower =>
          cases upper with
          | nil => cases pairedUpper
          | cons high upper =>
              rw [List.forall_mem_cons] at below
              rw [raised, ih below.2 (Nat.succ.inj pairedLower) (Nat.succ.inj pairedUpper)]
              cases side with
              | left => exact congrArg (· :: lower) (if_neg below.1.not_ge)
              | right => exact congrArg (· :: upper) (if_pos below.1)

omit [Field K] [IsStrictOrderedRing K] in
/-- Over ascending samples, switching after the last one not beyond the estimate raises
the samples beyond it. -/
theorem switchedWeights_eq_raised (side : End) (ascending : xs.Pairwise (· < ·)) {index : Nat}
    (found : lastIndex? (fun x => x ≤ estimate) xs = some index)
    (pairedLower : xs.length = lower.length) (pairedUpper : xs.length = upper.length) :
    switchedWeights side lower upper index = raised side estimate xs lower upper := by
  induction xs generalizing lower upper index with
  | nil => cases found
  | cons x xs ih =>
      cases lower with
      | nil => cases pairedLower
      | cons low lower =>
          cases upper with
          | nil => cases pairedUpper
          | cons high upper =>
              have pairedLower := Nat.succ.inj pairedLower
              have pairedUpper := Nat.succ.inj pairedUpper
              rw [List.pairwise_cons] at ascending
              rw [lastIndex?] at found
              split at found
              · next later foundLater =>
                cases found
                rcases exists_of_lastIndex?_eq_some foundLater with ⟨y, member, reached⟩
                have first : x ≤ estimate :=
                  (ascending.1 y member).le.trans (of_decide_eq_true reached)
                rw [raised, ← ih ascending.2 foundLater pairedLower pairedUpper]
                cases side with
                | left => exact congrArg (· :: _) (if_pos first).symm
                | right => exact congrArg (· :: _) (if_neg first.not_gt).symm
              · next missing =>
                split at found
                · next first =>
                  cases found
                  have first := of_decide_eq_true first
                  have below : ∀ y ∈ xs, estimate < y := fun y member =>
                    not_le.mp (of_decide_eq_false (not_of_lastIndex?_eq_none missing y member))
                  rw [raised, raised_below below pairedLower pairedUpper]
                  cases side with
                  | left => exact congrArg (· :: lower) (if_pos first).symm
                  | right => exact congrArg (· :: upper) (if_neg first.not_gt).symm
                · cases found

/-! ## Rounds -/

omit [LinearOrder K] [IsStrictOrderedRing K] in
theorem moment_eq_mean_mul (counts : weights.sum ≠ 0) :
    moment xs weights = mean xs weights * weights.sum :=
  (div_mul_cancel₀ _ counts).symm

/-- The value is a mean under admissible weights that count. -/
inductive IsCentroid (xs lower upper : List K) : K → Prop
  | of_weights (weights : List K) (weighting : Weighting lower upper weights)
      (heavy : 1 / 2 ^ 52 < weights.sum) : IsCentroid xs lower upper (mean xs weights)

omit [Field K] [IsStrictOrderedRing K] in
theorem Weighting.length_eq (weighting : Weighting lower upper weights) :
    weights.length = upper.length :=
  weighting.atMost.length_eq

omit [IsStrictOrderedRing K] in
theorem Weighting.nonneg (weighting : Weighting lower upper weights) (nonneg : ∀ w ∈ lower, 0 ≤ w) :
    ∀ w ∈ weights, 0 ≤ w := by
  have atLeast := weighting.atLeast
  clear weighting
  induction atLeast with
  | nil => nofun
  | cons least _ ih =>
      rw [List.forall_mem_cons] at nonneg
      exact List.forall_mem_cons.mpr ⟨nonneg.1.trans least, ih nonneg.2⟩

/-- The mean under the weights raised at a centroid lies further out. -/
theorem IsCentroid.outward {value : K} (centroid : IsCentroid xs lower upper value) (side : End)
    (paired : xs.length = upper.length)
    (counts : 0 < (raised side value xs lower upper).sum) :
    side.sign * mean xs (raised side value xs lower upper) ≤ side.sign * value := by
  rcases centroid with ⟨weights, weighting, heavy⟩
  have outermost := raised_outermost weighting (paired.trans weighting.length_eq.symm)
    (fun x _ => side.splits_self (mean xs weights) x)
  rw [moment_eq_mean_mul (pos_of_heavy heavy).ne', moment_eq_mean_mul counts.ne', sub_self,
    mul_zero, ← sub_mul, ← mul_assoc] at outermost
  have := nonpos_of_mul_nonpos_left outermost counts
  linarith

section Rounds

variable [FloorSemiring K] [Exponential K]

omit [IsStrictOrderedRing K] in
theorem stillness_def : (stillness : Extended K) = number (1 / 10 ^ 12) := by
  rw [stillness, ofDecimal_def, Int.cast_one]

variable {first : K} {rest : List K}

omit [IsStrictOrderedRing K] in
/-- From the first sample on, switching at an estimate raises the samples beyond it. -/
theorem switchedWeights_switchIndex (side : End) (ascending : (first :: rest).Pairwise (· < ·))
    (pairedLower : (first :: rest).length = lower.length)
    (pairedUpper : (first :: rest).length = upper.length) (reached : first ≤ estimate) :
    switchedWeights side lower upper
        (switchIndex ((first :: rest).map number) (number estimate : Extended K)) =
      raised side estimate (first :: rest) lower upper := by
  have found : ∃ index, lastIndex? (fun x => x ≤ estimate) (first :: rest) = some index := by
    rw [← Option.isSome_iff_exists, Option.isSome_iff_ne_none]
    intro missing
    have := not_of_lastIndex?_eq_none missing first List.mem_cons_self
    exact of_decide_eq_false this reached
  rcases found with ⟨index, found⟩
  have switch :
      switchIndex ((first :: rest).map number) (number estimate : Extended K) = index := by
    simp only [switchIndex, lastIndex?_map, number_le, found, Option.getD_some]
  rw [switch, switchedWeights_eq_raised side ascending found pairedLower pairedUpper]

/-- A round takes the mean under the weights raised at the estimate. -/
theorem weightedMean?_switched (ascending : (first :: rest).Pairwise (· < ·))
    (pairedLower : (first :: rest).length = lower.length)
    (pairedUpper : (first :: rest).length = upper.length) (reached : first ≤ estimate)
    {next : Extended K} :
    weightedMean? ((first :: rest).map number)
        (switchedWeights side (lower.map number) (upper.map number)
          (switchIndex ((first :: rest).map number) (number estimate : Extended K))) = some next ↔
      1 / 2 ^ 52 < (raised side estimate (first :: rest) lower upper).sum ∧
        next =
          number (mean (first :: rest) (raised side estimate (first :: rest) lower upper)) := by
  have equal := switchedWeights_switchIndex side ascending pairedLower pairedUpper reached
  have length := length_switchedWeights side (pairedLower.symm.trans pairedUpper)
    (switchIndex ((first :: rest).map number) (number estimate : Extended K))
  rw [switchedWeights_map, equal]
  rw [equal] at length
  exact weightedMean?_eq_some (pairedUpper.trans length.symm)

/-- The next estimate is the mean under the weights raised at the one before it. -/
structure End.Turn (side : End) (xs lower upper : List K) (before next : K) : Prop where
  heavy : 1 / 2 ^ 52 < (raised side before xs lower upper).sum
  mean_eq : mean xs (raised side before xs lower upper) = next
  outward : side.sign * next ≤ side.sign * before

omit [FloorSemiring K] [Exponential K] in
/-- As long as the total counts, the weights raised at a mean turn it. -/
theorem IsCentroid.turn {before : K} (centroid : IsCentroid xs lower upper before) (side : End)
    (paired : xs.length = upper.length)
    (heavy : 1 / 2 ^ 52 < (raised side before xs lower upper).sum) :
    side.Turn xs lower upper before (mean xs (raised side before xs lower upper)) :=
  ⟨heavy, rfl, centroid.outward side paired (pos_of_heavy heavy)⟩

/-- A turn within the tolerance. -/
structure End.Settled (side : End) (xs lower upper : List K) (before value : K) : Prop
    extends side.Turn xs lower upper before value where
  still : side.sign * before ≤ side.sign * value + 1 / 10 ^ 12

omit [FloorSemiring K] [Exponential K] in
theorem End.abs_sub_of_outward {next : K} (outward : side.sign * next ≤ side.sign * estimate) :
    |next - estimate| = side.sign * estimate - side.sign * next := by
  cases side with
  | left =>
      simp only [sign, one_mul] at outward ⊢
      rw [abs_of_nonpos (sub_nonpos.mpr outward), neg_sub]
  | right =>
      simp only [sign, neg_one_mul, neg_le_neg_iff] at outward ⊢
      rw [abs_of_nonneg (sub_nonneg.mpr outward), neg_sub_neg]

omit [FloorSemiring K] [Exponential K] in
/-- An estimate further out that raises no fewer samples raises the same ones. -/
theorem raises_iff_of_countP {next : K} (outward : side.sign * next ≤ side.sign * estimate)
    (many : xs.countP (side.Raises estimate) ≤ xs.countP (side.Raises next)) :
    ∀ x ∈ xs, side.Raises next x ↔ side.Raises estimate x := by
  have sublist : (xs.filter (side.Raises next)).Sublist (xs.filter (side.Raises estimate)) :=
    List.monotone_filter_right xs fun x raises =>
      decide_eq_true (End.Raises.inward (of_decide_eq_true raises) outward)
  rw [List.countP_eq_length_filter, List.countP_eq_length_filter] at many
  have same := sublist.eq_of_length_le many
  refine fun x member => ⟨fun raises => raises.inward outward, fun raises => ?_⟩
  have kept : x ∈ xs.filter (side.Raises estimate) :=
    List.mem_filter.mpr ⟨member, decide_eq_true raises⟩
  rw [← same, List.mem_filter] at kept
  exact of_decide_eq_true kept.2

omit [FloorSemiring K] [Exponential K] [IsStrictOrderedRing K] [Field K] in
theorem End.raises_reached (side : End) (reached : first ≤ estimate) :
    side.Raises estimate first ↔ side = .left := by
  cases side with
  | left => exact iff_of_true reached rfl
  | right => exact iff_of_false reached.not_gt nofun

omit [FloorSemiring K] [Exponential K] in
theorem IsCentroid.first_le (ascending : (first :: rest).Pairwise (· < ·))
    (nonneg : ∀ w ∈ lower, 0 ≤ w) (paired : (first :: rest).length = upper.length) {value : K}
    (centroid : IsCentroid (first :: rest) lower upper value) : first ≤ value := by
  rcases centroid with ⟨weights, weighting, heavy⟩
  have least : ∀ x ∈ first :: rest, first ≤ x :=
    List.forall_mem_cons.mpr
      ⟨le_rfl, fun x member => (List.rel_of_pairwise_cons ascending member).le⟩
  obtain ⟨high, most⟩ := (List.finite_toSet (first :: rest)).bddAbove
  have between := moment_between (paired.trans weighting.length_eq.symm)
    (fun x member => ⟨least x member, most member⟩) (weighting.nonneg nonneg)
  exact (le_div_iff₀ (pos_of_heavy heavy)).mpr between.1

/-- A round fails if the total does not count, and is the last one if the estimate stands
still. -/
theorem followEstimate_round (ascending : (first :: rest).Pairwise (· < ·))
    (bounds : List.Forall₂ (· ≤ ·) lower upper) (nonneg : ∀ w ∈ lower, 0 ≤ w)
    (paired : (first :: rest).length = upper.length)
    (centroid : IsCentroid (first :: rest) lower upper estimate) (rounds : Nat) :
    let weights := raised side estimate (first :: rest) lower upper
    let next := mean (first :: rest) weights
    followEstimate side ((first :: rest).map number) (lower.map number) (upper.map number)
        (rounds + 1) (number estimate : Extended K) =
      if 1 / 2 ^ 52 < weights.sum then
        if side.sign * estimate ≤ side.sign * next + 1 / 10 ^ 12 then some (number next)
        else followEstimate side ((first :: rest).map number) (lower.map number)
          (upper.map number) rounds (number next)
      else none := by
  intro weights next
  have pairedLower := paired.trans bounds.length_eq.symm
  have reached := centroid.first_le ascending nonneg paired
  rw [followEstimate]
  by_cases heavy : 1 / 2 ^ 52 < weights.sum
  · have outward := centroid.outward side paired (pos_of_heavy heavy)
    rw [(weightedMean?_switched ascending pairedLower paired reached).mpr ⟨heavy, rfl⟩,
      if_pos heavy]
    simp only [number_sub, magnitude_number, End.abs_sub_of_outward outward, stillness_def,
      number_le, sub_le_iff_le_add', next, weights]
  · rw [if_neg heavy, Option.eq_none_iff_forall_ne_some.mpr fun _ found =>
      heavy ((weightedMean?_switched ascending pairedLower paired reached).mp found).1]

/-- A round turns the estimate, and is the last one if the estimate stands still. -/
theorem followEstimate_succ (ascending : (first :: rest).Pairwise (· < ·))
    (bounds : List.Forall₂ (· ≤ ·) lower upper) (nonneg : ∀ w ∈ lower, 0 ≤ w)
    (paired : (first :: rest).length = upper.length)
    (centroid : IsCentroid (first :: rest) lower upper estimate) {rounds : Nat}
    {last : Extended K}
    (followed : followEstimate side ((first :: rest).map number) (lower.map number)
      (upper.map number) (rounds + 1) (number estimate) = some last) :
    ∃ next, side.Turn (first :: rest) lower upper estimate next ∧
      (side.sign * estimate ≤ side.sign * next + 1 / 10 ^ 12 ∧ last = number next ∨
        ¬side.sign * estimate ≤ side.sign * next + 1 / 10 ^ 12 ∧
          followEstimate side ((first :: rest).map number) (lower.map number)
            (upper.map number) rounds (number next) = some last) := by
  rw [followEstimate_round ascending bounds nonneg paired centroid] at followed
  split_ifs at followed with heavy still
  · exact ⟨_, centroid.turn side paired heavy, .inl ⟨still, (Option.some.inj followed).symm⟩⟩
  · exact ⟨_, centroid.turn side paired heavy, .inr ⟨still, followed⟩⟩

omit [IsStrictOrderedRing K] [FloorSemiring K] [Exponential K] in
theorem End.Turn.isCentroid {next : K} (turn : side.Turn xs lower upper estimate next)
    (bounds : List.Forall₂ (· ≤ ·) lower upper) (paired : xs.length = upper.length) :
    IsCentroid xs lower upper next :=
  turn.mean_eq ▸ .of_weights _ (weighting_raised side estimate bounds paired) turn.heavy

/-- A run with a round for each sample settles, further out than it starts. -/
theorem followEstimate_settles (ascending : (first :: rest).Pairwise (· < ·))
    (bounds : List.Forall₂ (· ≤ ·) lower upper) (nonneg : ∀ w ∈ lower, 0 ≤ w)
    (paired : (first :: rest).length = upper.length) {rounds : Nat}
    (centroid : IsCentroid (first :: rest) lower upper estimate)
    (enough : rest.countP (side.Raises estimate) + 1 < rounds) {last : Extended K}
    (followed : followEstimate side ((first :: rest).map number) (lower.map number)
      (upper.map number) rounds (number estimate) = some last) :
    ∃ before value, last = number value ∧
      side.Settled (first :: rest) lower upper before value ∧
      side.sign * value ≤ side.sign * estimate := by
  induction rounds generalizing estimate with
  | zero => cases enough
  | succ rounds ih =>
      rcases followEstimate_succ ascending bounds nonneg paired centroid followed with
        ⟨next, turn, ⟨still, rfl⟩ | ⟨_, followed⟩⟩
      · exact ⟨estimate, next, rfl, ⟨turn, still⟩, turn.outward⟩
      have closer := turn.isCentroid bounds paired
      rcases lt_or_ge (rest.countP (side.Raises next)) (rest.countP (side.Raises estimate))
        with fewer | many
      · rcases ih closer (by omega) followed with ⟨before, value, rfl, settled, further⟩
        exact ⟨before, value, rfl, settled, further.trans turn.outward⟩
      -- nothing was left to switch, so the next round changes nothing
      have reached (value : K) (centroid : IsCentroid (first :: rest) lower upper value) :=
        side.raises_reached (centroid.first_le ascending nonneg paired)
      have same : ∀ x ∈ first :: rest, side.Raises next x ↔ side.Raises estimate x :=
        List.forall_mem_cons.mpr ⟨(reached next closer).trans (reached estimate centroid).symm,
          raises_iff_of_countP turn.outward many⟩
      have weights := raised_congr same lower upper
      have positive : (0 : K) ≤ 1 / 10 ^ 12 := by positivity
      obtain ⟨more, rfl⟩ : ∃ more, rounds = more + 1 := ⟨rounds - 1, by omega⟩
      rcases followEstimate_succ ascending bounds nonneg paired closer followed with
        ⟨value, again, resting⟩
      obtain rfl : next = value := by rw [← again.mean_eq, weights, turn.mean_eq]
      rcases resting with ⟨still, rfl⟩ | ⟨moving, _⟩
      · exact ⟨next, next, rfl, ⟨again, still⟩, turn.outward⟩
      · exact absurd (le_add_of_nonneg_right positive) moving

end Rounds

/-! ## Distance to the end of the interval -/

theorem Weighting.sum_le (weighting : Weighting lower upper weights) : weights.sum ≤ upper.sum :=
  List.Forall₂.sum_le_sum weighting.atMost

/-- A settled estimate misses no admissible mean by more than the tolerance times the
share of the other upper weights. -/
theorem End.Settled.near {before value : K} (settled : side.Settled xs lower upper before value)
    (bounds : List.Forall₂ (· ≤ ·) lower upper) (paired : xs.length = upper.length)
    (weighting : Weighting lower upper weights) (counts : 0 < weights.sum) :
    side.sign * value - side.sign * mean xs weights ≤
      1 / 10 ^ 12 * (upper.sum / weights.sum - 1) := by
  have heavy := pos_of_heavy settled.heavy
  have outermost := raised_outermost weighting (paired.trans weighting.length_eq.symm)
    (fun x _ => side.splits_self before x)
  rw [moment_eq_mean_mul heavy.ne', moment_eq_mean_mul counts.ne', settled.mean_eq] at outermost
  have most := (weighting_raised side before bounds paired).sum_le
  have behind : 0 ≤ side.sign * before - side.sign * value := sub_nonneg.mpr settled.outward
  have pull : (side.sign * value - side.sign * mean xs weights) * weights.sum ≤
      1 / 10 ^ 12 * (upper.sum - weights.sum) :=
    calc (side.sign * value - side.sign * mean xs weights) * weights.sum
        ≤ (side.sign * before - side.sign * value) *
            ((raised side before xs lower upper).sum - weights.sum) := by linarith
      _ ≤ (side.sign * before - side.sign * value) * (upper.sum - weights.sum) :=
          mul_le_mul_of_nonneg_left (sub_le_sub_right most _) behind
      _ ≤ 1 / 10 ^ 12 * (upper.sum - weights.sum) :=
          mul_le_mul_of_nonneg_right (sub_le_iff_le_add'.mpr settled.still)
            (sub_nonneg.mpr weighting.sum_le)
  rwa [div_sub_one counts.ne', ← mul_div_assoc, le_div_iff₀ counts]

/-- Where no sample lies just inside of a settled estimate, no admissible mean lies further
out. -/
theorem End.Settled.exact {before value : K} (settled : side.Settled xs lower upper before value)
    (paired : xs.length = upper.length)
    (apart : ∀ x ∈ xs, side.sign * value < side.sign * x →
      side.sign * value + 1 / 10 ^ 12 < side.sign * x)
    (weighting : Weighting lower upper weights) (counts : 0 < weights.sum) :
    side.sign * value ≤ side.sign * mean xs weights := by
  have heavy := pos_of_heavy settled.heavy
  have splits (x : K) (member : x ∈ xs) : side.Splits before value x := by
    refine ⟨fun outer => ?_, fun inner => ?_⟩
    · have reached := (side.splits_self before x).outer outer
      by_contra! beyond
      linarith [apart x member (by linarith), settled.still]
    · linarith [(side.splits_self before x).inner inner, settled.outward]
  have outermost := raised_outermost weighting (paired.trans weighting.length_eq.symm) splits
  rw [moment_eq_mean_mul heavy.ne', moment_eq_mean_mul counts.ne', settled.mean_eq, sub_self,
    mul_zero, ← sub_mul, ← mul_assoc, mul_sub] at outermost
  have := nonneg_of_mul_nonneg_left outermost counts
  linarith

/-- What type reduction finds of an end of the interval: a centroid that none passes by
more than the tolerance times the share of the other upper weights, and none at all where
no sample lies just inside of it. -/
structure End.Found (side : End) (xs lower upper : List K) (value : K) : Prop where
  isCentroid : IsCentroid xs lower upper value
  near : ∀ {weights}, Weighting lower upper weights → 0 < weights.sum →
    side.sign * value - side.sign * mean xs weights ≤
      1 / 10 ^ 12 * (upper.sum / weights.sum - 1)
  exact : (∀ x ∈ xs, side.sign * value < side.sign * x →
      side.sign * value + 1 / 10 ^ 12 < side.sign * x) →
    ∀ {weights}, Weighting lower upper weights → 0 < weights.sum →
      side.sign * value ≤ side.sign * mean xs weights

theorem weighting_halfway (bounds : List.Forall₂ (· ≤ ·) lower upper) :
    Weighting lower upper (halfway lower upper) := by
  induction bounds with
  | nil => exact ⟨.nil, .nil⟩
  | @cons low high _ _ le _ ih =>
      have above : low ≤ (low + high) / 2 := by linarith
      have below : (low + high) / 2 ≤ high := by linarith
      exact ⟨.cons above ih.atLeast, .cons below ih.atMost⟩

section Interval

variable [FloorSemiring K] [Exponential K]

theorem centroidEnd?_found (few : xs.length < 1000) (ascending : xs.Pairwise (· < ·))
    (bounds : List.Forall₂ (· ≤ ·) lower upper) (nonneg : ∀ w ∈ lower, 0 ≤ w)
    (paired : xs.length = upper.length) (inhabited : xs ≠ []) {last : Extended K}
    (found : centroidEnd? side (xs.map number) (lower.map number) (upper.map number) =
      some last) :
    ∃ value, last = number value ∧ side.Found xs lower upper value ∧
      side.sign * value ≤ side.sign * mean xs (halfway lower upper) := by
  obtain ⟨first, rest, rfl⟩ := List.exists_cons_of_ne_nil inhabited
  rw [centroidEnd?, middleWeights_number] at found
  split at found
  · cases found
  next balanced =>
  rcases (weightedMean?_eq_some
    (paired.trans (length_halfway bounds.length_eq).symm)).mp balanced with ⟨heavy, rfl⟩
  have enough : rest.countP (side.Raises (mean (first :: rest) (halfway lower upper))) + 1 <
      roundLimit :=
    (Nat.succ_le_succ (Nat.succ_le_succ List.countP_le_length)).trans few
  rcases followEstimate_settles ascending bounds nonneg paired
      (.of_weights _ (weighting_halfway bounds) heavy) enough found with
    ⟨before, value, rfl, settled, outward⟩
  exact ⟨value, rfl, ⟨settled.isCentroid bounds paired, settled.near bounds paired,
    fun apart => settled.exact paired apart⟩, outward⟩

/-- Type reduction of fewer than a thousand ascending samples finds the interval of
centroids as far as its tolerance lets it. -/
theorem interval_of_centroids_found (few : xs.length < 1000) (ascending : xs.Pairwise (· < ·))
    (bounds : List.Forall₂ (· ≤ ·) lower upper) (nonneg : ∀ w ∈ lower, 0 ≤ w)
    {left right : Extended K}
    (reduced : karnikMendel? (xs.map number) (lower.map number) (upper.map number) =
      some (left, right)) :
    ∃ l r, left = number l ∧ right = number r ∧ l ≤ r ∧
      End.left.Found xs lower upper l ∧ End.right.Found xs lower upper r := by
  rw [karnikMendel?] at reduced
  split at reduced
  · cases reduced
  next wellFormed =>
  simp only [List.isEmpty_iff, List.map_eq_nil_iff, List.length_map, not_or, not_not] at wellFormed
  split at reduced
  · next foundLeft foundRight =>
    cases reduced
    rcases centroidEnd?_found few ascending bounds nonneg wellFormed.2.2 wellFormed.1 foundLeft
      with ⟨l, rfl, leftmost, below⟩
    rcases centroidEnd?_found few ascending bounds nonneg wellFormed.2.2 wellFormed.1 foundRight
      with ⟨r, rfl, rightmost, above⟩
    simp only [End.sign, one_mul, neg_one_mul, neg_le_neg_iff] at below above
    have ordered := below.trans above
    rw [lesser_number, greater_number, min_eq_left ordered, max_eq_right ordered]
    exact ⟨l, r, rfl, rfl, ordered, leftmost, rightmost⟩
  · cases reduced

end Interval

theorem interval_of_centroids_found_tent :
    let xs : List ℚ := [0, 1, 2]
    let lower : List ℚ := [1 / 2, 1 / 4, 1 / 2]
    let upper : List ℚ := [1, 1 / 2, 1]
    xs.length < 1000 ∧ xs.Pairwise (· < ·) ∧ List.Forall₂ (· ≤ ·) lower upper ∧
      (∀ w ∈ lower, 0 ≤ w) ∧
      karnikMendel? (xs.map number) (lower.map number) (upper.map number) =
        some (number (5 / 7), number (9 / 7)) ∧
      ∃ l r, number (5 / 7) = number l ∧ number (9 / 7) = number r ∧ l ≤ r ∧
        End.left.Found xs lower upper l ∧ End.right.Found xs lower upper r := by
  intro xs lower upper
  have few : xs.length < 1000 := by decide
  have ascending : xs.Pairwise (· < ·) := by decide +kernel
  have bounds : List.Forall₂ (· ≤ ·) lower upper := by decide +kernel
  have nonneg : ∀ w ∈ lower, 0 ≤ w := by decide +kernel
  have reduced : karnikMendel? (xs.map number) (lower.map number) (upper.map number) =
      some (number (5 / 7), number (9 / 7)) := by decide +kernel
  exact ⟨few, ascending, bounds, nonneg, reduced,
    interval_of_centroids_found few ascending bounds nonneg reduced⟩

/-- The estimate stands still next to a sample that is not switched yet, and the first
sample alone has a mean far below it. -/
theorem early_rest_misses_end :
    let xs : List ℚ := [0, 1, 2]
    let lower : List ℚ := [1 / 10 ^ 13, 0, 0]
    let upper : List ℚ := [1 / 10 ^ 13, 1, 4 / 10 ^ 13]
    xs.length < 1000 ∧ xs.Pairwise (· < ·) ∧ List.Forall₂ (· ≤ ·) lower upper ∧
      (∀ w ∈ lower, 0 ≤ w) ∧ (∀ w ∈ upper, w ≤ 1) ∧
      ∃ l r, karnikMendel? (xs.map number) (lower.map number) (upper.map number) =
          some (number l, number r) ∧
        ∃ weights, Weighting lower upper weights ∧ 1 / 2 ^ 52 < weights.sum ∧
          mean xs weights < l - 1 / 10 ^ 12 := by
  refine ⟨by decide, by decide +kernel, by decide +kernel, by decide +kernel, by decide +kernel,
    10 ^ 13 / (10 ^ 13 + 1), 8 / 5, by decide +kernel, [1 / 10 ^ 13, 0, 0],
    ⟨by decide +kernel, by decide +kernel⟩, by decide +kernel, by decide +kernel⟩

end Handover.Fuzzy
