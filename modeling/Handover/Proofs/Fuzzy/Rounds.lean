import Handover.Proofs.Fuzzy.Area
import Handover.Proofs.Numeric.Extremum

/-!
# Rounds of type reduction

As long as every total counts, the estimate of a search moves outward from round to round,
and the switch point moves along with it.  If the switch point stays, then the next round
tries the same weights again, the estimate stands still and the search rests.  The switch
point has no more places than there are samples, so the search rests within one round more,
and with fewer than a thousand samples it is never cut off.
-/

namespace Handover.Fuzzy

open Scalar Extended

/-! ## Switch points -/

section SwitchPoints

variable {α : Type}

theorem lastIndex?_lt {test : α → Bool} {xs : List α} {index : Nat}
    (found : lastIndex? test xs = some index) : index < xs.length := by
  induction xs generalizing index with
  | nil => cases found
  | cons x rest ih =>
      rw [lastIndex?] at found
      split at found
      · next later foundLater =>
        cases found
        exact Nat.succ_lt_succ (ih foundLater)
      · split at found
        · cases found
          exact Nat.succ_pos _
        · cases found

/-- A weaker test is passed at least as far. -/
theorem lastIndex?_mono {test weaker : α → Bool} (implies : ∀ x, test x → weaker x)
    {xs : List α} {index : Nat} (found : lastIndex? test xs = some index) :
    ∃ further, lastIndex? weaker xs = some further ∧ index ≤ further := by
  induction xs generalizing index with
  | nil => cases found
  | cons x rest ih =>
      rw [lastIndex?] at found ⊢
      split at found
      · next later foundLater =>
        cases found
        obtain ⟨further, reached, le⟩ := ih foundLater
        exact ⟨further + 1, by rw [reached], Nat.succ_le_succ le⟩
      · split at found
        · next passed =>
          cases found
          cases lastIndex? weaker rest with
          | some further => exact ⟨further + 1, rfl, Nat.zero_le _⟩
          | none => exact ⟨0, if_pos (implies x passed), le_rfl⟩
        · cases found

variable [Scalar α]

theorem switchIndex_lt {xs : List α} (inhabited : xs ≠ []) (estimate : α) :
    switchIndex xs estimate < xs.length := by
  rw [switchIndex]
  cases found : lastIndex? (fun x => x ≤ estimate) xs with
  | none => exact List.length_pos_iff.mpr inhabited
  | some index => exact lastIndex?_lt found

/-- The switch point moves along with the estimate. -/
theorem switchIndex_mono [LawfulOrder α] (xs : List α) {estimate next : α}
    (le : estimate ≤ next) : switchIndex xs estimate ≤ switchIndex xs next := by
  rw [switchIndex, switchIndex]
  cases found : lastIndex? (fun x => x ≤ estimate) xs with
  | none => exact Nat.zero_le _
  | some index =>
      have implies (x : α) (below : decide (x ≤ estimate) = true) : decide (x ≤ next) = true :=
        decide_eq_true (LawfulOrder.le_trans (of_decide_eq_true below) le)
      obtain ⟨further, reached, le⟩ := lastIndex?_mono implies found
      rw [reached]
      exact le

end SwitchPoints

/-! ## Searches -/

theorem Outline.followEstimate_round {K : Type} [Field K] [LinearOrder K] [FloorSemiring K]
    [Exponential K] [IsStrictOrderedRing K] {side : End} {xs lower upper : List K} {estimate : K}
    (outline : Outline xs lower upper) (centroid : IsCentroid xs lower upper estimate)
    (rounds : Nat) :
    followEstimate side (xs.map number) (lower.map number) (upper.map number) (rounds + 1)
        (number estimate : Extended K) =
      if 1 / 2 ^ 52 < (raised side estimate xs lower upper).sum then
        if side.sign * estimate ≤
            side.sign * mean xs (raised side estimate xs lower upper) + 1 / 10 ^ 12 then
          some (number (mean xs (raised side estimate xs lower upper)))
        else followEstimate side (xs.map number) (lower.map number) (upper.map number) rounds
          (number (mean xs (raised side estimate xs lower upper)))
      else none := by
  obtain ⟨first, rest, rfl⟩ := List.exists_cons_of_ne_nil outline.inhabited
  exact Fuzzy.followEstimate_round outline.ascending outline.bounds outline.nonneg outline.paired
    centroid rounds

/-- The search for one end of the interval of centroids. -/
structure Search (K : Type) where
  /-- The end that is looked for. -/
  side : End
  /-- The samples. -/
  xs : List K
  /-- Their lower weights. -/
  lower : List K
  /-- Their upper weights. -/
  upper : List K

namespace Search

variable {K : Type} [Field K] [LinearOrder K] [FloorSemiring K] [Exponential K]

/-- The switch point at an estimate. -/
def switchAt (search : Search K) (estimate : K) : Nat :=
  switchIndex (search.xs.map number) (number estimate : Extended K)

/-- The weights of a round.  The search starts half way between the bounds, and then switches
at the mean under the weights of the round before. -/
def weights (search : Search K) : Nat → List K
  | 0 => halfway search.lower search.upper
  | round + 1 => switchedWeights search.side search.lower search.upper
      (search.switchAt (mean search.xs (search.weights round)))

/-- The estimate of a round. -/
def estimate (search : Search K) (round : Nat) : K :=
  mean search.xs (search.weights round)

/-- The switch point at the estimate of a round. -/
def switch (search : Search K) (round : Nat) : Nat :=
  search.switchAt (search.estimate round)

/-- The estimate moves by no more than the tolerance from this round to the next. -/
structure RestsAt (search : Search K) (round : Nat) : Prop where
  near : |search.estimate (round + 1) - search.estimate round| ≤ 1 / 10 ^ 12

/-- The total of every weighting that is tried before the search rests counts. -/
structure Fed (search : Search K) : Prop where
  heavy : ∀ round, (∀ earlier, earlier + 1 < round → ¬search.RestsAt earlier) →
    1 / 2 ^ 52 < (search.weights round).sum

/-- Follows the estimate from the mean under the middle weights for a number of rounds. -/
def run (search : Search K) (rounds : Nat) : Option (Extended K) :=
  followEstimate search.side (search.xs.map number) (search.lower.map number)
    (search.upper.map number) rounds (number (search.estimate 0))

/-- The mean of admissible weights that none passes. -/
structure Optimal (search : Search K) (value : K) : Prop where
  attained : IsCentroid search.xs search.lower search.upper value
  unpassed : ∀ weights, Weighting search.lower search.upper weights → 0 < weights.sum →
    search.side.sign * value ≤ search.side.sign * mean search.xs weights

variable [IsStrictOrderedRing K] {search : Search K} {round : Nat}

theorem restsAt_of_switch (same : search.switch (round + 1) = search.switch round) :
    search.RestsAt (round + 1) := by
  have weights : search.weights (round + 1 + 1) = search.weights (round + 1) :=
    congrArg (switchedWeights search.side search.lower search.upper) same
  refine ⟨?_⟩
  rw [estimate, estimate, weights, sub_self, abs_zero]
  positivity

section Rounds

variable (outline : Outline search.xs search.lower search.upper)

include outline

theorem weights_succ (centroid : IsCentroid search.xs search.lower search.upper
    (search.estimate round)) :
    search.weights (round + 1) =
      raised search.side (search.estimate round) search.xs search.lower search.upper := by
  obtain ⟨side, xs, lower, upper⟩ := search
  obtain ⟨first, rest, rfl⟩ := List.exists_cons_of_ne_nil outline.inhabited
  exact switchedWeights_switchIndex side outline.ascending outline.pairedLower outline.paired
    (centroid.first_le outline.ascending outline.nonneg outline.paired)

/-- A search is fed if the lower weights alone count. -/
theorem fed_of_heavy (heavy : 1 / 2 ^ 52 < search.lower.sum) : search.Fed := by
  have weighting (round : Nat) : Weighting search.lower search.upper (search.weights round) := by
    induction round with
    | zero => exact weighting_halfway outline.bounds
    | succ round ih =>
        rw [weights_succ outline (.of_weights _ ih (heavy.trans_le ih.le_sum))]
        exact weighting_raised _ _ outline.bounds outline.paired
  exact ⟨fun round _ => heavy.trans_le (weighting round).le_sum⟩

/-- The estimates that are tried before the search rests are centroids. -/
theorem isCentroid_estimate (fed : search.Fed)
    (moves : ∀ earlier, earlier + 1 < round → ¬search.RestsAt earlier) :
    IsCentroid search.xs search.lower search.upper (search.estimate round) := by
  induction round with
  | zero => exact .of_weights _ (weighting_halfway outline.bounds) (fed.heavy 0 nofun)
  | succ round ih =>
      have centroid := ih fun earlier before => moves earlier (Nat.lt_succ_of_lt before)
      have heavy := fed.heavy (round + 1) moves
      rw [estimate]
      rw [weights_succ outline centroid] at heavy ⊢
      exact .of_weights _ (weighting_raised _ _ outline.bounds outline.paired) heavy

/-- A round turns the estimate. -/
theorem turn (fed : search.Fed) (moves : ∀ earlier < round, ¬search.RestsAt earlier) :
    search.side.Turn search.xs search.lower search.upper (search.estimate round)
      (search.estimate (round + 1)) := by
  have centroid := isCentroid_estimate outline fed fun earlier before =>
    moves earlier (Nat.lt_of_succ_lt before)
  have heavy := fed.heavy (round + 1) fun earlier before =>
    moves earlier (Nat.lt_of_succ_lt_succ before)
  rw [weights_succ outline centroid] at heavy
  have next : search.estimate (round + 1) =
      mean search.xs (raised search.side (search.estimate round) search.xs search.lower
        search.upper) := by
    rw [estimate, weights_succ outline centroid]
  exact next ▸ centroid.turn search.side outline.paired heavy

/-- The switch point moves in the direction of the estimate. -/
theorem switch_outward (fed : search.Fed) (moves : ∀ earlier < round, ¬search.RestsAt earlier) :
    (search.side.sign * search.switch (round + 1) : K) ≤
      search.side.sign * search.switch round := by
  have outward := (turn outline fed moves).outward
  unfold switch switchAt
  generalize search.estimate (round + 1) = next at outward
  generalize search.estimate round = before at outward
  cases side : search.side with
  | left =>
      simp only [side, End.sign, one_mul] at outward ⊢
      exact Nat.cast_le.mpr (switchIndex_mono _ ((number_le _ _).mpr outward))
  | right =>
      simp only [side, End.sign, neg_one_mul, neg_le_neg_iff] at outward ⊢
      exact Nat.cast_le.mpr (switchIndex_mono _ ((number_le _ _).mpr outward))

/-- A round either rests or moves the switch point by one place at least. -/
theorem switch_advances (fed : search.Fed)
    (moves : ∀ earlier ≤ round + 1, ¬search.RestsAt earlier) :
    (search.side.sign * search.switch (round + 1) + 1 : K) ≤
      search.side.sign * search.switch round := by
  have outward := switch_outward outline fed fun earlier before =>
    moves earlier (before.le.trans (Nat.le_succ round))
  have differ : search.switch (round + 1) ≠ search.switch round :=
    fun same => moves (round + 1) le_rfl (restsAt_of_switch same)
  generalize search.switch (round + 1) = next at outward differ
  generalize search.switch round = before at outward differ
  cases side : search.side with
  | left =>
      simp only [side, End.sign, one_mul] at outward ⊢
      exact_mod_cast Nat.lt_of_le_of_ne (Nat.cast_le.mp outward) differ
  | right =>
      simp only [side, End.sign, neg_one_mul, neg_le_neg_iff] at outward ⊢
      have less : before + 1 ≤ next := Nat.lt_of_le_of_ne (Nat.cast_le.mp outward) differ.symm
      have less : (before : K) + 1 ≤ next := by exact_mod_cast less
      linarith

/-- The switch point runs out of places after as many rounds as there are samples. -/
theorem exists_rest (fed : search.Fed) : ∃ last ≤ search.xs.length, search.RestsAt last := by
  by_contra! moves
  -- Every round takes the switch point one place further.
  have advanced (round : Nat) (few : round ≤ search.xs.length) :
      (search.side.sign * search.switch round + round : K) ≤
        search.side.sign * search.switch 0 := by
    induction round with
    | zero => simp
    | succ round ih =>
        have before := ih (Nat.le_of_succ_le few)
        have advances := switch_advances outline fed fun earlier le => moves earlier (le.trans few)
        push_cast
        linarith
  have inhabited : search.xs.map (number (K := K)) ≠ [] :=
    List.map_eq_nil_iff.not.mpr outline.inhabited
  have within (round : Nat) : search.switch round < search.xs.length := by
    have within := switchIndex_lt inhabited (number (search.estimate round))
    rwa [List.length_map] at within
  have advanced := advanced search.xs.length le_rfl
  cases side : search.side with
  | left =>
      rw [side, End.sign, one_mul, one_mul, ← Nat.cast_add, Nat.cast_le] at advanced
      have := within 0
      omega
  | right =>
      rw [side, End.sign, neg_one_mul, neg_one_mul, neg_add_le_iff_le_add] at advanced
      have := within search.xs.length
      have : (search.xs.length : K) ≤ search.switch search.xs.length := by
        have nonneg : (0 : K) ≤ search.switch 0 := Nat.cast_nonneg _
        linarith
      have := Nat.cast_le.mp this
      omega

end Rounds

/-- A search whose estimate rests at a round for the first time. -/
structure Converges (search : Search K) (last : Nat) : Prop where
  rests : search.RestsAt last
  moves : ∀ round < last, ¬search.RestsAt round
  /-- The iterations up to the rest are one more than the samples at most. -/
  soon : last + 1 ≤ search.xs.length + 1
  outward : ∀ round ≤ last,
    search.side.sign * search.estimate (round + 1) ≤ search.side.sign * search.estimate round
  switches : ∀ round ≤ last,
    (search.side.sign * search.switch (round + 1) : K) ≤ search.side.sign * search.switch round
  repeats : ∀ round, search.switch (round + 1) = search.switch round → search.RestsAt (round + 1)
  /-- The loop gives the estimate of its last round, and none later than the rest. -/
  followed : ∀ rounds,
    search.run rounds = some (number (search.estimate (min rounds (last + 1))))

section Convergence

variable (outline : Outline search.xs search.lower search.upper)

include outline

theorem restsAt_iff (fed : search.Fed) (moves : ∀ earlier < round, ¬search.RestsAt earlier) :
    search.RestsAt round ↔ search.side.sign * search.estimate round ≤
      search.side.sign * search.estimate (round + 1) + 1 / 10 ^ 12 := by
  have distance := End.abs_sub_of_outward (turn outline fed moves).outward
  rw [← sub_le_iff_le_add', ← distance]
  exact ⟨RestsAt.near, RestsAt.mk⟩

/-- The loop rests at the first rest, or gives the estimate of its last round before. -/
theorem followEstimate_eq (fed : search.Fed) {last : Nat} (rests : search.RestsAt last)
    (moves : ∀ round < last, ¬search.RestsAt round) (rounds : Nat) (le : round ≤ last) :
    followEstimate search.side (search.xs.map number) (search.lower.map number)
        (search.upper.map number) rounds (number (search.estimate round) : Extended K) =
      some (number (search.estimate (min (round + rounds) (last + 1)))) := by
  induction rounds generalizing round with
  | zero =>
      rw [Nat.add_zero, min_eq_left (le.trans (Nat.le_succ last))]
      rfl
  | succ rounds ih =>
      have before : ∀ earlier < round, ¬search.RestsAt earlier :=
        fun earlier less => moves earlier (less.trans_le le)
      have turn := turn outline fed before
      have centroid := isCentroid_estimate outline fed fun earlier less =>
        before earlier (Nat.lt_of_succ_lt less)
      rw [outline.followEstimate_round centroid, if_pos turn.heavy, turn.mean_eq]
      rcases le.eq_or_lt with rfl | less
      · rw [if_pos ((restsAt_iff outline fed before).mp rests),
          min_eq_right (Nat.add_le_add_left (Nat.le_add_left 1 rounds) round)]
      · rw [if_neg ((restsAt_iff outline fed before).not.mp (moves round less)), ih less,
          Nat.succ_add_eq_add_succ]

/-- A search whose totals count converges. -/
theorem exists_converges (fed : search.Fed) : ∃ last, search.Converges last := by
  classical
  have reached := exists_rest outline fed
  obtain ⟨few, rests⟩ := Nat.find_spec reached
  refine ⟨Nat.find reached, rests, ?_, Nat.succ_le_succ few, ?_, ?_, ?_, ?_⟩
  all_goals
    have moves : ∀ round < Nat.find reached, ¬search.RestsAt round := fun round less rests =>
      Nat.find_min reached less ⟨(less.trans_le few).le, rests⟩
  · exact moves
  · exact fun round le =>
      (turn outline fed fun earlier less => moves earlier (less.trans_le le)).outward
  · exact fun round le =>
      switch_outward outline fed fun earlier less => moves earlier (less.trans_le le)
  · exact fun round => restsAt_of_switch
  · intro rounds
    rw [run, followEstimate_eq outline fed rests moves rounds (Nat.zero_le _), Nat.zero_add]

/-- A round after which the switch point stays has found the end of the interval. -/
theorem optimal_of_switch (fed : search.Fed)
    (moves : ∀ earlier < round, ¬search.RestsAt earlier)
    (same : search.switch (round + 1) = search.switch round) :
    search.Optimal (search.estimate (round + 1)) := by
  have tried : ∀ earlier, earlier + 1 < round + 1 → ¬search.RestsAt earlier :=
    fun earlier less => moves earlier (Nat.lt_of_succ_lt_succ less)
  have centroid := isCentroid_estimate outline fed tried
  have positive := pos_of_heavy (fed.heavy (round + 1) tried)
  -- The weights of this round are those that it leads to.
  have fixed : search.weights (round + 1) =
      raised search.side (search.estimate (round + 1)) search.xs search.lower search.upper := by
    rw [← weights_succ outline centroid]
    exact (congrArg (switchedWeights search.side search.lower search.upper) same).symm
  refine ⟨centroid, fun weights weighting counts => ?_⟩
  have outermost := raised_outermost weighting (outline.paired.trans weighting.length_eq.symm)
    fun x _ => search.side.splits_self (search.estimate (round + 1)) x
  rw [← fixed, moment_eq_mean_mul positive.ne', moment_eq_mean_mul counts.ne', ← estimate, sub_self,
    mul_zero, ← sub_mul, ← mul_assoc, mul_sub] at outermost
  exact sub_nonneg.mp (nonneg_of_mul_nonneg_left outermost counts)

/-- The search for an end is a run of the most rounds that there are. -/
theorem centroidEnd?_eq_run (fed : search.Fed) :
    centroidEnd? search.side (search.xs.map number) (search.lower.map number)
        (search.upper.map number) = search.run roundLimit := by
  have balanced := (weightedMean?_eq_some
    (outline.paired.trans (length_halfway outline.bounds.length_eq).symm)).mpr
      ⟨fed.heavy 0 nofun, rfl⟩
  rw [centroidEnd?, middleWeights_number, balanced]
  rfl

end Convergence

/-- What a search returns after a round: its estimate, which is an end of the interval if the
switch point stays where it was. -/
structure Returns (search : Search K) (round : Nat) : Prop where
  returned : centroidEnd? search.side (search.xs.map number) (search.lower.map number)
    (search.upper.map number) = some (number (search.estimate (round + 1)) : Extended K)
  outward : search.side.sign * search.estimate (round + 1) ≤
    search.side.sign * mean search.xs (halfway search.lower search.upper)
  optimal : search.switch (round + 1) = search.switch round →
    search.Optimal (search.estimate (round + 1))

omit [IsStrictOrderedRing K] in
theorem Converges.outward_start {last : Nat} (converges : search.Converges last)
    (le : round ≤ last + 1) :
    search.side.sign * search.estimate round ≤ search.side.sign * search.estimate 0 := by
  induction round with
  | zero => exact le_rfl
  | succ round ih =>
      exact (converges.outward round (Nat.le_of_succ_le_succ le)).trans (ih (Nat.le_of_succ_le le))

/-- The search returns after the round in which it rests, or after the last one there is. -/
theorem Converges.returns {last : Nat} (converges : search.Converges last)
    (outline : Outline search.xs search.lower search.upper) (fed : search.Fed) :
    search.Returns (min (roundLimit - 1) last) := by
  have limit : min roundLimit (last + 1) = min (roundLimit - 1) last + 1 :=
    Nat.add_min_add_right (roundLimit - 1) last 1
  refine ⟨?_, converges.outward_start (Nat.succ_le_succ (min_le_right _ _)), fun same => ?_⟩
  · rw [centroidEnd?_eq_run outline fed, converges.followed, limit]
  · exact optimal_of_switch outline fed
      (fun earlier less => converges.moves earlier (less.trans_le (min_le_right _ _))) same

end Search

/-- Type reduction converges.  As long as the totals of the weights that are tried count, both
searches move outward together with their switch points, rest within one round more than there
are samples, and are not cut off if these are fewer than a thousand.  The results lie on either
side of the centroid half way between the bounds, and such a result is an end of the interval if
the switch point stayed in the last round. -/
theorem rounds_converge {K : Type} [Field K] [LinearOrder K] [FloorSemiring K] [Exponential K]
    [IsStrictOrderedRing K] {xs lower upper : List K} (outline : Outline xs lower upper) :
    (∀ side, Search.Fed ⟨side, xs, lower, upper⟩ →
      ∃ last round, Search.Converges ⟨side, xs, lower, upper⟩ last ∧
        Search.Returns ⟨side, xs, lower, upper⟩ round ∧ round ≤ last ∧
          (xs.length < 1000 → round = last)) ∧
    ((∀ side, Search.Fed ⟨side, xs, lower, upper⟩) → ∃ left right,
      centroidEnd? .left (xs.map number) (lower.map number) (upper.map number) =
        some (number left : Extended K) ∧
      centroidEnd? .right (xs.map number) (lower.map number) (upper.map number) =
        some (number right : Extended K) ∧
      left ≤ mean xs (halfway lower upper) ∧ mean xs (halfway lower upper) ≤ right ∧
      karnikMendel? (xs.map number) (lower.map number) (upper.map number) =
        some (number left, number right)) := by
  have searches (side : End) (fed : Search.Fed ⟨side, xs, lower, upper⟩) :
      ∃ last round, Search.Converges ⟨side, xs, lower, upper⟩ last ∧
        Search.Returns ⟨side, xs, lower, upper⟩ round ∧ round ≤ last ∧
          (xs.length < 1000 → round = last) := by
    obtain ⟨last, converges⟩ := Search.exists_converges outline fed
    refine ⟨last, _, converges, converges.returns outline fed, min_le_right _ _,
      fun few => min_eq_right ?_⟩
    exact (Nat.le_of_succ_le_succ converges.soon).trans (Nat.le_pred_of_lt few)
  refine ⟨searches, fun fed => ?_⟩
  obtain ⟨_, round, _, toLeft, _⟩ := searches .left (fed .left)
  obtain ⟨_, other, _, toRight, _⟩ := searches .right (fed .right)
  have below := toLeft.outward
  have above := toRight.outward
  simp only [End.sign, one_mul, neg_one_mul, neg_le_neg_iff] at below above
  refine ⟨_, _, toLeft.returned, toRight.returned, below, above, ?_⟩
  have wellFormed : ¬((xs.map (number (K := K))).isEmpty ∨
      (xs.map (number (K := K))).length ≠ (lower.map (number (K := K))).length ∨
      (xs.map (number (K := K))).length ≠ (upper.map (number (K := K))).length) := by
    simpa using ⟨outline.inhabited, outline.pairedLower, outline.paired⟩
  have first := toLeft.returned
  have second := toRight.returned
  dsimp only at first second
  rw [karnikMendel?, if_neg wellFormed, first, second]
  simp only [lesser_number, greater_number, min_eq_left (below.trans above),
    max_eq_right (below.trans above)]

theorem rounds_converge_tent :
    let xs : List ℚ := [0, 1, 2]
    let lower : List ℚ := [1 / 2, 1 / 4, 1 / 2]
    let upper : List ℚ := [1, 1 / 2, 1]
    Outline xs lower upper ∧ (∀ side, Search.Fed ⟨side, xs, lower, upper⟩) ∧
      (∀ side, ∃ last, Search.Converges ⟨side, xs, lower, upper⟩ last ∧
        Search.Returns ⟨side, xs, lower, upper⟩ last) ∧
      ∃ left right, left ≤ mean xs (halfway lower upper) ∧
        mean xs (halfway lower upper) ≤ right ∧
        karnikMendel? (xs.map number) (lower.map number) (upper.map number) =
          some (number left, number right) := by
  intro xs lower upper
  have outline : Outline xs lower upper :=
    ⟨by decide, by decide +kernel, rfl, by decide +kernel, by decide +kernel⟩
  have heavy : 1 / 2 ^ 52 < lower.sum := by decide +kernel
  have fed (side : End) : Search.Fed ⟨side, xs, lower, upper⟩ :=
    Search.fed_of_heavy outline heavy
  obtain ⟨converge, interval⟩ := rounds_converge outline
  obtain ⟨left, right, _, _, below, above, reduced⟩ := interval fed
  refine ⟨outline, fed, fun side => ?_, left, right, below, above, reduced⟩
  obtain ⟨last, round, converges, returns, _, uncut⟩ := converge side (fed side)
  exact ⟨last, converges, uncut (by decide) ▸ returns⟩

end Handover.Fuzzy
