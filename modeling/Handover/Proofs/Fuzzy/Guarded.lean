import Handover.Fuzzy.TypeTwo
import Handover.Proofs.Fuzzy.Mean
import Handover.Proofs.Fuzzy.Naming

/-!
# Evaluation with guards

An evaluation takes much for granted: that ranges are in order, that every condition has a
degree at its place, that every conclusion has an activation, that the sample points of the
output can be held and each has a weight, and that nothing is divided by a total that counts as
nothing.  Here the same steps look before they act, and an evaluation breaks off where one of
them must not be made.
-/

namespace Handover.Fuzzy

open Scalar

/-- Why an evaluation with guards breaks off. -/
inductive Breach where
  /-- A value is to be moved into a range whose bounds are not in order. -/
  | unorderedRange
  /-- There is no degree at the place of a condition. -/
  | missingDegree
  /-- There is no activation at the place of a conclusion. -/
  | missingActivation
  /-- There are too many sample points to hold them. -/
  | crowdedSamples
  /-- There is no weight at the place of a sample point. -/
  | missingWeight
  /-- A sum is to be divided by a total that counts as nothing. -/
  | lightTotal
deriving DecidableEq, Repr

variable {α μ δ ρ τ : Type}

/-- What there is, which has to be something. -/
def present (missing : Breach) : Option ρ → Except Breach ρ
  | some item => .ok item
  | none => .error missing

/-- The entry at a place of a list. -/
def entry (missing : Breach) (items : List ρ) (place : Nat) : Except Breach ρ :=
  present missing items[place]?

theorem entry_eq_ok {missing : Breach} {items : List ρ} {place : Nat} {item : ρ}
    (found : items[place]? = some item) : entry missing items place = .ok item := by
  rw [entry, found, present]

variable [Scalar α]

/-! ## Degrees -/

/-- A value moved into the range, whose bounds have to be in order. -/
def Domain.guardedClamp (domain : Domain α) (x : α) : Except Breach α :=
  if domain.min < domain.max then
    .ok (if isNaN x then domain.min
      else if x < domain.min then domain.min
      else if domain.max < x then domain.max
      else x)
  else .error .unorderedRange

def Variable.guardedFuzzify [Grading μ α δ] (item : Variable α μ) (value : α) :
    Except Breach (List δ) := do
  let x ← item.domain.guardedClamp value
  .ok (item.terms.map fun term => Grading.degree term.membership x)

theorem Domain.guardedClamp_eq [LawfulOrder α] {domain : Domain α}
    (ordered : domain.min < domain.max) (x : α) :
    ∃ moved, domain.guardedClamp x = .ok moved ∧ domain.clamp? x = some moved := by
  have le : domain.min ≤ domain.max := by
    obtain ⟨low, high⟩ := LawfulOrder.numbers_of_lt ordered
    exact LawfulOrder.le_iff.mpr ⟨low, high, LawfulOrder.not_lt_of_lt ordered⟩
  rw [guardedClamp, if_pos ordered, clamp?, if_pos le]
  split
  · exact ⟨_, rfl, rfl⟩
  · exact ⟨_, rfl, rfl⟩

theorem Variable.guardedFuzzify_eq [Grading μ α δ] [LawfulOrder α] {item : Variable α μ}
    (ordered : item.domain.min < item.domain.max) (value : α) :
    ∃ degrees, item.guardedFuzzify value = .ok degrees ∧ item.fuzzify? value = some degrees := by
  obtain ⟨moved, guarded, clamped⟩ := Domain.guardedClamp_eq ordered value
  exact ⟨_, by rw [guardedFuzzify, bind_of_ok guarded], by rw [fuzzify?, clamped]; rfl⟩

/-! ## Activations -/

/-- The degree at the place of a condition. -/
def guardedDegree (fuzzified : List (List δ)) (place : Nat × Nat) : Except Breach δ := do
  let degrees ← entry .missingDegree fuzzified place.1
  entry .missingDegree degrees place.2

def IndexedRule.guardedFiring (fuzzified : List (List α)) (rule : IndexedRule) :
    Except Breach α :=
  rule.antecedents.foldlM
    (fun weakest place => do
      let degree ← guardedDegree fuzzified place
      .ok (lesser weakest degree))
    1

/-- Raises the activation of the term that a rule concludes. -/
def IndexedRule.guardedRaise (fuzzified : List (List α)) (activation : List α)
    (rule : IndexedRule) : Except Breach (List α) := do
  let firing ← rule.guardedFiring fuzzified
  let strongest ← entry .missingActivation activation rule.consequent
  .ok (activation.set rule.consequent (greater strongest firing))

/-- Activations, raised rule by rule. -/
def guardedActivations (terms : Nat) (rules : List IndexedRule) (fuzzified : List (List α)) :
    Except Breach (List α) :=
  rules.foldlM (IndexedRule.guardedRaise fuzzified) (List.replicate terms 0)

/-- The places of a rule are places of degrees and of an activation. -/
structure IndexedRule.Fits (fuzzified : List (List δ)) (terms : Nat) (rule : IndexedRule) :
    Prop where
  antecedents : ∀ place ∈ rule.antecedents, ∃ degrees degree,
    fuzzified[place.1]? = some degrees ∧ degrees[place.2]? = some degree
  consequent : rule.consequent < terms

theorem IndexedRule.Fits.guardedFiring_eq {fuzzified : List (List α)} {terms : Nat}
    {rule : IndexedRule} (fits : rule.Fits fuzzified terms) :
    rule.guardedFiring fuzzified = .ok (rule.firing fuzzified) := by
  obtain ⟨found, -⟩ := fits
  unfold guardedFiring firing
  generalize rule.antecedents = places at found
  induction places using List.reverseRecOn with
  | nil => rfl
  | append_singleton rest place ih =>
      rw [List.forall_mem_append, List.forall_mem_singleton] at found
      obtain ⟨degrees, degree, row, column⟩ := found.2
      rw [List.foldlM_append, ih found.1, List.foldl_append]
      have known : guardedDegree fuzzified place = .ok degree := by
        rw [guardedDegree, bind_of_ok (entry_eq_ok row), entry_eq_ok column]
      have same : degreeAt 0 fuzzified place = degree := by
        rw [degreeAt_eq, row, Option.bind_some, column, Option.getD_some]
      simp only [List.foldlM_cons, List.foldlM_nil, List.foldl_cons, List.foldl_nil, known, same]
      rfl

/-- One more rule raises the activation of the term that it concludes. -/
theorem activations_concat (terms : Nat) (rules : List IndexedRule) (rule : IndexedRule)
    (fuzzified : List (List α)) :
    activations terms (rules ++ [rule]) fuzzified =
      (activations terms rules fuzzified).set rule.consequent
        (greater (activationOf fuzzified rules rule.consequent) (rule.firing fuzzified)) := by
  apply List.ext_getElem
  · simp [activations]
  · intro term _ _
    simp only [activations, List.getElem_map, List.getElem_range, List.getElem_set, activationOf,
      List.foldl_append, List.foldl_cons, List.foldl_nil]
    split_ifs with same
    · rw [same]
    · rfl

theorem guardedActivations_eq {terms : Nat} {rules : List IndexedRule}
    {fuzzified : List (List α)} (fits : ∀ rule ∈ rules, rule.Fits fuzzified terms) :
    guardedActivations terms rules fuzzified = .ok (activations terms rules fuzzified) := by
  unfold guardedActivations
  induction rules using List.reverseRecOn with
  | nil =>
      have idle : activations terms [] fuzzified = List.replicate terms 0 := by
        apply List.eq_replicate_iff.mpr
        constructor
        · simp [activations]
        · intro strength member
          obtain ⟨_, _, rfl⟩ := List.mem_map.mp member
          rfl
      rw [idle]
      rfl
  | append_singleton rest rule ih =>
      rw [List.forall_mem_append, List.forall_mem_singleton] at fits
      have known : (activations terms rest fuzzified)[rule.consequent]? =
          some (activationOf fuzzified rest rule.consequent) := by
        rw [activations, List.getElem?_map, List.getElem?_range fits.2.consequent, Option.map_some]
      rw [List.foldlM_append, bind_of_ok (ih fits.1), List.foldlM_cons,
        IndexedRule.guardedRaise, bind_of_ok fits.2.guardedFiring_eq,
        bind_of_ok (entry_eq_ok known), activations_concat]
      rfl

/-! ## Means -/

/-- A sum divided by a total that has to count. -/
def guardedDivide (weighted total : α) : Except Breach α :=
  if total ≤ epsilon then .error .lightTotal else .ok (weighted / total)

def guardedMean? (xs weights : List α) : Except Breach (Option α) :=
  let (weighted, total) := moments (xs.zip weights)
  if epsilon < total then (guardedDivide weighted total).map some else .ok none

theorem guardedMean?_eq [LawfulOrder α] (xs weights : List α) :
    guardedMean? xs weights = .ok (weightedMean? xs weights) := by
  simp only [guardedMean?, weightedMean?]
  split_ifs with heavy
  · have counts := mt LawfulOrder.le_iff.mp fun light => light.2.2 heavy
    rw [guardedDivide, if_neg counts]
    rfl
  · rfl

/-! ## Type reduction -/

/-- The weights of a number of sample points with the switch point at an index. -/
def guardedWeights (side : End) (lower upper : List α) (count index : Nat) :
    Except Breach (List α) :=
  (List.range count).mapM fun place =>
    entry .missingWeight (if place ≤ index ↔ side = .left then upper else lower) place

omit [Scalar α] in
theorem getElem?_switchedWeights (side : End) {lower upper : List α}
    (paired : lower.length = upper.length) (index place : Nat) :
    (switchedWeights side lower upper index)[place]? =
      (if place ≤ index ↔ side = .left then upper else lower)[place]? := by
  cases side with
  | left =>
      simp only [switchedWeights, List.getElem?_append, List.length_take, List.getElem?_take,
        List.getElem?_drop]
      grind
  | right =>
      simp only [switchedWeights, List.getElem?_append, List.length_take, List.getElem?_take,
        List.getElem?_drop]
      grind

omit [Scalar α] in
theorem guardedWeights_eq (side : End) {lower upper : List α} {count : Nat}
    (lowerCount : lower.length = count) (upperCount : upper.length = count) (index : Nat) :
    guardedWeights side lower upper count index = .ok (switchedWeights side lower upper index) := by
  have paired := lowerCount.trans upperCount.symm
  rw [guardedWeights, mapM_eq_ok_iff, List.forall₂_iff_get]
  constructor
  · rw [List.length_range, length_switchedWeights side paired, upperCount]
  · intro place inside bound
    apply entry_eq_ok
    rw [List.get_eq_getElem, List.getElem_range, ← getElem?_switchedWeights side paired]
    exact List.getElem?_eq_getElem bound

/-- Follows the estimate for a number of rounds. -/
def guardedFollow (side : End) (xs lower upper : List α) :
    Nat → α → Except Breach (Option α)
  | 0, estimate => .ok (some estimate)
  | rounds + 1, estimate => do
    let weights ← guardedWeights side lower upper xs.length (switchIndex xs estimate)
    match ← guardedMean? xs weights with
    | none => .ok none
    | some next =>
      if magnitude (next - estimate) ≤ stillness then .ok (some next)
      else guardedFollow side xs lower upper rounds next

def guardedEnd? (side : End) (xs lower upper : List α) : Except Breach (Option α) := do
  match ← guardedMean? xs (middleWeights lower upper) with
  | none => .ok none
  | some start => guardedFollow side xs lower upper roundLimit start

def guardedKarnikMendel? (xs lower upper : List α) : Except Breach (Option (α × α)) :=
  if xs.isEmpty ∨ xs.length ≠ lower.length ∨ xs.length ≠ upper.length then .ok none
  else do
    match ← guardedEnd? .left xs lower upper, ← guardedEnd? .right xs lower upper with
    | some left, some right => .ok (some (lesser left right, greater left right))
    | _, _ => .ok none

section Reduction

variable [LawfulOrder α] {side : End} {xs lower upper : List α}

theorem guardedFollow_eq (lowerCount : lower.length = xs.length)
    (upperCount : upper.length = xs.length) (rounds : Nat) (estimate : α) :
    guardedFollow side xs lower upper rounds estimate =
      .ok (followEstimate side xs lower upper rounds estimate) := by
  induction rounds generalizing estimate with
  | zero => rfl
  | succ rounds ih =>
      rw [guardedFollow, bind_of_ok (guardedWeights_eq side lowerCount upperCount _),
        bind_of_ok (guardedMean?_eq _ _), followEstimate]
      cases weightedMean? xs (switchedWeights side lower upper (switchIndex xs estimate)) with
      | none => rfl
      | some next =>
          dsimp only
          split_ifs with still
          · rfl
          · exact ih next

theorem guardedEnd?_eq (lowerCount : lower.length = xs.length)
    (upperCount : upper.length = xs.length) :
    guardedEnd? side xs lower upper = .ok (centroidEnd? side xs lower upper) := by
  rw [guardedEnd?, bind_of_ok (guardedMean?_eq _ _), centroidEnd?]
  cases weightedMean? xs (middleWeights lower upper) with
  | none => rfl
  | some start => exact guardedFollow_eq lowerCount upperCount roundLimit start

theorem guardedKarnikMendel?_eq (xs lower upper : List α) :
    guardedKarnikMendel? xs lower upper = .ok (karnikMendel? xs lower upper) := by
  rw [guardedKarnikMendel?, karnikMendel?]
  split_ifs with mismatched
  · rfl
  · simp only [not_or, not_not] at mismatched
    obtain ⟨-, lowerCount, upperCount⟩ := mismatched
    rw [bind_of_ok (guardedEnd?_eq lowerCount.symm upperCount.symm),
      bind_of_ok (guardedEnd?_eq lowerCount.symm upperCount.symm)]
    cases centroidEnd? .left xs lower upper <;> cases centroidEnd? .right xs lower upper <;> rfl

end Reduction

/-! ## Answers -/

/-- The answer made of the degrees of one value per input. -/
def System.guarded [Grading μ α δ] (system : System α μ) (crisp : List α)
    (answer : List (List δ) → Except Breach (Except (FuzzyError α) α)) :
    Except Breach (Except (FuzzyError α) α) :=
  if crisp.length = system.inputs.length then do
    let fuzzified ← (system.inputs.zip crisp).mapM fun pair => pair.1.guardedFuzzify pair.2
    answer fuzzified
  else .ok (.error (.inputCount system.inputs.length crisp.length))

/-- The sample points of a range, which have to be few enough to hold them. -/
def Domain.guardedSamples (domain : Domain α) (bytes : Nat) : Except Breach (List α) :=
  if domain.HoldsSamples bytes then .ok domain.samples else .error .crowdedSamples

namespace TypeOne

def guardedDefuzzify (system : TypeOneSystem α) (activation : List α) :
    Except Breach (Except (FuzzyError α) α) := do
  let xs ← system.output.domain.guardedSamples pointSize
  let (weighted, total) := moments (xs.map fun x => (x, joined system.output.terms activation x))
  if total ≤ epsilon then .ok (.error (.emptyOutput system.output.name))
  else (guardedDivide weighted total).map .ok

/-- The answer of a type-1 system, every step of which is guarded. -/
def guardedEvaluate (system : TypeOneSystem α) (crisp : List α) :
    Except Breach (Except (FuzzyError α) α) :=
  system.guarded crisp fun fuzzified => do
    let activation ← guardedActivations system.output.terms.length system.indexed fuzzified
    guardedDefuzzify system activation

end TypeOne

namespace TypeTwo

def guardedDefuzzify (system : TypeTwoSystem α) (activation : IntervalActivation α) :
    Except Breach (Except (FuzzyError α) α) := do
  let xs ← system.output.domain.guardedSamples pointSize
  let heights := xs.map (joined system activation)
  match ← guardedKarnikMendel? xs (heights.map Interval.lower) (heights.map Interval.upper) with
  | some (left, right) => .ok (.ok ((left + right) / two))
  | none => .ok (.error (.emptyOutput system.output.name))

/-- The answer of a type-2 system, every step of which is guarded. -/
def guardedEvaluate (system : TypeTwoSystem α) (crisp : List α) :
    Except Breach (Except (FuzzyError α) α) :=
  system.guarded crisp fun fuzzified => do
    let terms := system.output.terms.length
    let lower ← guardedActivations terms system.indexed (fuzzified.map (List.map Interval.lower))
    let upper ← guardedActivations terms system.indexed (fuzzified.map (List.map Interval.upper))
    guardedDefuzzify system ⟨lower, upper⟩

end TypeTwo

end Handover.Fuzzy
