import Handover.Inference.RuleBase
import Handover.Proofs.Fuzzy.Build
import Handover.Proofs.Numeric.Double
import Mathlib.Control.Monad.Basic

/-!
# The built-in rule bases can be built

The terms of the built-in rule bases are bells, which pass every check of a
membership function.  The two bells of a footprint have the same mean, and the
argument of the exponential is nowhere smaller for the wider one; that is checked
at every sample point.
-/

namespace Handover.Inference

open Fuzzy Scalar

/-- All three systems of a rule base can be built. -/
def RuleBase.Builds {α μ δ : Type} [Scalar α] [Grading μ α δ] (rules : RuleBase α μ) : Prop :=
  (∃ system, rules.servingQuality.build = .ok system) ∧
    (∃ system, rules.neighbourQuality.build = .ok system) ∧
    ∃ system, rules.trigger.build = .ok system

namespace TermSketch

/-- Argument of the exponential of a bell. -/
def exponent (mean sigma x : Float) : Float :=
  -((x - mean) * (x - mean)) / (two * sigma * sigma)

/-- Width of the lower bell of the footprint. -/
def narrow (sketch : TermSketch Float) : Float :=
  sketch.sigma - sketch.spread / two

/-- Width of the upper bell of the footprint. -/
def wide (sketch : TermSketch Float) : Float :=
  sketch.sigma + sketch.spread / two

/-- A bell can have this width. -/
def IsWidth (sigma : Float) : Prop :=
  isFinite sigma = true ∧ 0 < sigma

instance (sigma : Float) : Decidable (IsWidth sigma) :=
  inferInstanceAs (Decidable (_ ∧ _))

/-- All three bells of a term can be drawn. -/
def Drawable (sketch : TermSketch Float) : Prop :=
  isFinite sketch.mean = true ∧ IsWidth sketch.sigma ∧ IsWidth sketch.narrow ∧
    IsWidth sketch.wide

instance (sketch : TermSketch Float) : Decidable sketch.Drawable :=
  inferInstanceAs (Decidable (_ ∧ _ ∧ _ ∧ _))

/-- The argument of the exponential is nowhere smaller for the upper bell. -/
def LevelOn (points : List Float) (sketch : TermSketch Float) : Prop :=
  ∀ x ∈ points, exponent sketch.mean sketch.narrow x ≤ exponent sketch.mean sketch.wide x

instance (points : List Float) (sketch : TermSketch Float) : Decidable (sketch.LevelOn points) :=
  inferInstanceAs (Decidable (∀ x ∈ points, _ ≤ _))

variable {exponential : Float → Float} {sketch : TermSketch Float}

theorem check_bell {mean sigma : Float} (finite : isFinite mean = true) (width : IsWidth sigma) :
    Membership.checkBell (α := Double exponential) mean sigma 1 = .ok () := by
  have height : (0 : Float) < 1 ∧ (1 : Float) ≤ 1 := by decide +kernel
  have checked : Membership.checkBell mean sigma (1 : Float) = .ok () := by
    simp [Membership.checkBell, finite, width.1, width.2, height]
  have same : (1 : Double exponential) = (1 : Float) := rfl
  exact (Membership.checkBell_double mean sigma _).trans (by rw [same, checked])

theorem validate_shape (drawable : sketch.Drawable) (name : String) :
    Membership.validate name (shape (α := Double exponential) sketch) = .ok () := by
  have checked : (shape (α := Double exponential) sketch).check = .ok () := by
    obtain ⟨_, outline, mean, sigma, spread⟩ := sketch
    have width : TermSketch.IsWidth sigma := drawable.2.1
    cases outline <;> exact check_bell drawable.1 width
  exact Membership.validate_of_check checked

/-- The flat part of a shoulder is not inverted. -/
theorem flat_level :
    ¬clampUnit (1 : Double exponential) + Footprint.tolerance < clampUnit 1 := by
  have flat : ¬clampUnit (1 : Float) + Footprint.tolerance < clampUnit 1 := by decide +kernel
  rw [← Footprint.crosses_double exponential] at flat
  exact flat

theorem not_invertedAt (steady : Steady exponential) {x : Float}
    (level : exponent sketch.mean sketch.narrow x ≤ exponent sketch.mean sketch.wide x) :
    ¬(footprint (α := Double exponential) sketch).InvertedAt x := by
  have slope := steady _ _ level
  obtain ⟨_, outline, mean, sigma, spread⟩ := sketch
  -- Both bounds of a shoulder are flat at the same values.
  have shoulder (flat : Prop) [Decidable flat] (narrow wide : Double exponential)
      (slope : ¬clampUnit wide + Footprint.tolerance < clampUnit narrow) :
      ¬clampUnit (if flat then 1 else wide) + Footprint.tolerance <
        clampUnit (if flat then 1 else narrow) := by
    split
    · exact flat_level
    · exact slope
  cases outline with
  | bell => exact slope
  | low => exact shoulder (x < mean) _ _ slope
  | high => exact shoulder (mean < x) _ _ slope

/-- The footprint of a drawable term is accepted where its bells do not cross. -/
theorem validate_footprint (steady : Steady exponential) (drawable : sketch.Drawable)
    {points : List (Double exponential)} (level : sketch.LevelOn points) (name : String) :
    Footprint.validate name points (footprint (α := Double exponential) sketch) = .ok () := by
  have lower : (footprint (α := Double exponential) sketch).lower.check = .ok () := by
    obtain ⟨_, outline, mean, sigma, spread⟩ := sketch
    cases outline <;> exact check_bell drawable.1 drawable.2.2.1
  have upper : (footprint (α := Double exponential) sketch).upper.check = .ok () := by
    obtain ⟨_, outline, mean, sigma, spread⟩ := sketch
    cases outline <;> exact check_bell drawable.1 drawable.2.2.2
  exact Footprint.validate_of_checks lower upper fun x member =>
    not_invertedAt steady (level x member)

end TermSketch

namespace BuiltIn

/-- The terms that are drawn, with the ranges of their variables. -/
def drawings {α : Type} [Scalar α] : List (Domain α × List (TermSketch α)) :=
  [(rsrqDomain, servingRsrqTerms), (changeDomain, servingChangeTerms),
    (rsrqDomain, neighbourRsrqTerms), (changeDomain, neighbourChangeTerms),
    (unitDomain, qualityTerms), (unitDomain, triggerTerms)]

section Drawing

variable {α μ δ : Type} [Scalar α] [Grading μ α δ] (draw : TermSketch α → μ)

/-- Terms pass all checks as the terms of a variable with a given range. -/
def Accepted (domain : Domain α) (terms : List (TermSketch α)) : Prop :=
  domain.check = .ok () ∧
    ∀ sketch ∈ terms, Grading.validate sketch.name domain (draw sketch) = .ok ()

variable {draw}

theorem variableOf_valid {name : String} {domain : Domain α} {terms : List (TermSketch α)}
    (accepted : Accepted draw domain terms) (nonempty : terms ≠ [])
    (unique : firstRepeat? [] (terms.map TermSketch.name) = none) :
    (variableOf draw name domain terms).Valid where
  domain := accepted.1
  nonempty := by simpa [variableOf] using nonempty
  unique := by
    rw [variableOf, List.map_map]
    exact unique
  terms := by
    intro term member
    obtain ⟨sketch, known, rfl⟩ := List.mem_map.mp member
    exact accepted.2 sketch known

/-- Names and rules of the built-in rule base fit together, however its terms are
drawn. -/
theorem ruleBase_builds
    (accepted : ∀ drawing ∈ drawings, Accepted draw drawing.1 drawing.2) :
    (ruleBase draw).Builds := by
  simp only [drawings, List.forall_mem_cons] at accepted
  obtain ⟨servingRsrq, servingChange, neighbourRsrq, neighbourChange, quality, trigger, _⟩ :=
    accepted
  have output {name : String} : (variableOf draw name unitDomain qualityTerms).Valid :=
    variableOf_valid quality nofun rfl
  refine ⟨⟨_, Definition.build_of_valid ?_ output rfl (List.cons_ne_nil _ _) rfl⟩,
    ⟨_, Definition.build_of_valid ?_ output rfl (List.cons_ne_nil _ _) rfl⟩,
    ⟨_, Definition.build_of_valid ?_ (variableOf_valid trigger nofun rfl) rfl
      (List.cons_ne_nil _ _) rfl⟩⟩
  · exact List.forall_mem_cons.mpr ⟨variableOf_valid servingRsrq nofun rfl,
      List.forall_mem_singleton.mpr (variableOf_valid servingChange nofun rfl)⟩
  · exact List.forall_mem_cons.mpr ⟨variableOf_valid neighbourRsrq nofun rfl,
      List.forall_mem_singleton.mpr (variableOf_valid neighbourChange nofun rfl)⟩
  · exact List.forall_mem_cons.mpr ⟨output, List.forall_mem_singleton.mpr output⟩

end Drawing

/-! ## On doubles -/

/-- All terms can be drawn, and all ranges can be sampled. -/
theorem drawings_drawable : ∀ drawing ∈ drawings (α := Float),
    drawing.1.check = .ok () ∧ ∀ sketch ∈ drawing.2, sketch.Drawable := by
  decide +kernel

theorem servingRsrq_level : ∀ sketch ∈ servingRsrqTerms, sketch.LevelOn rsrqDomain.samples := by
  decide +kernel

theorem neighbourRsrq_level :
    ∀ sketch ∈ neighbourRsrqTerms, sketch.LevelOn rsrqDomain.samples := by
  decide +kernel

theorem servingChange_level :
    ∀ sketch ∈ servingChangeTerms, sketch.LevelOn changeDomain.samples := by
  decide +kernel

theorem neighbourChange_level :
    ∀ sketch ∈ neighbourChangeTerms, sketch.LevelOn changeDomain.samples := by
  decide +kernel

theorem quality_level : ∀ sketch ∈ qualityTerms, sketch.LevelOn unitDomain.samples := by
  decide +kernel

/-- The terms of the desirability are drawn like those of a link quality. -/
theorem trigger_level : ∀ sketch ∈ triggerTerms, sketch.LevelOn unitDomain.samples := by
  intro sketch member
  simp only [triggerTerms, List.mem_cons, List.not_mem_nil, or_false] at member
  rcases member with rfl | rfl | rfl
  · exact quality_level ⟨"LOW", _, _, _, _⟩ List.mem_cons_self
  · exact quality_level ⟨"AVERAGE", _, _, _, _⟩ (List.mem_cons_of_mem _ List.mem_cons_self)
  · exact quality_level ⟨"HIGH", _, _, _, _⟩
      (List.mem_cons_of_mem _ (List.mem_cons_of_mem _ List.mem_cons_self))

theorem drawings_level : ∀ drawing ∈ drawings (α := Float),
    ∀ sketch ∈ drawing.2, sketch.LevelOn drawing.1.samples := by
  simp only [drawings, List.forall_mem_cons]
  exact ⟨servingRsrq_level, servingChange_level, neighbourRsrq_level, neighbourChange_level,
    quality_level, trigger_level, nofun⟩

variable (exponential : Float → Float)

theorem typeOne_builds : (typeOne (α := Double exponential)).Builds := by
  apply ruleBase_builds
  intro drawing member
  obtain ⟨checked, drawable⟩ := drawings_drawable drawing member
  exact ⟨checked, fun sketch known => TermSketch.validate_shape (drawable sketch known) _⟩

theorem typeTwo_builds {exponential : Float → Float} (steady : Steady exponential) :
    (typeTwo (α := Double exponential)).Builds := by
  apply ruleBase_builds
  intro drawing member
  obtain ⟨checked, drawable⟩ := drawings_drawable drawing member
  exact ⟨checked, fun sketch known => TermSketch.validate_footprint steady (drawable sketch known)
    (drawings_level drawing member sketch known) _⟩

end BuiltIn

end Handover.Inference
