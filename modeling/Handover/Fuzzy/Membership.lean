import Handover.Fuzzy.Error

/-!
# Membership functions

The shapes that describe a linguistic term.  A shouldered bell stays at its
height on one side of the mean; the outermost terms of a variable are usually
drawn that way.
-/

namespace Handover.Fuzzy

open Scalar

/-- Shape of a linguistic term. -/
inductive Membership (α : Type) where
  /-- A Gaussian bell around `mean`. -/
  | gaussian (mean sigma height : α)
  /-- A bell that stays at its height below `mean`. -/
  | lowShoulder (mean sigma height : α)
  /-- A bell that stays at its height above `mean`. -/
  | highShoulder (mean sigma height : α)
  /-- A triangle: left foot, peak, right foot. -/
  | triangular (left peak right : α)
  /-- A trapezoid: left foot, left and right end of the top, right foot. -/
  | trapezoidal (left leftTop rightTop right : α)
deriving BEq, Repr

namespace Membership

variable {α : Type} [Scalar α]

/-- The Gaussian bell. -/
def bell (mean sigma height x : α) : α :=
  height * exp (-((x - mean) * (x - mean)) / (two * sigma * sigma))

/-- Height of a triangle. -/
def triangle (left peak right x : α) : α :=
  if x ≤ left ∨ right ≤ x then
    if Same x peak then 1 else 0
  else if x ≤ peak then (x - left) / (peak - left)
  else (right - x) / (right - peak)

/-- Height of a trapezoid. -/
def trapezoid (left leftTop rightTop right x : α) : α :=
  if leftTop ≤ x ∧ x ≤ rightTop then 1
  else if x ≤ left ∨ right ≤ x then 0
  else if x < leftTop then (x - left) / (leftTop - left)
  else (right - x) / (right - rightTop)

/-- Height of the shape at `x`. -/
def height : Membership α → α → α
  | gaussian mean sigma top, x => bell mean sigma top x
  | lowShoulder mean sigma top, x => if x < mean then top else bell mean sigma top x
  | highShoulder mean sigma top, x => if mean < x then top else bell mean sigma top x
  | triangular left peak right, x => triangle left peak right x
  | trapezoidal left leftTop rightTop right, x => trapezoid left leftTop rightTop right x

/-- Degree to which `x` belongs to the term, in `[0, 1]`. -/
def degree (shape : Membership α) (x : α) : α :=
  clampUnit (shape.height x)

/-- Checks the parameters of a bell. -/
def checkBell (mean sigma top : α) : Except ShapeFault Unit :=
  if !isFinite mean then .error .infiniteMean
  else if ¬(isFinite sigma ∧ 0 < sigma) then .error .badSigma
  else if ¬(0 < top ∧ top ≤ 1) then .error .badHeight
  else .ok ()

/-- Checks the parameters of a shape. -/
def check : Membership α → Except ShapeFault Unit
  | gaussian mean sigma top => checkBell mean sigma top
  | lowShoulder mean sigma top => checkBell mean sigma top
  | highShoulder mean sigma top => checkBell mean sigma top
  | triangular left peak right =>
    if ¬(isFinite left ∧ isFinite peak ∧ isFinite right) then .error .infiniteVertex
    else if ¬(left ≤ peak ∧ peak ≤ right ∧ left < right) then .error .unorderedTriangle
    else .ok ()
  | trapezoidal left leftTop rightTop right =>
    if ¬(isFinite left ∧ isFinite leftTop ∧ isFinite rightTop ∧ isFinite right) then
      .error .infiniteVertex
    else if ¬(left ≤ leftTop ∧ leftTop ≤ rightTop ∧ rightTop ≤ right) then
      .error .unorderedTrapezoid
    else .ok ()

/-- Checks the parameters of the shape of a named term. -/
def validate (term : String) (shape : Membership α) : Except (FuzzyError α) Unit :=
  match shape.check with
  | .ok () => .ok ()
  | .error fault => .error (.invalidMembership term fault)

end Membership

end Handover.Fuzzy
