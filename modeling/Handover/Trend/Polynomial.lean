import Handover.Trend.Elimination

/-!
# Trend prediction

A polynomial is fitted through the samples at the times 0, 1, …, n − 1 by least
squares and continued to the time n.  Its degree grows with the number of
samples: constant for one, linear for two or three, quadratic from four on.
-/

namespace Handover.Trend

open Scalar

variable {α : Type} [Scalar α]

/-- Degree of the polynomial through `n` samples. -/
def fitDegree (n : Nat) : UInt64 :=
  if n < 2 then 0 else if n < 4 then 1 else 2

/-- Powers `t ^ k` of the sample times. -/
def timePowers (n k : Nat) : List α :=
  (List.range n).map fun t => power (ofNat t) k

/-- The sum of a power of the sample times over the samples.  A polynomial of a single
term has it added in lanes. -/
def moment (samples powers : List α) (terms : Nat) : α :=
  if terms = 1 then laneDot powers samples else dot powers samples

/-- The condition that the residuals are orthogonal to one column of powers of the
sample times; there is a column for each term. -/
def normalEquation (samples : List α) (columns : List (List α)) (powers : List α) :
    Equation α where
  coefficients := columns.map (blockDot powers)
  constant := moment samples powers columns.length

/-- The conditions for the polynomial of some terms that is nearest to the samples. -/
def normalEquations (samples : List α) (terms : Nat) : List (Equation α) :=
  let columns := (List.range terms).map (timePowers samples.length)
  columns.map (normalEquation samples columns)

/-- Number of terms of a polynomial, a 64-bit word like its degree. -/
def termCount (degree : UInt64) : Nat :=
  (degree + 1).toNat

/-- Coefficients, lowest order first, of the least-squares polynomial of a
given degree, unless there are fewer samples than coefficients. -/
def fitPolynomial? (samples : List α) (degree : UInt64) : Option (List α) :=
  let terms := termCount degree
  if samples.length < terms then none else solve? terms (normalEquations samples terms)

/-- Value of a polynomial, given its coefficients from the lowest order. -/
def evaluatePolynomial (coefficients : List α) (t : α) : α :=
  coefficients.foldr (fun c value => value * t + c) 0

/-- Continuation of the samples by one step. -/
def predictNext? (samples : List α) : Option α :=
  if samples.isEmpty then none
  else
    (fitPolynomial? samples (fitDegree samples.length)).map fun coefficients =>
      evaluatePolynomial coefficients (ofNat samples.length)

/-- Whose samples are continued. -/
inductive Role where
  /-- The serving cell. -/
  | serving
  /-- A neighbour of it. -/
  | neighbour
deriving DecidableEq, Repr

/-- Predicted quality of a cell and its change against the last sample.  A lone
sample of the serving cell is expected to rise by one step, a lone sample of a
neighbour to stay. -/
def forecast? (role : Role) (samples : List α) : Option (α × α) :=
  match samples.getLast? with
  | none => none
  | some last =>
    let predicted :=
      if samples.length = 1 ∧ role = .serving then some (last + 1) else predictNext? samples
    predicted.map fun next => (next, next - last)

end Handover.Trend
