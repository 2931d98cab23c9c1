import Handover.Numeric.Scalar

/-!
# Sums of products

The sum of the products of paired numbers, in three orders of addition.  Over
exact scalars all three are the same; over scalars that round, the order and the
number of roundings show in the last places.
-/

namespace Handover.Trend

open Scalar

variable {α : Type} [Scalar α]

/-- Sum of numbers, added from the left. -/
def sumOf (xs : List α) : α :=
  xs.foldl (fun sum x => sum + x) 0

/-- Sum of the products of paired numbers, added from the left. -/
def dot (xs ys : List α) : α :=
  sumOf (List.zipWith (fun x y => x * y) xs ys)

/-! ## Lanes -/

/-- Number of lanes. -/
def laneCount : Nat :=
  8

/-- Adds full rows of numbers to as many lanes; what is left is no full row. -/
def addRows (lanes numbers : List α) : List α × List α :=
  if laneCount ≤ numbers.length then
    addRows (List.zipWith (fun lane x => lane + x) lanes numbers) (numbers.drop laneCount)
  else (lanes, numbers)
termination_by numbers.length
decreasing_by
  simp only [List.length_drop]
  have : 0 < laneCount := by decide
  omega

/-- Sum of numbers in lanes: each lane and the one half the row further are added
first, then these sums, and at last the numbers that are left. -/
def laneSum (numbers : List α) : α :=
  let (lanes, others) := addRows (List.replicate laneCount 0) numbers
  let half := laneCount / 2
  sumOf (List.zipWith (fun x y => x + y) (lanes.take half) (lanes.drop half) ++ others)

/-- Sum of the products of paired numbers in lanes. -/
def laneDot (xs ys : List α) : α :=
  laneSum (List.zipWith (fun x y => x * y) xs ys)

/-! ## Blocks -/

/-- Number of pairs in a block. -/
def blockSize : Nat :=
  256

/-- Sum of the products of paired numbers, rounded once for each pair. -/
def fusedDot (pairs : List (α × α)) : α :=
  pairs.foldl (fun sum (x, y) => mulAdd x y sum) 0

/-- Continues a sum by the products of paired numbers, block by block. -/
def addBlocks (sum : α) (pairs : List (α × α)) : α :=
  if blockSize < pairs.length then
    addBlocks (sum + fusedDot (pairs.take blockSize)) (pairs.drop blockSize)
  else sum + fusedDot pairs
termination_by pairs.length
decreasing_by
  simp only [List.length_drop]
  have : 0 < blockSize := by decide
  omega

/-- Sum of the products of paired numbers, each block rounded once for each pair. -/
def blockDot (xs ys : List α) : α :=
  addBlocks 0 (xs.zip ys)

end Handover.Trend
