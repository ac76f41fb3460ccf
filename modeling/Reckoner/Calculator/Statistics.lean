import Reckoner.Calculator.Operand

/-!
# Statistics

Mean, population variance and standard deviation of doubles.  The order in which
doubles are added decides the last bits of a sum, so it is part of the
definition: short lists from left to right, middling ones in eight lanes, long
ones in two halves.
-/

namespace Reckoner

namespace Calculator

/-- Adds the first `blocks` blocks of eight to the lanes; gives the lanes and what is left. -/
def addBlocks : Nat -> List Float -> List Float -> List Float × List Float
  | 0, lanes, rest => (lanes, rest)
  | blocks + 1, lanes, rest =>
      addBlocks blocks (List.zipWith (· + ·) lanes (rest.take 8)) (rest.drop 8)

def joinLanes : List Float -> Float
  | [a, b, c, d, e, f, g, h] => ((a + b) + (c + d)) + ((e + f) + (g + h))
  | lanes => lanes.foldl (· + ·) 0

/-- The sum of at least eight doubles in eight lanes, with an incomplete last block at the end. -/
def laneSum (xs : List Float) : Float :=
  let (lanes, rest) := addBlocks (xs.length / 8 - 1) (xs.take 8) (xs.drop 8)
  rest.foldl (· + ·) (joinLanes lanes)

/-- The pairwise sum; `fuel` bounds how often a list is halved. -/
def pairwise : Nat -> List Float -> Float
  | 0, xs => xs.foldl (· + ·) (-0.0)
  | fuel + 1, xs =>
      if xs.length < 8 then xs.foldl (· + ·) (-0.0)
      else if xs.length ≤ 128 then laneSum xs
      else
        let half := xs.length / 2
        let cut := half - half % 8
        pairwise fuel (xs.take cut) + pairwise fuel (xs.drop cut)

/-- The sum of doubles. A list of `n` cannot be halved more than `n` times. -/
def sumFloats (xs : List Float) : Float :=
  0.0 + pairwise xs.length xs

def meanOf (xs : List Float) : Float :=
  sumFloats xs / Float.ofNat xs.length

def varianceOf (xs : List Float) : Float :=
  let center := meanOf xs
  meanOf (xs.map fun x => (x - center) * (x - center))

def toFloats : List Number -> Except Fault (List Float)
  | [] => .ok []
  | n :: rest => do
      let x <- toFloat n
      let xs <- toFloats rest
      return x :: xs

def sample (operation : String) (operands : List Operand) : Except Fault (List Float) :=
  if operands.isEmpty then .error (.emptySample operation)
  else do
    let ns <- numbers operation operands
    toFloats ns

def mean (operands : List Operand) : Except Fault Number := do
  let xs <- sample "mean" operands
  return .float (meanOf xs)

/-- The population variance of a sample. -/
def variance (operands : List Operand) : Except Fault Number := do
  let xs <- sample "variance" operands
  return .float (varianceOf xs)

def stddev (operands : List Operand) : Except Fault Number := do
  let xs <- sample "stddev" operands
  return .float (Float.sqrt (varianceOf xs))

end Calculator

end Reckoner
