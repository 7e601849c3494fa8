import NiftyShield.Models.Common
import Mathlib.Algebra.Order.Ring.Rat
import Mathlib.Algebra.BigOperators.Group.List.Basic
import Mathlib.Data.List.Sort
import Mathlib.Order.Lattice

/-!
# Features of a scan

`derive_features` (`src/gamma/features.py`): the inputs of a signal that look back at earlier
scans of the same contract.

## Honest scope

A moment is its number of seconds. The square root of a decimal, which `Decimal.sqrt` and
`statistics.stdev` round, is a parameter.
-/

namespace NiftyShield.Gamma

/-- `LOOKBACK_TOLERANCE`, in seconds. -/
def lookbackTolerance : ℤ := 150

/-- `MIN_RETURNS`. -/
def minReturns : ℕ := 3

/-- An earlier evaluation of the same contract. -/
structure PriorScan where
  /-- When. -/
  «at» : ℕ
  /-- Spot. -/
  niftySpot : ℚ
  /-- Gamma. -/
  gammaVal : ℚ
  /-- Ask. -/
  bestAsk : ℚ
  /-- Open interest. -/
  oi : Option ℤ
  /-- Distance of the strike. -/
  distancePct : ℚ
  deriving DecidableEq

/-- What the signal stack and the log take from the look-back. -/
structure ScanFeatures where
  /-- Return of the spot over a quarter of an hour. -/
  underlyingReturn15m : Option ℚ
  /-- Distance a quarter of an hour ago. -/
  distancePct15mAgo : Option ℚ
  /-- Change of gamma over the move of the spot in five minutes. -/
  speed5m : Option ℚ
  /-- Change of the open interest in a quarter of an hour. -/
  oiVelocity15m : Option ℚ
  /-- The ask is not below the one of five minutes ago. -/
  optionPriceRising : Option Bool
  /-- Distance in standard deviations of the spot until the close. -/
  distanceSigma : Option ℚ

/-- `abs(p.at - target)`. -/
def awayFrom (target : ℤ) (p : PriorScan) : ℤ := |(p.at : ℤ) - target|

/-- `_nearest`: the earlier scan closest to some minutes ago. -/
def nearest (history : List PriorScan) (now minutes : ℕ) : Option PriorScan :=
  let target : ℤ := now - minutes * 60
  let close := history.filter fun p => p.at < now && awayFrom target p ≤ lookbackTolerance
  (close.insertionSort fun p q => awayFrom target p ≤ awayFrom target q).head?

/-- `_speed`. -/
def speed (direction spot gamma : ℚ) (prior : Option PriorScan) : Option ℚ :=
  prior.bind fun prior =>
    let dSpot := (spot - prior.niftySpot) * direction
    if dSpot ≤ 0 then none else some ((gamma - prior.gammaVal) / dSpot)

/-- `_oi_velocity`. -/
def oiVelocity (oi : Option ℤ) (prior : Option PriorScan) : Option ℚ := do
  let oi ← oi
  let prior ← prior
  let before ← prior.oi
  some ((oi - before : ℤ) / (max before 1 : ℤ))

/-- The returns between spots that follow each other, over positive ones. -/
def returnsOf : List ℚ → List ℚ
  | s :: s' :: rest => if 0 < s then (s' / s - 1) :: returnsOf (s' :: rest) else returnsOf (s' :: rest)
  | _ => []

/-- `statistics.stdev`. -/
def sampleStdev (sqrt : ℚ → ℚ) (rets : List ℚ) : ℚ :=
  let mean := rets.sum / rets.length
  sqrt ((rets.map fun r => (r - mean) * (r - mean)).sum / (rets.length - 1))

/-- The second part of `_rvol_and_sigma`. -/
def sigmaDistance (sqrt : ℚ → ℚ) (now closeAt : ℕ) (spot distancePct : ℚ) (history : List PriorScan) : Option ℚ :=
  let points := (history.filter fun p => (now : ℤ) - 15 * 60 - lookbackTolerance ≤ p.at && p.at < now).insertionSort
    fun p q => p.at < q.at ∨ p.at = q.at ∧ p.niftySpot ≤ q.niftySpot
  let rets := returnsOf (points.map (·.niftySpot) ++ [spot])
  if rets.length < minReturns then none
  else
    let left := max ((((closeAt : ℤ) - now : ℤ) : ℚ) / 60 / 5) 1
    let scaled := sampleStdev sqrt rets * sqrt left
    if scaled ≤ 0 then none else some (distancePct / scaled)

/-- `derive_features`. -/
def deriveFeatures (sqrt : ℚ → ℚ) (now closeAt : ℕ) (direction spot gamma ask : ℚ) (oi : Option ℤ) (distancePct : ℚ)
    (history : List PriorScan) : ScanFeatures :=
  let p5 := nearest history now 5
  let p15 := nearest history now 15
  { underlyingReturn15m := p15.map fun p => spot / p.niftySpot - 1
    distancePct15mAgo := p15.map (·.distancePct)
    speed5m := speed direction spot gamma p5
    oiVelocity15m := oiVelocity oi p15
    optionPriceRising := p5.map fun p => decide (p.bestAsk ≤ ask)
    distanceSigma := sigmaDistance sqrt now closeAt spot distancePct history }

end NiftyShield.Gamma
