import OppNet.Random.Uniform
import OppNet.Random.Ziggurat

/-!
# OppNet.Random.Distribution

The distributions a scenario can name. `flaw?` is what is wrong with the parameters of one, if
anything; `sample` draws from it.
-/

namespace OppNet.Random

inductive Distribution where
  | always (value : Float)
  | uniform (min max : Float)
  | normal (mean stdDev : Float)
  | exponential (mean : Float)
  deriving DecidableEq, Repr

inductive DistributionFlaw where
  | constantNotFinite
  | boundsNotOrdered
  | normalNotProper
  | meanNotPositive
  deriving DecidableEq, Repr

def DistributionFlaw.message : DistributionFlaw → String
  | constantNotFinite => "Constant value must be finite!"
  | boundsNotOrdered => "Uniform bounds must be finite with min < max!"
  | normalNotProper => "Normal needs a finite mean and a non-negative std_dev!"
  | meanNotPositive => "Exponential mean must be positive!"

namespace Distribution

def flaw? : Distribution → Option DistributionFlaw
  | always value => if value.isFinite then none else some .constantNotFinite
  | uniform min max =>
    if !(min.isFinite && max.isFinite) || min ≥ max then some .boundsNotOrdered else none
  | normal mean stdDev =>
    if !(mean.isFinite && stdDev.isFinite) || stdDev < 0.0 then some .normalNotProper else none
  | exponential mean =>
    if !mean.isFinite || mean ≤ 0.0 then some .meanNotPositive else none

/-- Draws a number; a constant takes nothing from the source. -/
def sample {σ : Type} [Source σ] : Distribution → Draw σ Float
  | always value => pure value
  | uniform min max => Uniform.double min max
  | normal mean stdDev =>
    if stdDev.isFinite then do
      let z ← Ziggurat.normal
      return mean + stdDev * z
    else Draw.fail .unsampleable
  | exponential mean =>
    let rate := 1.0 / mean
    if rate ≥ 0.0 then do
      let x ← Ziggurat.exponential
      return x * (1.0 / rate)
    else Draw.fail .unsampleable

end Distribution

inductive IntegerDistribution where
  | always (value : Nat)
  /-- From `min` on and below `max`. -/
  | uniform (min max : Nat)
  deriving DecidableEq, Repr

def IntegerDistribution.sample {σ : Type} [Source σ] : IntegerDistribution → Draw σ Nat
  | always value => pure value
  | uniform min max => Uniform.integer min max

end OppNet.Random
