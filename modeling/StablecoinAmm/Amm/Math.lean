import StablecoinAmm.Stablecoin.State
import StablecoinAmm.Support.Loops
import StablecoinAmm.Support.Outcome

/-!
# Amm — the quotes (`math.rs`)

The pricing functions, in the order of the source.  Values are natural numbers; every operation
the source checks is checked here against the same machine word, so an overflow is an error and
not a larger number.  The two loops of `integer_sqrt` take a bound on their iterations;
`SqrtReturns` has them without one.
-/

namespace StablecoinAmm
open Support

namespace Amm

def feeDenominator : ℕ := 10000
def maxFeeBps : ℕ := 100
def minimumLiquidity : ℕ := 1000

inductive MathError where
  | zeroAmount
  | invalidFee
  | insufficientLiquidity
  | insufficientInitialLiquidity
  | zeroOutput
  | invalidLiquidityState
  | valueOutOfRange
  | mathOverflow
  deriving DecidableEq

structure SwapQuote where
  amountOut : ℕ
  newReserveIn : ℕ
  newReserveOut : ℕ
  deriving DecidableEq

structure InitialLiquidityQuote where
  lpToUser : ℕ
  lpToLock : ℕ
  deriving DecidableEq

structure AddLiquidityQuote where
  amountA : ℕ
  amountB : ℕ
  lpMinted : ℕ
  newReserveA : ℕ
  newReserveB : ℕ
  newLpSupply : ℕ
  deriving DecidableEq

structure RemoveLiquidityQuote where
  amountA : ℕ
  amountB : ℕ
  newReserveA : ℕ
  newReserveB : ℕ
  newLpSupply : ℕ
  deriving DecidableEq

/-- `while bit > value { bit >>= 2; }`, at most `fuel` times. -/
def shrinkBit (value : ℕ) : ℕ → ℕ → ℕ
  | 0, bit => bit
  | fuel + 1, bit => if bit > value then shrinkBit value fuel (bit >>> 2) else bit

/-- `while bit != 0 { … }`, at most `fuel` times; returns the final `root`. -/
def rootLoop : ℕ → ℕ → ℕ → ℕ → Except MathError ℕ
  | 0, _, _, root => pure root
  | fuel + 1, bit, remainder, root =>
      if bit ≠ 0 then do
        let candidate ← okOr (checkedAdd 128 root bit) .mathOverflow
        if remainder ≥ candidate then do
          let remainder ← okOr (checkedSub remainder candidate) .mathOverflow
          let root ← okOr (checkedAdd 128 (root >>> 1) bit) .mathOverflow
          rootLoop fuel (bit >>> 2) remainder root
        else
          rootLoop fuel (bit >>> 2) remainder (root >>> 1)
      else
        pure root

/-- `bit` starts at `1 << 126` and loses two bits an iteration, so sixty-four iterations of
either loop exhaust it. -/
def integerSqrt (value : ℕ) : Except MathError ℕ :=
  if value < 2 then
    pure value
  else
    let bit := shrinkBit value 64 (1 <<< 126)
    rootLoop 64 bit value 0

/-- `bit >>= 2`. -/
def dropDigit (bit : ℕ) : Except MathError ℕ := pure (bit >>> 2)

/-- What the second loop of `integer_sqrt` works on. -/
structure Digits where
  bit : ℕ
  remainder : ℕ
  root : ℕ

/-- One pass of the second loop. -/
def Digits.next (s : Digits) : Except MathError Digits := do
  let candidate ← okOr (checkedAdd 128 s.root s.bit) .mathOverflow
  if s.remainder ≥ candidate then do
    let remainder ← okOr (checkedSub s.remainder candidate) .mathOverflow
    let root ← okOr (checkedAdd 128 (s.root >>> 1) s.bit) .mathOverflow
    pure { bit := s.bit >>> 2, remainder, root }
  else
    pure { s with bit := s.bit >>> 2, root := s.root >>> 1 }

/-- `integer_sqrt(value)` returns `r`, its loops running as long as they run. -/
inductive SqrtReturns (value : ℕ) : Except MathError ℕ → Prop where
  | small (h : value < 2) : SqrtReturns value (.ok value)
  | loops {bit : ℕ} {r : Except MathError Digits} (h : ¬ value < 2)
      (hbit : Loop (fun bit => bit > value) dropDigit (1 <<< 126) (.ok bit))
      (hroot : Loop (fun s : Digits => s.bit ≠ 0) Digits.next ⟨bit, value, 0⟩ r) :
      SqrtReturns value (r.map Digits.root)

def ceilDiv (numerator denominator : ℕ) : Except MathError ℕ := do
  require (denominator ≠ 0) .zeroAmount
  let quotient := numerator / denominator
  if numerator % denominator = 0 then
    pure quotient
  else
    okOr (checkedAdd 128 quotient 1) .mathOverflow

def widen (value : ℕ) : Except MathError ℕ := do
  require (value ≤ maxSupplyCap) .valueOutOfRange
  pure value

/-- `u64::try_from`, then the cap. -/
def narrow (value : ℕ) : Except MathError ℕ := do
  require (value < 2 ^ 64) .valueOutOfRange
  require (value ≤ maxSupplyCap) .valueOutOfRange
  pure value

def quoteSwap (amountIn reserveIn reserveOut feeBps : ℕ) : Except MathError SwapQuote := do
  require (amountIn ≠ 0) .zeroAmount
  require (¬ (reserveIn = 0 ∨ reserveOut = 0)) .insufficientLiquidity
  require (feeBps ≤ maxFeeBps) .invalidFee
  let amountIn ← widen amountIn
  let reserveIn ← widen reserveIn
  let reserveOut ← widen reserveOut
  let feeMultiplier ← okOr (checkedSub feeDenominator feeBps) .invalidFee
  let inWithFee ← okOr (checkedMul 128 amountIn feeMultiplier) .mathOverflow
  let numerator ← okOr (checkedMul 128 inWithFee reserveOut) .mathOverflow
  let scaled ← okOr (checkedMul 128 reserveIn feeDenominator) .mathOverflow
  let denominator ← okOr (checkedAdd 128 scaled inWithFee) .mathOverflow
  let amountOut ← okOr (checkedDiv numerator denominator) .mathOverflow
  require (amountOut ≠ 0) .zeroOutput
  require (¬ amountOut ≥ reserveOut) .insufficientLiquidity
  let newReserveIn ← okOr (checkedAdd 128 reserveIn amountIn) .mathOverflow
  let newReserveOut ← okOr (checkedSub reserveOut amountOut) .mathOverflow
  let oldK ← okOr (checkedMul 128 reserveIn reserveOut) .mathOverflow
  let newK ← okOr (checkedMul 128 newReserveIn newReserveOut) .mathOverflow
  -- the fee stays in the pool, so the product cannot fall; the source checks it all the same
  require (¬ newK < oldK) .invalidLiquidityState
  let amountOut ← narrow amountOut
  let newReserveIn ← narrow newReserveIn
  let newReserveOut ← narrow newReserveOut
  pure { amountOut, newReserveIn, newReserveOut }

def quoteInitialLiquidity (amountA amountB : ℕ) : Except MathError InitialLiquidityQuote := do
  require (¬ (amountA = 0 ∨ amountB = 0)) .zeroAmount
  let amountA ← widen amountA
  let amountB ← widen amountB
  let product ← okOr (checkedMul 128 amountA amountB) .mathOverflow
  let lpTotal ← integerSqrt product
  let locked := minimumLiquidity
  require (¬ lpTotal ≤ locked) .insufficientInitialLiquidity
  let lpToUser ← okOr (checkedSub lpTotal locked) .mathOverflow
  let lpToUser ← narrow lpToUser
  pure { lpToUser, lpToLock := minimumLiquidity }

/-- The amounts a deposit is charged: `amount_a` and the `amount_b` its ratio requires, or the
other way round where that exceeds what is offered. -/
def chargedAmounts (aDesired bDesired reserveA reserveB : ℕ) : Except MathError (ℕ × ℕ) := do
  let scaledA ← okOr (checkedMul 128 aDesired reserveB) .mathOverflow
  -- required deposits round up: the pool never receives less than the ratio demands
  let bOptimal ← ceilDiv scaledA reserveA
  if bOptimal ≤ bDesired then
    pure (aDesired, bOptimal)
  else do
    let scaledB ← okOr (checkedMul 128 bDesired reserveA) .mathOverflow
    let aOptimal ← ceilDiv scaledB reserveB
    require (¬ aOptimal > aDesired) .valueOutOfRange
    pure (aOptimal, bDesired)

def quoteAddLiquidity (amountADesired amountBDesired reserveA reserveB lpSupply : ℕ) :
    Except MathError AddLiquidityQuote := do
  require (¬ (amountADesired = 0 ∨ amountBDesired = 0)) .zeroAmount
  require (¬ (reserveA = 0 ∨ reserveB = 0)) .insufficientLiquidity
  require (¬ lpSupply < minimumLiquidity) .invalidLiquidityState
  let aDesired ← widen amountADesired
  let bDesired ← widen amountBDesired
  let reserveA ← widen reserveA
  let reserveB ← widen reserveB
  let lpSupply ← widen lpSupply
  let charged ← chargedAmounts aDesired bDesired reserveA reserveB
  let amountA := charged.1
  let amountB := charged.2
  let scaledA ← okOr (checkedMul 128 amountA lpSupply) .mathOverflow
  let lpFromA ← okOr (checkedDiv scaledA reserveA) .mathOverflow
  let scaledB ← okOr (checkedMul 128 amountB lpSupply) .mathOverflow
  let lpFromB ← okOr (checkedDiv scaledB reserveB) .mathOverflow
  let lpMinted := min lpFromA lpFromB
  require (lpMinted ≠ 0) .zeroOutput
  let quotedA ← narrow amountA
  let quotedB ← narrow amountB
  let quotedLp ← narrow lpMinted
  let newReserveA ← okOr (checkedAdd 128 reserveA amountA) .mathOverflow
  let newReserveA ← narrow newReserveA
  let newReserveB ← okOr (checkedAdd 128 reserveB amountB) .mathOverflow
  let newReserveB ← narrow newReserveB
  let newLpSupply ← okOr (checkedAdd 128 lpSupply lpMinted) .mathOverflow
  let newLpSupply ← narrow newLpSupply
  pure { amountA := quotedA, amountB := quotedB, lpMinted := quotedLp, newReserveA, newReserveB,
         newLpSupply }

def quoteRemoveLiquidity (lpAmount reserveA reserveB lpSupply : ℕ) :
    Except MathError RemoveLiquidityQuote := do
  require (lpAmount ≠ 0) .zeroAmount
  require (¬ (reserveA = 0 ∨ reserveB = 0)) .insufficientLiquidity
  require (¬ lpSupply < minimumLiquidity) .invalidLiquidityState
  require (¬ lpAmount > lpSupply) .insufficientLiquidity
  let lpAmount ← widen lpAmount
  let reserveA ← widen reserveA
  let reserveB ← widen reserveB
  let lpSupply ← widen lpSupply
  let remainingLp ← okOr (checkedSub lpSupply lpAmount) .mathOverflow
  require (¬ remainingLp < minimumLiquidity) .insufficientLiquidity
  let scaledA ← okOr (checkedMul 128 lpAmount reserveA) .mathOverflow
  -- withdrawals round down, leaving any remainder with the pool
  let amountA ← okOr (checkedDiv scaledA lpSupply) .mathOverflow
  let scaledB ← okOr (checkedMul 128 lpAmount reserveB) .mathOverflow
  let amountB ← okOr (checkedDiv scaledB lpSupply) .mathOverflow
  require (¬ (amountA = 0 ∨ amountB = 0)) .zeroOutput
  let quotedA ← narrow amountA
  let quotedB ← narrow amountB
  let newReserveA ← okOr (checkedSub reserveA amountA) .mathOverflow
  let newReserveA ← narrow newReserveA
  let newReserveB ← okOr (checkedSub reserveB amountB) .mathOverflow
  let newReserveB ← narrow newReserveB
  let newLpSupply ← narrow remainingLp
  pure { amountA := quotedA, amountB := quotedB, newReserveA, newReserveB, newLpSupply }

end Amm

end StablecoinAmm
