import ByrealTitan.Base.Errors

/-!
# `TradingVenue.Bounds` — the search for quoting bounds (`src/trading_venue/bounds.rs`)

An exponential search for the first valid quote and for the first invalid one above it, and a bisection of
each of the two gaps. Each loop takes the number of turns it may make; `SEARCH_TURNS` of them always
suffice. Errors of the quoting function count as invalid quotes, panics do not.
-/

namespace ByrealTitan

/-- `u64::MAX`. -/
def U64_MAX : Nat := 2 ^ 64 - 1

/-- Each step in exponential search is scaled by this factor. -/
def SCALING_FACTOR : Nat := 2

/-- `saturating_mul(SCALING_FACTOR)`. -/
def scaleUp (x : Nat) : Nat := min (x * SCALING_FACTOR) U64_MAX

/-- A quote usable for routing: enough liquidity, and a positive output. -/
def validQuote (quote : QuoteResult) : Bool :=
  !(quote.notEnoughLiquidity || decide (quote.expectedOutput = 0))

variable (f : Nat → VenueRes QuoteResult)

/-- Whether an amount quotes validly; an error does not. -/
def probe (x : Nat) : VenueRes Bool :=
  match f x with
  | .ok result      => .ok (validQuote result)
  | .error (.err _) => .ok false
  | .error .panic   => Res.panic
  | .error .diverge => .error .diverge

/-- More turns than any of the loops makes on 64-bit amounts. -/
def SEARCH_TURNS : Nat := 65

/-- Phase 1: double until a quote is valid. -/
def expandLower : (fuel : Nat) → (low high : Nat) → VenueRes (Nat × Nat)
  | 0,        _,   _    => .error .diverge
  | fuel + 1, low, high => do
      let valid ← probe f high
      if valid then return (low, high)
      else if scaleUp high ≤ high ∨ scaleUp high = U64_MAX then return (high, U64_MAX)
      else expandLower fuel high (scaleUp high)

/-- Phase 2: double until a quote is no longer valid. -/
def expandUpper : (fuel : Nat) → (low high : Nat) → VenueRes (Nat × Nat)
  | 0,        _,   _    => .error .diverge
  | fuel + 1, low, high => do
      let valid ← probe f high
      if valid then
        if scaleUp high ≤ high ∨ scaleUp high = U64_MAX then return (high, U64_MAX)
        else expandUpper fuel high (scaleUp high)
      else return (low, high)

/-- `(lower_low, lower_high, upper_low, upper_high)`. -/
def findBoundariesCoarse : VenueRes (Nat × Nat × Nat × Nat) := do
  let (lowerLow, lowerHigh) ← expandLower f SEARCH_TURNS 0 1
  if scaleUp lowerHigh ≤ lowerHigh then return (lowerLow, lowerHigh, lowerHigh, lowerHigh)
  else
    let (upperLow, upperHigh) ← expandUpper f SEARCH_TURNS lowerHigh (scaleUp lowerHigh)
    return (lowerLow, lowerHigh, upperLow, upperHigh)

/-- The middle of two amounts, without overflow. -/
def middle (low high : Nat) : Nat := high / 2 + low / 2

/-- Bisect a gap whose upper end is valid. -/
def refineLower : (fuel : Nat) → (low high : Nat) → VenueRes Nat
  | 0,        _,   _    => .error .diverge
  | fuel + 1, low, high => do
      let gap ← Res.checkedSub high low
      if 100 < gap then
        let valid ← probe f (middle low high)
        if valid then refineLower fuel low (middle low high)
        else refineLower fuel (middle low high) high
      else return high

/-- Bisect a gap whose lower end is valid. -/
def refineUpper : (fuel : Nat) → (low high : Nat) → VenueRes Nat
  | 0,        _,   _    => .error .diverge
  | fuel + 1, low, high => do
      let gap ← Res.checkedSub high low
      if 100 < gap then
        let valid ← probe f (middle low high)
        if valid then refineUpper fuel (middle low high) high
        else refineUpper fuel low (middle low high)
      else return low

def findBoundaries : VenueRes (Nat × Nat) := do
  let (lowerLow, lowerHigh, upperLow, upperHigh) ← findBoundariesCoarse f
  Res.require (lowerLow ≠ upperHigh) (.boundarySearchFailed (.staticStr
    "Search boundaries are all equal; search space collapsed"))
  Res.require (lowerHigh ≠ U64_MAX) (.noQuotableValue (.staticStr
    "No quotable value found; exponential search hit u64::MAX"))
  let lowerBound ← refineLower f SEARCH_TURNS lowerLow lowerHigh
  let upperBound ← refineUpper f SEARCH_TURNS upperLow upperHigh
  return (lowerBound, upperBound)

end ByrealTitan
