import ByrealTitan.TradingVenue.Bounds
import ByrealTitan.TradingVenue.TokenInfo
import Mathlib.Data.List.Nodup
import Mathlib.Data.List.ProdSigma

/-!
# `TradingVenue.Contract` — the trait and its default methods (`src/trading_venue/mod.rs`)

A trait object is the record of the methods an implementer has to give; the methods with a default body are
functions on the record.
-/

namespace ByrealTitan

/-- The required methods of `TradingVenue` that the default ones read. -/
structure TradingVenue where
  tokenInfo : List TokenInfo
  protocol : PoolProtocol
  quote : QuoteRequest → VenueRes QuoteResult

namespace TradingVenue

variable (v : TradingVenue)

/-! ## Default methods -/

/-- `u8::try_from`. -/
def u8TryFrom (n : Nat) : Option UInt8 := if n < 256 then some (UInt8.ofNat n) else none

/-- The token indices that a `u8` holds. -/
def indices : List UInt8 := (List.range v.tokenInfo.length).filterMap u8TryFrom

def directionsNum : List (UInt8 × UInt8) :=
  v.indices.flatMap fun i => (v.indices.filter fun j => decide (j ≠ i)).map fun j => (i, j)

def getToken (i : Nat) : VenueRes TokenInfo := Res.orErr (.tokenInfoIndexError i) v.tokenInfo[i]?

def label : String := v.protocol.label

/-- The closure whose bounds the default `bounds` searches. -/
def quoteExactIn (inputMint outputMint : Pubkey) (x : Nat) : VenueRes QuoteResult :=
  v.quote { amount := UInt64.ofNat x, swapType := .exactIn, inputMint, outputMint }

def bounds (tknInInd tknOutInd : UInt8) : VenueRes (Nat × Nat) := do
  let input ← v.getToken tknInInd.toNat
  let output ← v.getToken tknOutInd.toNat
  findBoundaries (v.quoteExactIn input.pubkey output.pubkey)

/-! ## The directions -/

theorem u8TryFrom_eq_some {n : Nat} {i : UInt8} : u8TryFrom n = some i ↔ n = i.toNat := by
  unfold u8TryFrom
  constructor
  · intro h
    split at h
    next hn =>
      cases h
      exact (UInt8.toNat_ofNat_of_lt' hn).symm
    next => cases h
  · rintro rfl
    rw [if_pos i.toNat_lt, UInt8.ofNat_toNat]

theorem mem_indices {i : UInt8} : i ∈ v.indices ↔ i.toNat < v.tokenInfo.length := by
  unfold indices
  rw [List.mem_filterMap]
  constructor
  · rintro ⟨n, hn, hi⟩
    rw [← u8TryFrom_eq_some.mp hi]
    exact List.mem_range.mp hn
  · intro hi
    exact ⟨i.toNat, List.mem_range.mpr hi, u8TryFrom_eq_some.mpr rfl⟩

/-- **The directions are the pairs of two different tokens.** -/
theorem mem_directionsNum {i j : UInt8} :
    (i, j) ∈ v.directionsNum ↔ i ≠ j ∧ i.toNat < v.tokenInfo.length ∧ j.toNat < v.tokenInfo.length := by
  unfold directionsNum
  rw [List.mem_flatMap]
  constructor
  · rintro ⟨i', hi', hpair⟩
    obtain ⟨j', hj', heq⟩ := List.mem_map.mp hpair
    obtain ⟨rfl, rfl⟩ := Prod.mk.inj heq
    obtain ⟨hj, hne⟩ := List.mem_filter.mp hj'
    exact ⟨(of_decide_eq_true hne).symm, v.mem_indices.mp hi', v.mem_indices.mp hj⟩
  · rintro ⟨hne, hi, hj⟩
    refine ⟨i, v.mem_indices.mpr hi, List.mem_map.mpr
      ⟨j, List.mem_filter.mpr ⟨v.mem_indices.mpr hj, ?_⟩, rfl⟩⟩
    exact decide_eq_true hne.symm

end TradingVenue

end ByrealTitan
