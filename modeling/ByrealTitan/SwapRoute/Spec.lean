import ByrealTitan.Lib.LittleEndian

/-!
# `SwapRoute.Spec` — the builder's route legs and instruction data (`src/swap_route/mod.rs`)

The off-chain crate declares its own `Venue` and `SwapSpecInputV2` (the two-`Venue`-enums contract) and
writes the instruction data by hand. This module keeps that encoder as the source has it; that it agrees
with the program's derived decoder is `Correctness.RouteData`.
-/

namespace ByrealTitan.SwapRoute

open LittleEndian

/-- Single-byte instruction discriminator for `swap_route_v3`. -/
def SWAP_ROUTE_V3_DISCRIMINATOR : UInt8 := 42

/-- Weight value meaning "spend the entire available balance on this leg". -/
def ROUTE_WEIGHT_ALL : UInt32 := 1000000000

inductive Venue where
  | byrealClmm (zeroForOne : Bool)
deriving DecidableEq

/-- One route leg. `fromIdx` and `toIdx` are the source's `from` and `to`. -/
structure SwapSpecInputV2 where
  venue : Venue
  fromIdx : UInt8
  toIdx : UInt8
  weightNanos : UInt32
  nAccounts : UInt8
deriving DecidableEq

/-- `to_borsh_bytes`: the variant tag and its one field. -/
def Venue.toBorshBytes : Venue → List UInt8
  | .byrealClmm zeroForOne => [0, if zeroForOne then 1 else 0]

/-- The derived `BorshSerialize`: the five fields in order. -/
def SwapSpecInputV2.serialize (s : SwapSpecInputV2) : List UInt8 :=
  s.venue.toBorshBytes ++ [s.fromIdx] ++ [s.toIdx] ++ leBytes 4 s.weightNanos.toNat ++ [s.nAccounts]

/-- The `(amount, mints, swaps)` part, behind the discriminator. `swaps.len() as u32` keeps the low 32
    bits of the length. -/
def encodeSwapRouteV3Args (amount : UInt64) (mints : UInt8) (swaps : List SwapSpecInputV2) :
    List UInt8 :=
  leBytes 8 amount.toNat ++ [mints] ++ leBytes 4 (swaps.length % 2 ^ 32)
    ++ swaps.flatMap SwapSpecInputV2.serialize

/-- `encode_swap_route_v3_data`. -/
def encodeSwapRouteV3Data (amount : UInt64) (mints : UInt8) (swaps : List SwapSpecInputV2) :
    List UInt8 :=
  SWAP_ROUTE_V3_DISCRIMINATOR :: encodeSwapRouteV3Args amount mints swaps

end ByrealTitan.SwapRoute
