import ByrealTitan.Lib.Codec

/-!
# `Program.State` — the route program's wire types (`program/.../src/state.rs`)

The program declares its own `Venue` and `SwapSpecInputV2` and reads them with the derived Anchor (Borsh)
format: fields in declaration order, one tag byte for an enum, `0`/`1` for a Boolean, little-endian
integers, and a `u32` length in front of a vector. Each derive is a `Codec` assembled from the
combinators of `Lib.Codec`.
-/

namespace ByrealTitan.Program

def MAX_SWAPS : Nat := 12
def MAX_MINTS : Nat := 12

/-- The seed of the TitanPDA, the ASCII text `titan_pda`. -/
def TitanPda.SEED : List UInt8 := [116, 105, 116, 97, 110, 95, 112, 100, 97]

inductive Venue where
  | byrealClmm (zeroForOne : Bool)
deriving DecidableEq

/-- One route leg. `fromIdx` and `toIdx` are the source's `from` and `to`. -/
structure SwapSpecInputV2 where
  venue : Venue
  fromIdx : UInt8
  toIdx : UInt8
  weightNanos : UInt32
  nAccounts : UInt8
deriving DecidableEq

/-! ## The derived formats -/

def u32 : Codec UInt32 :=
  (Codec.word 4).iso UInt32.ofNat UInt32.toNat (fun h => UInt32.toNat_ofNat_of_lt' h)
    (fun _ => UInt32.ofNat_toNat)

def u64 : Codec UInt64 :=
  (Codec.word 8).iso UInt64.ofNat UInt64.toNat (fun h => UInt64.toNat_ofNat_of_lt' h)
    (fun _ => UInt64.ofNat_toNat)

/-- `#[derive(AnchorSerialize, AnchorDeserialize)]` on `Venue`: variant `0`, then its field. -/
def Venue.codec : Codec Venue :=
  ((Codec.tag 0).prod Codec.flag).iso (fun p => .byrealClmm p.2)
    (fun | .byrealClmm z => ((), z)) (fun _ => rfl) (by rintro ⟨z⟩; rfl)

/-- The derive on `SwapSpecInputV2`: the five fields in order. -/
def SwapSpecInputV2.codec : Codec SwapSpecInputV2 :=
  (Venue.codec.prod (Codec.byte.prod (Codec.byte.prod (u32.prod Codec.byte)))).iso
    (fun p => ⟨p.1, p.2.1, p.2.2.1, p.2.2.2.1, p.2.2.2.2⟩)
    (fun s => (s.venue, s.fromIdx, s.toIdx, s.weightNanos, s.nAccounts))
    (fun _ => rfl) (fun _ => rfl)

/-- The arguments of `swap_route_v3` behind the discriminator: `(u64, u8, Vec<SwapSpecInputV2>)`. -/
def swapRouteV3Args : Codec (UInt64 × UInt8 × List SwapSpecInputV2) :=
  u64.prod (Codec.byte.prod (Codec.vec 4 SwapSpecInputV2.codec))

/-- Only the `u32` length bounds the values the argument format has room for. -/
theorem swapRouteV3Args_fits {amount : UInt64} {mints : UInt8} {swaps : List SwapSpecInputV2} :
    swapRouteV3Args.Fits (amount, mints, swaps) ↔ swaps.length < 2 ^ 32 := by
  constructor
  · exact fun h => h.2.2.1
  · intro h
    refine ⟨amount.toNat_lt, trivial, h, ?_⟩
    exact fun s _ => ⟨⟨trivial, trivial⟩, trivial, trivial, s.weightNanos.toNat_lt, trivial⟩

end ByrealTitan.Program
