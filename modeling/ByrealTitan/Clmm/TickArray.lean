import ByrealTitan.Clmm.Crates
import ByrealTitan.Lib.Fault
import ByrealTitan.Lib.LittleEndian
import Mathlib.Data.List.Infix

/-!
# `Clmm.TickArray` — tick arrays (`src/byreal_clmm/core.rs`)

A tick array is either a fixed snapshot of `TICK_ARRAY_SIZE` slots, read and searched by the venue itself,
or a dynamic array searched by the crate. The four search loops over a snapshot walk consecutive slots in
one direction until an initialised one; they are one `scan` with the offset to start from, the step and
the number of slots left. Indexing out of bounds is a panic.
-/

namespace ByrealTitan.Clmm

open LittleEndian

variable {X : Crates} {ε : Type}

/-- An `i32` operation: overflow panics. -/
def checkedI32 (x : Int) : Res ε Int := if -2 ^ 31 ≤ x ∧ x < 2 ^ 31 then .ok x else Res.panic

/-- An `i128` operation: overflow panics. -/
def checkedI128 (x : Int) : Res ε Int := if -2 ^ 127 ≤ x ∧ x < 2 ^ 127 then .ok x else Res.panic

/-- An `i64` operation: overflow panics. -/
def checkedI64 (x : Int) : Res ε Int := if -2 ^ 63 ≤ x ∧ x < 2 ^ 63 then .ok x else Res.panic

/-- A little-endian `i32`. -/
def readI32 (bytes : List UInt8) : Int :=
  let n := leNat bytes
  if n < 2 ^ 31 then n else (n : Int) - 2 ^ 32

/-! ## Fixed snapshots -/

/-- `ticks` is the array `[TickState; TICK_ARRAY_SIZE]`, by its indices. -/
structure FixedTickArraySnapshot (X : Crates) where
  startTickIndex : Int
  ticks : Fin X.TICK_ARRAY_SIZE → TickState

namespace FixedTickArraySnapshot

/-- Behind the discriminator: pool id (32 bytes), start tick (4 bytes), the tick slots. -/
def fromAccountData (data : List UInt8) : Option (FixedTickArraySnapshot X) :=
  if data.length < 8 then none
  else
    let body := data.drop 8
    let ticksOffset := 32 + 4
    let ticksLen := X.TICK_STATE_SIZE * X.TICK_ARRAY_SIZE
    if body.length < ticksOffset + ticksLen then none
    else
      let ticksBytes := (body.drop ticksOffset).take ticksLen
      some {
        startTickIndex := readI32 ((body.drop 32).take 4)
        ticks := fun i =>
          X.readTickState ((ticksBytes.drop (i.val * X.TICK_STATE_SIZE)).take X.TICK_STATE_SIZE) }

variable (ta : FixedTickArraySnapshot X)

/-- `self.ticks[i]`. -/
def slot (i : Nat) : Res ε TickState :=
  if h : i < X.TICK_ARRAY_SIZE then .ok (ta.ticks ⟨i, h⟩) else Res.panic

/-- `self.ticks[offset as usize]`; a negative offset wraps far out of bounds. -/
def tickAt (offset : Int) : Res ε TickState :=
  if 0 ≤ offset then ta.slot offset.toNat else Res.panic

/-- The first initialised slot among `count` slots from `offset` on, `step` apart. -/
def scan (step : Int) : (count : Nat) → (offset : Int) → Res ε (Option Int)
  | 0,         _      => .ok none
  | count + 1, offset => do
      let tick ← ta.tickAt offset
      if tick.isInitialized then return some tick.tick
      else scan step count (offset + step)

def tickOffset (tickIndex : Int) (spacing : Nat) : Option Nat :=
  if X.getArrayStartIndex tickIndex spacing ≠ ta.startTickIndex then none
  else (X.getTickOffsetInTickArray ta.startTickIndex tickIndex spacing).toOption

/-- `(current_tick_index - self.start_tick_index) / i32::from(tick_spacing)`. -/
def slotOffset (currentTickIndex : Int) (tickSpacing : Nat) : Res ε Int := do
  let distance ← checkedI32 (currentTickIndex - ta.startTickIndex)
  if tickSpacing = 0 then Res.panic else .ok (distance.tdiv tickSpacing)

def nextInitializedTick (currentTickIndex : Int) (tickSpacing : Nat) (zeroForOne : Bool) :
    Res ε (Option Int) :=
  if X.getArrayStartIndex currentTickIndex tickSpacing ≠ ta.startTickIndex then .ok none
  else do
    let offset ← ta.slotOffset currentTickIndex tickSpacing
    if zeroForOne then ta.scan (-1) (offset + 1).toNat offset
    else ta.scan 1 ((X.TICK_ARRAY_SIZE : Int) - (offset + 1)).toNat (offset + 1)

def firstInitializedTick (zeroForOne : Bool) : Res ε (Option Int) :=
  if zeroForOne then ta.scan (-1) X.TICK_ARRAY_SIZE ((X.TICK_ARRAY_SIZE : Int) - 1)
  else ta.scan 1 X.TICK_ARRAY_SIZE 0

def getTickLiquidityNet (tickIndex : Int) (spacing : Nat) : Res ε (Option Int) :=
  match ta.tickOffset tickIndex spacing with
  | none        => .ok none
  | some offset => do
      let tick ← ta.slot offset
      return some tick.liquidityNet

end FixedTickArraySnapshot

/-! ## Either kind -/

inductive DynamicTickArrayState (X : Crates) where
  | dynamic (header : DynTickArrayState) (ticks : List TickState)
  | fixed (ta : FixedTickArraySnapshot X)

namespace DynamicTickArrayState

def startTickIndex : DynamicTickArrayState X → Int
  | .dynamic header _ => header.startTickIndex
  | .fixed ta         => ta.startTickIndex

/-- `chunks_exact`, on a length that is a multiple of the size. -/
def chunksExact (size : Nat) : (count : Nat) → List UInt8 → List (List UInt8)
  | 0,         _     => []
  | count + 1, bytes => bytes.take size :: chunksExact size count (bytes.drop size)

def decodeDynTickArray (data : List UInt8) : Option (DynTickArrayState × List TickState) :=
  if data.length < 8 then none
  else if data.take 8 ≠ X.DYN_TICK_ARRAY_DISCRIMINATOR then none
  else if data.length < X.DYN_TICK_ARRAY_HEADER_LEN then none
  else
    let header := X.readDynTickArray ((data.take X.DYN_TICK_ARRAY_HEADER_LEN).drop 8)
    let ticksBytes := data.drop X.DYN_TICK_ARRAY_HEADER_LEN
    if X.TICK_STATE_SIZE = 0 ∨ ticksBytes.length % X.TICK_STATE_SIZE ≠ 0 then none
    else
      let chunks := chunksExact X.TICK_STATE_SIZE (ticksBytes.length / X.TICK_STATE_SIZE) ticksBytes
      some (header, chunks.map X.readTickState)

def fromAccountData (data : List UInt8) : Option (DynamicTickArrayState X) :=
  if data.length < 8 then none
  else if data.take 8 = X.DYN_TICK_ARRAY_DISCRIMINATOR then
    (decodeDynTickArray (X := X) data).map fun p => .dynamic p.1 p.2
  else if data.take 8 = X.TICK_ARRAY_DISCRIMINATOR then
    (FixedTickArraySnapshot.fromAccountData data).map .fixed
  else none

def nextInitializedTick (curTick : Int) (spacing : Nat) (zeroForOne : Bool) :
    DynamicTickArrayState X → Res ε (Option Int)
  | .dynamic header ticks =>
      match X.dynNextInitializedTickIndex header ticks curTick spacing zeroForOne with
      | .ok (some localIdx) => do
          let tick ← Res.orPanic ticks[localIdx]?
          return some tick.tick
      | _ => .ok none
  | .fixed ta => ta.nextInitializedTick curTick spacing zeroForOne

def firstInitializedTick (zeroForOne : Bool) : DynamicTickArrayState X → Res ε (Option Int)
  | .dynamic header ticks =>
      match X.dynFirstInitializedTickIndex header ticks zeroForOne with
      | .ok localIdx => do
          let tick ← Res.orPanic ticks[localIdx]?
          return some tick.tick
      | .error _ => .ok none
  | .fixed ta => ta.firstInitializedTick zeroForOne

def getTickLiquidityNet (tickIndex : Int) (spacing : Nat) :
    DynamicTickArrayState X → Res ε (Option Int)
  | .dynamic header ticks =>
      match X.dynGetTickIndexInArray header tickIndex spacing with
      | .ok i => do
          let tick ← Res.orPanic ticks[i]?
          return some tick.liquidityNet
      | .error _ => .ok none
  | .fixed ta => ta.getTickLiquidityNet tickIndex spacing

end DynamicTickArrayState

end ByrealTitan.Clmm
