import Mathlib.Data.List.Basic
import ByrealTitan.Program.State
import ByrealTitan.SwapRoute.Spec

/-!
# `Correctness.RouteData` — the two crates agree on the instruction data

The builder (`SwapRoute.encodeSwapRouteV3Data`) writes the header by hand; the program
(`Program.swapRouteV3Args`) reads it with a derive on a separately declared type. The bridge is
`encodeArgs_eq`: below the `u32` length bound the handwritten bytes *are* the derived encoding of the
same legs. Both round trips and the uniqueness of encodings then come from the `Codec` laws.
-/

namespace ByrealTitan.RouteData

open LittleEndian SwapRoute

/-! ## The two leg types carry the same data -/

def toProgram (s : SwapSpecInputV2) : Program.SwapSpecInputV2 :=
  match s.venue with
  | .byrealClmm z => ⟨.byrealClmm z, s.fromIdx, s.toIdx, s.weightNanos, s.nAccounts⟩

def toBuilder (s : Program.SwapSpecInputV2) : SwapSpecInputV2 :=
  match s.venue with
  | .byrealClmm z => ⟨.byrealClmm z, s.fromIdx, s.toIdx, s.weightNanos, s.nAccounts⟩

theorem toProgram_toBuilder (s : Program.SwapSpecInputV2) : toProgram (toBuilder s) = s := by
  obtain ⟨⟨z⟩, f, t, w, n⟩ := s
  rfl

theorem toBuilder_toProgram (s : SwapSpecInputV2) : toBuilder (toProgram s) = s := by
  obtain ⟨⟨z⟩, f, t, w, n⟩ := s
  rfl

theorem toProgram_injective : Function.Injective toProgram :=
  Function.LeftInverse.injective toBuilder_toProgram

theorem map_toProgram_toBuilder (ss : List Program.SwapSpecInputV2) :
    (ss.map toBuilder).map toProgram = ss := by
  rw [List.map_map, show toProgram ∘ toBuilder = id from funext toProgram_toBuilder, List.map_id]

/-! ## The handwritten encoder is the derived one -/

/-- One leg serializes to the bytes of the program's derive. -/
theorem serialize_eq (s : SwapSpecInputV2) :
    s.serialize = Program.SwapSpecInputV2.codec.encode (toProgram s) := by
  obtain ⟨⟨z⟩, f, t, w, n⟩ := s
  cases z <;> rfl

theorem flatMap_serialize_eq (swaps : List SwapSpecInputV2) :
    swaps.flatMap SwapSpecInputV2.serialize
      = (swaps.map toProgram).flatMap Program.SwapSpecInputV2.codec.encode := by
  induction swaps with
  | nil => rfl
  | cons s swaps ih => rw [List.flatMap_cons, ih, serialize_eq, List.map_cons, List.flatMap_cons]

/-- Below the `u32` bound the handwritten argument bytes are the derived encoding. -/
theorem encodeArgs_eq {amount : UInt64} {mints : UInt8} {swaps : List SwapSpecInputV2}
    (h : swaps.length < 2 ^ 32) :
    encodeSwapRouteV3Args amount mints swaps
      = Program.swapRouteV3Args.encode (amount, mints, swaps.map toProgram) := by
  have hcast : swaps.length % 2 ^ 32 = (swaps.map toProgram).length := by
    rw [List.length_map, Nat.mod_eq_of_lt h]
  unfold encodeSwapRouteV3Args
  rw [hcast, flatMap_serialize_eq]
  show _ = leBytes 8 amount.toNat ++ ([mints] ++ (leBytes 4 _ ++ _))
  simp only [List.append_assoc]

/-- The program reads the builder's argument bytes back, up to their last byte. -/
theorem read_encodeArgs {amount : UInt64} {mints : UInt8} {swaps : List SwapSpecInputV2}
    (h : swaps.length < 2 ^ 32) :
    Program.swapRouteV3Args.read (encodeSwapRouteV3Args amount mints swaps)
      = some (amount, mints, swaps.map toProgram) := by
  have hfit : Program.swapRouteV3Args.Fits (amount, mints, swaps.map toProgram) :=
    Program.swapRouteV3Args_fits.mpr (by rwa [List.length_map])
  exact (Program.swapRouteV3Args.read_eq_some).mpr ⟨hfit, encodeArgs_eq h⟩

/-- Whatever the program reads to the last byte is the builder's encoding of what it read. -/
theorem encodeArgs_of_read {bs : List UInt8} {amount : UInt64} {mints : UInt8}
    {swaps : List Program.SwapSpecInputV2}
    (h : Program.swapRouteV3Args.read bs = some (amount, mints, swaps)) :
    swaps.length < 2 ^ 32 ∧ bs = encodeSwapRouteV3Args amount mints (swaps.map toBuilder) := by
  obtain ⟨hfit, rfl⟩ := (Program.swapRouteV3Args.read_eq_some).mp h
  have hlen : swaps.length < 2 ^ 32 := Program.swapRouteV3Args_fits.mp hfit
  refine ⟨hlen, ?_⟩
  rw [encodeArgs_eq (by rwa [List.length_map]), map_toProgram_toBuilder]

/-! ## The round trip -/

/-- **Route instruction data round-trips between the two crates.** Behind the discriminator, the
    program reads back exactly the amount, mints and legs the builder wrote; every byte string the
    program reads with nothing left over is the builder's encoding of what it read; and no two routes
    share their data. -/
theorem route_data_roundtrip :
    (∀ (amount : UInt64) (mints : UInt8) (swaps : List SwapSpecInputV2), swaps.length < 2 ^ 32 →
      ∃ args, encodeSwapRouteV3Data amount mints swaps = SWAP_ROUTE_V3_DISCRIMINATOR :: args ∧
        Program.swapRouteV3Args.decode args = some ((amount, mints, swaps.map toProgram), [])) ∧
    (∀ (args : List UInt8) (amount : UInt64) (mints : UInt8) (swaps : List Program.SwapSpecInputV2),
      Program.swapRouteV3Args.decode args = some ((amount, mints, swaps), []) →
        swaps.length < 2 ^ 32 ∧
        SWAP_ROUTE_V3_DISCRIMINATOR :: args
          = encodeSwapRouteV3Data amount mints (swaps.map toBuilder)) ∧
    (∀ (amount amount' : UInt64) (mints mints' : UInt8) (swaps swaps' : List SwapSpecInputV2),
      swaps.length < 2 ^ 32 → swaps'.length < 2 ^ 32 →
      encodeSwapRouteV3Data amount mints swaps = encodeSwapRouteV3Data amount' mints' swaps' →
        amount = amount' ∧ mints = mints' ∧ swaps = swaps') := by
  refine ⟨?_, ?_, ?_⟩
  · intro amount mints swaps h
    refine ⟨_, rfl, ?_⟩
    have hfit : Program.swapRouteV3Args.Fits (amount, mints, swaps.map toProgram) :=
      Program.swapRouteV3Args_fits.mpr (by rwa [List.length_map])
    have hdec := Program.swapRouteV3Args.decode_encode hfit []
    rwa [List.append_nil, ← encodeArgs_eq h] at hdec
  · intro args amount mints swaps h
    have hread : Program.swapRouteV3Args.read args = some (amount, mints, swaps) := by
      simp only [Codec.read, h]
    obtain ⟨hlen, rfl⟩ := encodeArgs_of_read hread
    exact ⟨hlen, rfl⟩
  · intro amount amount' mints mints' swaps swaps' h h' heq
    have hargs := (List.cons.inj heq).2
    have h1 : Program.swapRouteV3Args.read (encodeSwapRouteV3Args amount mints swaps)
        = some (amount, mints, swaps.map toProgram) := read_encodeArgs h
    rw [hargs, read_encodeArgs h'] at h1
    obtain ⟨ha, hm, hs⟩ : amount' = amount ∧ mints' = mints ∧
        swaps'.map toProgram = swaps.map toProgram := by simpa using h1
    exact ⟨ha.symm, hm.symm, (List.map_injective_iff.mpr toProgram_injective hs).symm⟩

/-- The encoding of a two-leg route, read back by the program. -/
theorem route_data_roundtrip_two_legs :
    Program.swapRouteV3Args.decode
        (encodeSwapRouteV3Data 5000 2
          [⟨.byrealClmm true, 0, 1, ROUTE_WEIGHT_ALL, 3⟩, ⟨.byrealClmm false, 1, 0, 7, 24⟩]).tail
      = some ((5000, 2,
          [⟨.byrealClmm true, 0, 1, ROUTE_WEIGHT_ALL, 3⟩, ⟨.byrealClmm false, 1, 0, 7, 24⟩]), []) := by
  obtain ⟨args, hargs, hdec⟩ := route_data_roundtrip.1 5000 2
    [⟨.byrealClmm true, 0, 1, ROUTE_WEIGHT_ALL, 3⟩, ⟨.byrealClmm false, 1, 0, 7, 24⟩] (by decide)
  rw [hargs]
  exact hdec

end ByrealTitan.RouteData
