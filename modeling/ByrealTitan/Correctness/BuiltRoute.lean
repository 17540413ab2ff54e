import ByrealTitan.Correctness.Lifecycle
import ByrealTitan.Correctness.RouteLegs
import ByrealTitan.SwapRoute.Route

/-!
# `Correctness.BuiltRoute` — the instruction a client sends is the route the program runs

Two crates meet in one instruction. The client writes data and accounts; Anchor's code selects the
handler, decodes the arguments and takes the accounts off the list; the handler cuts the leg out of what
is left. `built_route_enters` follows one instruction all the way: sent to an initialised program it is
never refused before the handler, the handler runs on the amount, mints and leg the client meant, with
the client's payer and TitanPDA, and the one CPI it makes is the instruction of the venue.
-/

namespace ByrealTitan.SwapRoute

open Clmm Adapter LittleEndian Program

variable {X : Crates} {P : Platform} {associatedTokenProgram payer titanPda : Pubkey}
  {venue : Adapter.ByrealClmmVenue X} {request : QuoteRequest} {ix : Instruction} {bump : UInt8} {b : Bank}

/-- What the runtime passes for the metas of an instruction that is alone in its transaction. -/
def passed (metas : List AccountMeta) : List AccountInfo := metas.map fun m => loaded metas m.pubkey

/-- The parts of a built route instruction. -/
theorem buildRouteInstruction_cases (h : buildRouteInstruction associatedTokenProgram payer titanPda
      venue request = .ok ix) :
    ∃ inputAta outputAta titanInputAta titanOutputAta spec legAccounts,
      buildSwapLeg venue request titanPda 0 1 ROUTE_WEIGHT_ALL = .ok (spec, legAccounts) ∧
      ix.accounts = routeAccounts associatedTokenProgram payer titanPda inputAta outputAta titanInputAta
        titanOutputAta request.inputMint request.outputMint X.SPL_TOKEN_ID X.SPL_TOKEN_2022_ID ++
          legAccounts ∧
      ix.data = encodeSwapRouteV3Data request.amount 2 [spec] := by
  unfold buildRouteInstruction at h
  simp only [Except.bind_eq_ok, Except.pure_eq_ok] at h
  obtain ⟨inputToken, -, outputToken, -, ⟨spec, legAccounts⟩, hleg, rfl⟩ := h
  exact ⟨_, _, _, _, spec, legAccounts, hleg, rfl, rfl⟩

/-- The mint indices of a leg, as the program reads them. -/
theorem buildSwapLeg_indices {fromIdx dest : UInt8} {weight : UInt32} {spec : SwapSpecInputV2}
    {accounts : List AccountMeta}
    (h : buildSwapLeg venue request titanPda fromIdx dest weight = .ok (spec, accounts)) :
    (RouteData.toProgram spec).fromIdx = fromIdx ∧ (RouteData.toProgram spec).toIdx = dest := by
  unfold buildSwapLeg at h
  simp only [Except.bind_eq_ok, Except.pure_eq_ok] at h
  obtain ⟨-, -, swapIx, -, ⟨z⟩, -, h⟩ := h
  obtain ⟨rfl, -⟩ := Prod.mk.inj h
  exact ⟨rfl, rfl⟩

/-- The program decodes the data of a one-leg route to that leg. -/
theorem decode_route_data (amount : UInt64) (mints : UInt8) (spec : SwapSpecInputV2) :
    swapRouteV3Args.decode ((encodeSwapRouteV3Data amount mints [spec]).drop
      SwapRouteV3.DISCRIMINATOR.length) = some ((amount, mints, [RouteData.toProgram spec]), []) := by
  have hfit : swapRouteV3Args.Fits (amount, mints, [RouteData.toProgram spec]) :=
    swapRouteV3Args_fits.mpr (by simp)
  have hdecode := swapRouteV3Args.decode_encode hfit []
  rw [List.append_nil] at hdecode
  have hargs : encodeSwapRouteV3Args amount mints [spec] =
      swapRouteV3Args.encode (amount, mints, [spec].map RouteData.toProgram) :=
        RouteData.encodeArgs_eq (by simp)
  show swapRouteV3Args.decode (encodeSwapRouteV3Args amount mints [spec]) = _
  rw [hargs]
  exact hdecode

/-- Data behind the route's discriminator goes to the route. -/
theorem process_route (accounts : Accounts) (amount : UInt64) (mints : UInt8)
    (swaps : List SwapSpecInputV2) :
    process P accounts (encodeSwapRouteV3Data amount mints swaps) b =
      SwapRouteV3.process P accounts
        ((encodeSwapRouteV3Data amount mints swaps).drop SwapRouteV3.DISCRIMINATOR.length) b := rfl

/-! ## The context of a client's route -/

/-- The addresses a client's route names. -/
structure ClientRoute where
  associatedTokenProgram : Pubkey
  payer : Pubkey
  titanPda : Pubkey
  inputAta : Pubkey
  outputAta : Pubkey
  titanInputAta : Pubkey
  titanOutputAta : Pubkey
  inputMint : Pubkey
  outputMint : Pubkey
  splToken : Pubkey
  splToken2022 : Pubkey
  legAccounts : List AccountMeta
  /-- A leg has at most 22 accounts and its program. -/
  leg_le : legAccounts.length ≤ 23

namespace ClientRoute

variable (r : ClientRoute)

/-- The metas of its instruction. -/
def metas : List AccountMeta :=
  routeAccounts r.associatedTokenProgram r.payer r.titanPda r.inputAta r.outputAta r.titanInputAta
    r.titanOutputAta r.inputMint r.outputMint r.splToken r.splToken2022 ++ r.legAccounts

theorem length_metas : r.metas.length = r.legAccounts.length + 16 := by
  rw [metas, List.length_append, Nat.add_comm]
  rfl

/-- The accounts the program is entered with. -/
def accounts : Accounts :=
  ⟨passed r.metas, by
    rw [passed, List.length_map, length_metas]
    exact Nat.le_trans (Nat.add_le_add_right r.leg_le 16) (by decide)⟩

/-- What it makes of them. -/
def ctx (bump : UInt8) : Ctx where
  payer := loaded r.metas r.payer
  user := loaded r.metas r.payer
  titanPda := loaded r.metas r.titanPda
  bump
  inputTokenAccount := loaded r.metas r.inputAta
  outputTokenAccount := loaded r.metas r.outputAta
  tokenProgram := loaded r.metas r.splToken
  token2022Program := loaded r.metas r.splToken2022
  systemProgram := loaded r.metas SYSTEM_PROGRAM_ID
  tokenLedger := none
  remainingAccounts :=
    [loaded r.metas r.titanInputAta, loaded r.metas r.titanOutputAta, loaded r.metas r.inputMint,
      loaded r.metas r.outputMint] ++ r.legAccounts.map fun m => loaded r.metas m.pubkey
  remaining_le := by
    rw [List.length_append, List.length_map]
    exact Nat.le_trans (Nat.add_le_add_left r.leg_le 4) (by decide)

/-- The program's own address is read as no account. -/
theorem absent (tx : List AccountMeta) : (loaded tx Program.ID).optional = none := if_pos rfl

theorem privileges {m : AccountMeta} (h : m ∈ routeAccounts r.associatedTokenProgram r.payer r.titanPda
      r.inputAta r.outputAta r.titanInputAta r.titanOutputAta r.inputMint r.outputMint r.splToken
        r.splToken2022) :
    (m.isSigner → (loaded r.metas m.pubkey).isSigner) ∧
    (m.isWritable → (loaded r.metas m.pubkey).isWritable) :=
  loaded_privileges (List.mem_append_left _ h)

/-- **Every account is where the declaration asks for it**, with the privileges it asks for. -/
theorem accepts (hlive : Initialized P r.titanPda bump b) :
    SwapRouteV3.Accepts P r.accounts b (r.ctx bump) := by
  have hpayer := r.privileges (m := .new r.payer true) (by simp [routeAccounts])
  have hinput := r.privileges (m := .new r.inputAta false) (by simp [routeAccounts])
  have houtput := r.privileges (m := .new r.outputAta false) (by simp [routeAccounts])
  refine ⟨⟨loaded r.metas r.associatedTokenProgram, loaded r.metas Program.ID, loaded r.metas Program.ID,
    loaded r.metas Program.ID, ?_, (absent _).symm⟩, ⟨hpayer.1 rfl, hpayer.1 rfl⟩, ⟨hpayer.2 rfl,
    hpayer.2 rfl⟩,
    ⟨hinput.2 rfl, houtput.2 rfl⟩, rfl, hlive.stored, findProgramAddress_derives hlive.found⟩
  show passed r.metas = _
  rw [passed]
  conv_lhs => rw [metas, List.map_append]
  rfl

/-- Behind the ATAs and mints stand the accounts of the leg. -/
theorem region (leg : BuiltLeg X (r.ctx bump).titanPda.key) (hleg : leg.accounts = r.legAccounts) :
    RegionOf (r.ctx bump) r.metas 2 [leg] := by
  refine ⟨?_, ?_⟩
  · show 4 ≤ (_ ++ _ : List AccountInfo).length
    rw [List.length_append]
    exact Nat.le_add_right _ _
  · rw [List.flatMap_cons, List.flatMap_nil, List.append_nil, hleg]
    rfl

/-- One leg from the first mint to the second is a valid route. -/
theorem valid {swap : Program.SwapSpecInputV2} (hfrom : swap.fromIdx = 0) (hto : swap.toIdx = 1) :
    validate (r.ctx bump) 2 [swap] = .ok () := by
  have hlen : 4 ≤ (r.ctx bump).remainingAccounts.length := by
    show 4 ≤ (_ ++ _ : List AccountInfo).length
    rw [List.length_append]
    exact Nat.le_add_right _ _
  unfold validate
  simp [Res.require, Res.orPanic, hfrom, hto, MAX_SWAPS, MAX_MINTS, hlen]

end ClientRoute

/-! ## The whole way -/

/-- **The instruction a client sends is the route the program runs.** For every updated venue and every
    request a route instruction is built for: the initialised program accepts its accounts and decodes its
    data, and what runs is `execute` on the request's amount, two mints and the one leg, with the client
    as payer and user, the canonical TitanPDA as signer, and no ledger. The route is valid; its leg takes
    exactly the accounts behind the ATAs and mints; and what it invokes for the request's amount is the
    venue's own instruction. -/
theorem built_route_enters (hupdated : Adapter.ByrealClmmVenue.Updated venue)
    (hlive : Initialized P titanPda bump b)
    (hdata : ∀ amount threshold limit, X.swapV3DynData amount threshold limit true =
      Program.SWAP_V3_DYN_DISCRIMINATOR ++ leBytes 8 amount.toNat ++ leBytes 8 threshold.toNat
        ++ leBytes 16 limit ++ [1])
    (hix : buildRouteInstruction associatedTokenProgram payer titanPda venue request = .ok ix) :
    ∃ (accounts : Accounts) (ctx : Ctx) (leg : BuiltLeg X ctx.titanPda.key),
      accounts.1 = passed ix.accounts ∧ (leg.venue = venue ∧ leg.request = request) ∧
      process P accounts ix.data b =
        entered (execute P.toRuntime ctx request.amount 2 (legSpecs [leg]) b) ∧
      (ctx.payer.key = payer ∧ ctx.user.key = payer ∧ ctx.titanPda.key = titanPda ∧ ctx.bump = bump ∧
        ctx.tokenLedger = none) ∧
      validate ctx 2 (legSpecs [leg]) = .ok () ∧
      (∀ reserved b, legStep P.toRuntime ctx reserved ⟨4, b⟩ (RouteData.toProgram leg.spec) = (do
        let n ← legInputAmount ctx reserved b (RouteData.toProgram leg.spec)
        let b ← legInvocation P.toRuntime ix.accounts leg n b
        return ⟨ctx.remainingAccounts.length, b⟩)) ∧
      ∃ swapIx, venue.generateSwapInstruction request titanPda = .ok swapIx ∧
        SameCall (legInstruction ix.accounts leg request.amount) swapIx := by
  obtain ⟨inputAta, outputAta, titanInputAta, titanOutputAta, spec, legAccounts, hbuilt,
      haccounts, hixdata⟩ :=
    buildRouteInstruction_cases hix
  let leg₀ : BuiltLeg X titanPda := ⟨venue, request, 0, 1, ROUTE_WEIGHT_ALL, spec, legAccounts,
    hupdated, hbuilt⟩
  obtain ⟨swapIx, hswap, -, -, -, hle⟩ := leg₀.parts
  let r : ClientRoute := ⟨associatedTokenProgram, payer, titanPda, inputAta, outputAta, titanInputAta,
    titanOutputAta, request.inputMint, request.outputMint, X.SPL_TOKEN_ID, X.SPL_TOKEN_2022_ID,
    legAccounts, hle⟩
  let leg : BuiltLeg X (r.ctx bump).titanPda.key := leg₀
  have hmetas : ix.accounts = r.metas := haccounts
  have hregion : RegionOf (r.ctx bump) r.metas 2 ([] ++ leg :: []) := r.region leg rfl
  have hentered : process P r.accounts ix.data b =
      entered (execute P.toRuntime (r.ctx bump) request.amount 2 (legSpecs [leg]) b) := by
    rw [hixdata, process_route, SwapRouteV3.process, decode_route_data]
    have hchecks := SwapRouteV3.tryAccounts_eq_ok.mpr (r.accepts hlive)
    simp only [Res.orErr, Except.ok_bind, hchecks]
    rfl
  have hspec := buildSwapLeg_indices hbuilt
  have hstop : (r.ctx bump).remainingAccounts.length = 4 + leg.accounts.length := by
    rw [hregion.length, legStart, List.nil_append, List.flatMap_cons, List.flatMap_nil, List.append_nil]
  refine ⟨r.accounts, r.ctx bump, leg, by rw [hmetas]; rfl, ⟨rfl, rfl⟩, hentered, ⟨rfl, rfl, rfl, rfl,
    rfl⟩, r.valid hspec.1 hspec.2, ?_, swapIx, hswap, ?_⟩
  · intro reserved b
    rw [hmetas, hstop]
    exact legStep_built leg hregion reserved b
  · rw [hmetas]
    exact sameCall leg hdata hswap fun m hm => List.mem_append_right _ hm

/-! ## The sample client -/

/-- The sample life, after `initialize`. -/
def initializedBank : Bank :=
  Function.update emptyBank canonicalPda ⟨953520, TitanPda.serialize 255, Program.ID⟩

theorem initializedBank_initialized :
    Initialized (platform Reference.Sample.exchange) canonicalPda 255 initializedBank where
  found := by decide +kernel
  owner := by rw [initializedBank, Function.update_self]
  data := by rw [initializedBank, Function.update_self]

/-- A client swaps 1000 of the first mint of the sample market for the second. -/
theorem built_route_enters_sample :
    ∃ (ix : Instruction) (accounts : Accounts) (ctx : Ctx) (leg : BuiltLeg Sample.X ctx.titanPda.key),
      buildRouteInstruction (Pubkey.fill 77) Reference.Sample.payer canonicalPda Sample.refreshed
        sampleRequest = .ok ix ∧
      process (platform Reference.Sample.exchange) accounts ix.data initializedBank =
        entered (execute (platform Reference.Sample.exchange).toRuntime ctx 1000 2 (legSpecs [leg])
          initializedBank) ∧
      ctx.titanPda.key = canonicalPda := by
  obtain ⟨ix, hix⟩ : ∃ ix, buildRouteInstruction (Pubkey.fill 77) Reference.Sample.payer canonicalPda
      Sample.refreshed sampleRequest = .ok ix := Except.exists_of_failure? (by decide +kernel)
  obtain ⟨accounts, ctx, leg, -, -, hrun, ⟨-, -, htitan, -, -⟩, -, -, -⟩ :=
    built_route_enters Adapter.ByrealClmmVenue.refreshed_updated initializedBank_initialized
      (fun _ _ _ => rfl) hix
  exact ⟨ix, accounts, ctx, leg, hix, hrun, htitan⟩

end ByrealTitan.SwapRoute
