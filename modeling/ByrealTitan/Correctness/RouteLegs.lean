import ByrealTitan.Correctness.Prepared
import ByrealTitan.Correctness.RouteData
import ByrealTitan.Correctness.Updated
import ByrealTitan.SwapRoute.Leg

/-!
# `Correctness.RouteLegs` — the program executes the legs the builder described

The builder counts the accounts of a leg with the trailing program id, and clears the TitanPDA's signer
flag; the program cuts the same number of accounts out of the concatenation, names the last one as the
program, and signs for the TitanPDA again. `legs_execute_as_built` puts the two together over a whole list
of legs: every leg is cut out at its place, and its CPI is the instruction the venue generated.
-/

namespace ByrealTitan.SwapRoute

open Clmm Adapter LittleEndian

variable {X : Crates}

/-! ## The instruction of a leg -/

/-- At most `count` arrays follow the first one. -/
theorem length_followTickArrays (core : CoreByrealClmmVenue X) (zeroForOne : Bool) (count : Nat)
    (start : Int) : (core.followTickArrays zeroForOne count start).length ≤ count := by
  induction count generalizing start with
  | zero => simp [ByrealClmmVenue.followTickArrays]
  | succ count ih =>
      unfold ByrealClmmVenue.followTickArrays
      split
      next next _ =>
        have := ih next
        rw [List.length_cons]
        omega
      next => simp

theorem length_swapStarts (core : CoreByrealClmmVenue X) (zeroForOne : Bool) :
    (core.swapStarts zeroForOne).length ≤ core.maxOneSideTickArrays - 1 + 1 := by
  unfold ByrealClmmVenue.swapStarts
  split
  next _ start _ =>
    have := length_followTickArrays core zeroForOne (core.maxOneSideTickArrays - 1) start
    rw [List.length_cons]
    omega
  next => simp [ByrealClmmVenue.fallbackSwapStarts, ByrealClmmVenue.fallbackOffsets]

/-- The arrays that are kept are among those listed. -/
theorem length_keepLive {core : CoreByrealClmmVenue X} {keys live kept : List Pubkey}
    (h : core.keepLive keys live = .ok kept) : kept.length ≤ live.length + keys.length := by
  induction keys generalizing live with
  | nil =>
      cases h
      simp
  | cons key keys ih =>
      unfold ByrealClmmVenue.keepLive at h
      split at h
      · have := ih h
        rw [List.length_append] at this
        simp only [List.length_cons, List.length_nil] at this ⊢
        omega
      · split at h
        · cases h
        · have := ih h
          rw [List.length_cons]
          omega

/-- The parts of an instruction that was built. -/
theorem buildSwapInstruction_eq_ok {core : CoreByrealClmmVenue X} {request : SwapBuildRequest}
    {ix : Instruction} (h : core.buildSwapInstruction request = .ok ix) :
    ∃ zeroForOne outputIs0 live oracles, core.validateMints request.sourceMint request.destinationMint =
        .ok (zeroForOne, outputIs0) ∧
      core.liveDirectionalTickArrays zeroForOne = .ok live ∧ core.oracleAccounts = .ok oracles ∧
      ix = { programId := core.programId
             accounts := core.leadingAccounts zeroForOne request ++ live.map (fun key => .new key false)
               ++ oracles
             data := X.swapV3DynData request.amount request.otherAmountThreshold 0 true } := by
  unfold ByrealClmmVenue.buildSwapInstruction at h
  simp only [Except.bind_eq_ok, Except.pure_eq_ok] at h
  obtain ⟨-, -, ⟨z, o⟩, hmints, live, hlive, oracles, horacles, rfl⟩ := h
  exact ⟨z, o, live, oracles, hmints, hlive, horacles, rfl⟩

theorem length_oracleAccounts {core : CoreByrealClmmVenue X} {oracles : List AccountMeta}
    (h : core.oracleAccounts = .ok oracles) : oracles.length ≤ 2 := by
  unfold ByrealClmmVenue.oracleAccounts at h
  split at h
  · simp only [Except.bind_eq_ok, Except.pure_eq_ok] at h
    obtain ⟨_, -, _, -, rfl⟩ := h
    exact le_rfl
  · cases h
    exact Nat.zero_le 2

/-- An instruction names at most 22 accounts. -/
theorem length_accounts_le {core : CoreByrealClmmVenue X} {request : SwapBuildRequest} {ix : Instruction}
    (hsides : core.maxOneSideTickArrays = 6) (h : core.buildSwapInstruction request = .ok ix) :
    ix.accounts.length ≤ 22 := by
  obtain ⟨z, o, live, oracles, -, hlive, horacles, rfl⟩ := buildSwapInstruction_eq_ok h
  have hkept : live.length ≤ 6 := by
    simp only [ByrealClmmVenue.liveDirectionalTickArrays, Except.bind_eq_ok, Except.pure_eq_ok] at hlive
    obtain ⟨kept, hkept, -, -, rfl⟩ := hlive
    have h1 := length_keepLive hkept
    have h2 := length_swapStarts core z
    simp only [ByrealClmmVenue.getSwapTickArrays, List.length_map, List.length_nil] at h1
    omega
  have horacle := length_oracleAccounts horacles
  simp only [List.length_append, List.length_map, ByrealClmmVenue.leadingAccounts, List.length_cons,
    List.length_nil]
  omega

/-- Which mint is the input decides which vault is. -/
theorem validateMints_eq_ok {core : CoreByrealClmmVenue X} {input output : Pubkey} {z o : Bool} :
    core.validateMints input output = .ok (z, o) →
      z = decide (input = core.reserveMints.1) ∧ (input = core.reserveMints.1 ∨
        input = core.reserveMints.2) ∧
        (output = core.reserveMints.1 ∨ output = core.reserveMints.2) ∧ input ≠ output := by
  intro h
  simp only [ByrealClmmVenue.validateMints, Except.bind_eq_ok, Except.pure_eq_ok, Res.require_eq_ok,
    decide_eq_true_eq, Prod.mk.injEq] at h
  obtain ⟨-, hin, -, hout, -, hne, hz, -⟩ := h
  exact ⟨hz.symm, hin, hout, hne⟩

/-! ## A built leg -/

/-- A leg that `build_swap_leg` made from an updated venue. -/
structure BuiltLeg (X : Crates) (titanPda : Pubkey) where
  venue : Adapter.ByrealClmmVenue X
  request : QuoteRequest
  fromIdx : UInt8
  dest : UInt8
  weightNanos : UInt32
  spec : SwapSpecInputV2
  accounts : List AccountMeta
  updated : Adapter.ByrealClmmVenue.Updated venue
  built : buildSwapLeg venue request titanPda fromIdx dest weightNanos = .ok (spec, accounts)

namespace BuiltLeg

variable {titanPda : Pubkey} (leg : BuiltLeg X titanPda)

/-- The leg's accounts are those of the venue's instruction, and its count is not cut. -/
theorem parts : ∃ ix, leg.venue.generateSwapInstruction leg.request titanPda = .ok ix ∧
    leg.accounts = assembleLegAccounts ix titanPda leg.venue.programId ∧
    protocolToVenue leg.venue leg.request = .ok leg.spec.venue ∧
    leg.spec.nAccounts.toNat = leg.accounts.length ∧ leg.accounts.length ≤ 23 := by
  have h := leg.built
  unfold buildSwapLeg at h
  simp only [Except.bind_eq_ok, Except.pure_eq_ok] at h
  obtain ⟨-, -, ix, hix, v, hv, h⟩ := h
  obtain ⟨hspec, haccounts⟩ := Prod.mk.inj h
  have hlen : ix.accounts.length ≤ 22 := by
    unfold Adapter.ByrealClmmVenue.generateSwapInstruction at hix
    simp only [Except.bind_eq_ok] at hix
    obtain ⟨-, -, -, -, _, -, _, -, hcore⟩ := hix
    exact length_accounts_le leg.updated.wellFormed.sides hcore
  have hleg : leg.accounts.length ≤ 23 := by
    rw [← haccounts, assembleLegAccounts, List.length_append, List.length_map]
    exact Nat.add_le_add_right hlen 1
  refine ⟨ix, hix, haccounts.symm, by rw [hv, ← hspec], ?_, hleg⟩
  rw [← hspec, haccounts, UInt8.toNat_ofNat_of_lt']
  exact Nat.lt_of_le_of_lt hleg (by decide)

end BuiltLeg

/-! ## The leg on chain -/

section

open Program

/-- What the runtime passes for an account: the union of what the metas of the transaction ask for it. -/
def loaded (tx : List AccountMeta) (key : Pubkey) : AccountInfo where
  key
  isSigner := tx.any fun m => decide (m.pubkey = key) && m.isSigner
  isWritable := tx.any fun m => decide (m.pubkey = key) && m.isWritable

/-- No privilege a meta of the transaction asks for is lost. -/
theorem loaded_privileges {tx : List AccountMeta} {m : AccountMeta} (h : m ∈ tx) :
    (m.isSigner → (loaded tx m.pubkey).isSigner) ∧ (m.isWritable → (loaded tx m.pubkey).isWritable) := by
  refine ⟨fun hs => List.any_eq_true.mpr ⟨m, h, ?_⟩, fun hw => List.any_eq_true.mpr ⟨m, h, ?_⟩⟩
  · simp [hs]
  · simp [hw]

variable {R : Runtime} {ctx : Ctx} {tx : List AccountMeta} (leg : BuiltLeg X ctx.titanPda.key)

/-- The accounts of a leg as the program finds them. -/
def legInfos (tx : List AccountMeta) (leg : BuiltLeg X ctx.titanPda.key) : List AccountInfo :=
  leg.accounts.map fun m => loaded tx m.pubkey

/-- The instruction the program issues for a leg that spends `n`. -/
def legInstruction (tx : List AccountMeta) (leg : BuiltLeg X ctx.titanPda.key) (n : UInt64) :
    Instruction where
  programId := leg.venue.programId
  accounts := ((legInfos tx leg).take (leg.accounts.length - 1)).map (legAccountMeta ctx)
  data := Program.SWAP_V3_DYN_DISCRIMINATOR ++ leBytes 8 n.toNat ++ leBytes 8 0 ++ leBytes 16 0 ++ [1]

/-- What the program invokes for a leg that spends `n`: nothing without an amount. -/
def legInvocation (R : Runtime) (tx : List AccountMeta) (leg : BuiltLeg X ctx.titanPda.key) (n : UInt64)
    (bank : Bank) : Exec Bank :=
  if 0 < n then
    invoked (R.invokeSigned (legInstruction tx leg n) (legInfos tx leg) (signerSeeds ctx) bank)
  else .ok bank

/-- An invocation does what an instruction asks: same program, same accounts in order, same data, and no
    privilege lost. -/
structure SameCall (cpi ix : Instruction) : Prop where
  programId : cpi.programId = ix.programId
  keys : cpi.accounts.map AccountMeta.pubkey = ix.accounts.map AccountMeta.pubkey
  data : cpi.data = ix.data
  privileges : ∀ (i : Nat) (a b : AccountMeta), ix.accounts[i]? = some a → cpi.accounts[i]? = some b →
    (a.isSigner → b.isSigner) ∧ (a.isWritable → b.isWritable)

theorem clearSigner_pubkey (titanPda : Pubkey) (m : AccountMeta) :
    (clearSigner titanPda m).pubkey = m.pubkey := by
  unfold clearSigner
  split <;> rfl

/-- What clearing the flag takes from the TitanPDA, the program gives back. -/
theorem legAccountMeta_privileges {m : AccountMeta} (h : clearSigner ctx.titanPda.key m ∈ tx) :
    (m.isSigner → (legAccountMeta ctx (loaded tx m.pubkey)).isSigner) ∧
      (m.isWritable → (legAccountMeta ctx (loaded tx m.pubkey)).isWritable) := by
  have hkeep := loaded_privileges h
  rw [clearSigner_pubkey] at hkeep
  by_cases hkey : m.pubkey = ctx.titanPda.key
  · refine ⟨fun _ => ?_, fun hw => hkeep.2 ?_⟩
    · simp [legAccountMeta, loaded, hkey]
    · simpa [clearSigner, hkey] using hw
  · rw [clearSigner, if_neg hkey] at hkeep
    refine ⟨fun hs => ?_, hkeep.2⟩
    simp [legAccountMeta, hkeep.1 hs]

/-- The accounts of the instruction are those of the leg, but for the program. -/
theorem legInstruction_accounts (tx : List AccountMeta) (n : UInt64) {ix : Instruction}
    (h : leg.accounts = assembleLegAccounts ix ctx.titanPda.key leg.venue.programId) :
    (legInstruction tx leg n).accounts =
      ix.accounts.map fun m => legAccountMeta ctx (loaded tx m.pubkey) := by
  have hlen : leg.accounts.length - 1 = ix.accounts.length := by
    rw [h, assembleLegAccounts, List.length_append, List.length_map, List.length_singleton,
      Nat.add_sub_cancel]
  simp only [legInstruction, legInfos, hlen, ← List.map_take]
  rw [h, assembleLegAccounts, List.take_left' (List.length_map _), List.map_map, List.map_map]
  exact List.map_congr_left fun m _ => by simp only [Function.comp_apply, clearSigner_pubkey]

/-- **The CPI of a leg is the instruction the venue generated**, when
    it spends the amount of the request. -/
theorem sameCall {ix : Instruction}
    (hdata : ∀ amount threshold limit, X.swapV3DynData amount threshold limit true =
      Program.SWAP_V3_DYN_DISCRIMINATOR ++ leBytes 8 amount.toNat ++ leBytes 8 threshold.toNat
        ++ leBytes 16 limit ++ [1])
    (hix : leg.venue.generateSwapInstruction leg.request ctx.titanPda.key = .ok ix)
    (htx : ∀ m ∈ leg.accounts, m ∈ tx) : SameCall (legInstruction tx leg leg.request.amount) ix := by
  obtain ⟨ix', hix', haccounts, -⟩ := leg.parts
  obtain rfl := Except.ok.inj (hix.symm.trans hix')
  have hcall := legInstruction_accounts leg tx leg.request.amount haccounts
  have hcore := hix
  unfold Adapter.ByrealClmmVenue.generateSwapInstruction at hcore
  simp only [Except.bind_eq_ok] at hcore
  obtain ⟨-, -, -, -, inputToken, -, outputToken, -, hcore⟩ := hcore
  obtain ⟨z, o, live, oracles, -, -, -, hparts⟩ := buildSwapInstruction_eq_ok hcore
  refine ⟨?_, ?_, ?_, ?_⟩
  · rw [hparts]
    rfl
  · rw [hcall, List.map_map]
    exact List.map_congr_left fun m _ => rfl
  · rw [hparts]
    exact (hdata leg.request.amount 0 0).symm
  · intro i a b ha hb
    rw [hcall, List.getElem?_map, ha] at hb
    obtain rfl := Option.some.inj hb
    refine legAccountMeta_privileges (htx _ ?_)
    rw [haccounts, assembleLegAccounts]
    exact List.mem_append_left _ (List.mem_map_of_mem (List.mem_of_getElem? ha))

/-- The TitanPDA leads the accounts, and signs. -/
theorem legInstruction_head (n : UInt64) :
    (legInstruction tx leg n).accounts.head?.map (fun m => (m.pubkey, m.isSigner)) =
      some (ctx.titanPda.key, true) := by
  obtain ⟨ix, hix, haccounts, -⟩ := leg.parts
  rw [legInstruction_accounts leg tx n haccounts]
  unfold Adapter.ByrealClmmVenue.generateSwapInstruction at hix
  simp only [Except.bind_eq_ok] at hix
  obtain ⟨-, -, -, -, inputToken, -, outputToken, -, hcore⟩ := hix
  obtain ⟨z, o, live, oracles, -, -, -, hparts⟩ := buildSwapInstruction_eq_ok hcore
  simp [hparts, ByrealClmmVenue.leadingAccounts, AccountMeta.newReadonly, legAccountMeta, loaded]

/-! ## The direction flag -/

/-- The first position of a mint among two. -/
theorem tokenPosition_pair {tokens : List TokenInfo} {mint0 mint1 mint : Pubkey}
    (htokens : tokens.map TokenInfo.pubkey = [mint0, mint1]) {i : Nat}
    (h : tokenPosition tokens mint = .ok i) :
    (i = 0 ∧ mint = mint0) ∨ (i = 1 ∧ mint = mint1 ∧ mint ≠ mint0) := by
  obtain ⟨t0, tokens, rfl, h0, htokens⟩ := List.map_eq_cons_iff.mp htokens
  obtain ⟨t1, tokens, rfl, h1, htokens⟩ := List.map_eq_cons_iff.mp htokens
  obtain rfl := List.map_eq_nil_iff.mp htokens
  simp only [tokenPosition, Res.orErr_eq_ok, List.findIdx?_cons, List.findIdx?_nil, h0, h1] at h
  by_cases hm0 : mint0 = mint
  · simp [hm0] at h
    exact .inl ⟨h.symm, hm0.symm⟩
  · by_cases hm1 : mint1 = mint
    · simp [hm0, hm1] at h
      exact .inr ⟨h.symm, hm1.symm, fun he => hm0 he.symm⟩
    · simp [hm0, hm1] at h

/-- **The flag of a leg** says which vault of the pool its instruction takes the input into. -/
theorem flag_vault {ix : Instruction}
    (hix : leg.venue.generateSwapInstruction leg.request ctx.titanPda.key = .ok ix) :
    ∃ zeroForOne, leg.spec.venue = .byrealClmm zeroForOne ∧
      ix.accounts[5]? = some (.new (if zeroForOne then leg.venue.core.poolState.tokenVault0
        else leg.venue.core.poolState.tokenVault1) false) := by
  obtain ⟨_, -, -, hflag, -⟩ := leg.parts
  have hmints := leg.updated.wellFormed.mints
  unfold Adapter.ByrealClmmVenue.generateSwapInstruction at hix
  simp only [Except.bind_eq_ok] at hix
  obtain ⟨-, -, -, -, inputToken, -, outputToken, -, hcore⟩ := hix
  obtain ⟨z, o, live, oracles, hz, -, -, rfl⟩ := buildSwapInstruction_eq_ok hcore
  have hz : leg.venue.core.validateMints leg.request.inputMint leg.request.outputMint = .ok (z, o) := hz
  obtain ⟨rfl, -, -, hne⟩ := validateMints_eq_ok hz
  simp only [protocolToVenue, Except.bind_eq_ok, Except.pure_eq_ok, Res.require_eq_ok] at hflag
  obtain ⟨i, hi, j, hj, -, hij, hflag⟩ := hflag
  refine ⟨_, hflag.symm, ?_⟩
  have hdir : decide (i = 0 ∧ j = 1) = decide (leg.request.inputMint = leg.venue.core.reserveMints.1) := by
    rw [hmints]
    refine decide_eq_decide.mpr ?_
    rcases tokenPosition_pair leg.updated.tokens hi with ⟨hi0, hin⟩ | ⟨hi1, -, hin⟩
    · rcases tokenPosition_pair leg.updated.tokens hj with ⟨-, hout⟩ | ⟨hj1, -, -⟩
      · exact absurd (hin.trans hout.symm) hne
      · simp only [hi0, hj1, hin, and_self]
    · simp only [hi1, hin, Nat.one_ne_zero, false_and]
  rw [hdir]
  simp only [ByrealClmmVenue.leadingAccounts, ByrealClmmVenue.directionalVaults]
  split <;> simp_all

/-! ## The leg loop -/

theorem toProgram_nAccounts (s : SwapSpecInputV2) : (RouteData.toProgram s).nAccounts = s.nAccounts := by
  obtain ⟨⟨z⟩, f, t, w, n⟩ := s
  rfl

/-- Where the accounts of the leg behind `pre` start. -/
def legStart (mints : Nat) (pre : List (BuiltLeg X ctx.titanPda.key)) : Nat :=
  2 * mints + (pre.flatMap BuiltLeg.accounts).length

/-- The specs of the legs, as the program reads them. -/
def legSpecs (legs : List (BuiltLeg X ctx.titanPda.key)) : List Program.SwapSpecInputV2 :=
  legs.map fun leg => RouteData.toProgram leg.spec

/-- The counts of built legs add up to the accounts they were built with. -/
theorem sum_counts (legs : List (BuiltLeg X ctx.titanPda.key)) :
    ((legSpecs legs).map fun swap => swap.nAccounts.toNat).sum =
      (legs.flatMap BuiltLeg.accounts).length := by
  induction legs with
  | nil => rfl
  | cons leg legs ih =>
      obtain ⟨_, -, -, -, hlen, -⟩ := leg.parts
      simp only [legSpecs, List.map_cons, List.sum_cons, List.flatMap_cons, List.length_append,
        toProgram_nAccounts, hlen] at ih ⊢
      rw [ih]

/-- The loop stands at the start of the leg behind the legs it has run. -/
theorem runLegs_index {p : Prepared} {legs : List (BuiltLeg X ctx.titanPda.key)} {bank : Bank}
    {st : RouteState} (h : runLegs R ctx p (legSpecs legs) bank = .ok st) :
    st.remainingAccountIndex = legStart p.mintsCount legs := by
  rw [legSteps_index h, sum_counts, legStart]

/-- The region behind the ATAs and mints is the legs' accounts, one after another. -/
def RegionOf (ctx : Ctx) (tx : List AccountMeta) (mints : Nat)
    (legs : List (BuiltLeg X ctx.titanPda.key)) : Prop :=
  2 * mints ≤ ctx.remainingAccounts.length ∧
    ctx.remainingAccounts.drop (2 * mints) =
      (legs.flatMap BuiltLeg.accounts).map fun m => loaded tx m.pubkey

variable {mints : Nat} {pre post : List (BuiltLeg X ctx.titanPda.key)}

/-- The region ends where the last leg does. -/
theorem RegionOf.length {legs : List (BuiltLeg X ctx.titanPda.key)} (h : RegionOf ctx tx mints legs) :
    ctx.remainingAccounts.length = legStart mints legs := by
  have hlen := congrArg List.length h.2
  rw [List.length_drop, List.length_map] at hlen
  have := h.1
  unfold legStart
  omega

/-- **Each leg is cut out at its place.** -/
theorem RegionOf.legAccounts (h : RegionOf ctx tx mints (pre ++ leg :: post)) :
    legAccounts ctx (legStart mints pre) leg.spec.nAccounts.toNat = legInfos tx leg := by
  obtain ⟨_, -, -, -, hlen, -⟩ := leg.parts
  rw [Program.legAccounts, legStart, ← List.drop_drop, h.2, hlen, List.flatMap_append, List.flatMap_cons,
    List.map_append, List.map_append, List.drop_left' (by rw [List.length_map]),
    List.take_left' (by rw [List.length_map]), legInfos]

theorem RegionOf.stop_le (h : RegionOf ctx tx mints (pre ++ leg :: post)) :
    legStart mints pre + leg.accounts.length ≤ ctx.remainingAccounts.length := by
  rw [h.length, legStart, legStart, List.flatMap_append, List.flatMap_cons, List.length_append,
    List.length_append]
  omega

/-- The program named last is the venue's. -/
theorem legInfos_getLast : (legInfos tx leg).getLast? = some (loaded tx leg.venue.programId) := by
  obtain ⟨ix, -, haccounts, -⟩ := leg.parts
  rw [legInfos, haccounts, assembleLegAccounts, List.map_append, List.map_singleton,
    List.getLast?_concat]
  rfl

theorem performCpiSwap_built (n : UInt64) (bank : Bank) :
    performCpiSwap R ctx n (RouteData.toProgram leg.spec)
      (((legInfos tx leg).take (leg.accounts.length - 1)).map (legAccountMeta ctx))
      (legInfos tx leg) bank =
      invoked (R.invokeSigned (legInstruction tx leg n) (legInfos tx leg) (signerSeeds ctx) bank) := by
  cases hvenue : (RouteData.toProgram leg.spec).venue with
  | byrealClmm z =>
      simp only [performCpiSwap, legInfos_getLast, Res.orErr, Except.ok_bind, swapV3Dyn,
        List.foldlM_cons, List.foldlM_nil, bind_pure]
      rfl

theorem legCpi_built (h : RegionOf ctx tx mints (pre ++ leg :: post)) (n : UInt64) (bank : Bank) :
    legCpi R ctx n (RouteData.toProgram leg.spec) (legStart mints pre) leg.accounts.length bank =
      legInvocation R tx leg n bank := by
  obtain ⟨ix, -, haccounts, -, hcount, -⟩ := leg.parts
  have hstop := RegionOf.stop_le leg h
  have hcut := RegionOf.legAccounts leg h
  rw [hcount] at hcut
  have hsum : legStart mints pre + leg.accounts.length < 2 ^ 64 :=
    Nat.lt_of_le_of_lt (Nat.le_trans hstop ctx.remaining_le) (by decide)
  have hpos : 1 ≤ leg.accounts.length := by
    rw [haccounts, assembleLegAccounts, List.length_append, List.length_singleton]
    omega
  have hslice : Res.slice (ε := ProgramError) ctx.remainingAccounts (legStart mints pre)
      (legStart mints pre + leg.accounts.length) = .ok (legInfos tx leg) := by
    rw [Res.slice_eq_ok, Nat.add_sub_cancel_left]
    exact ⟨⟨Nat.le_add_right _ _, hstop⟩, hcut⟩
  have hmeta : Res.slice (ε := ProgramError) (legInfos tx leg) 0 (leg.accounts.length - 1) =
      .ok ((legInfos tx leg).take (leg.accounts.length - 1)) := by
    rw [Res.slice_eq_ok, List.drop_zero, Nat.sub_zero]
    exact ⟨⟨Nat.zero_le _, by rw [legInfos, List.length_map]; omega⟩, rfl⟩
  unfold legCpi legInvocation
  refine if_congr Iff.rfl ?_ rfl
  rw [Res.checkedAdd, if_pos hsum, Except.ok_bind, hslice, Except.ok_bind, Res.checkedSub, if_pos hpos,
    Except.ok_bind, hmeta, Except.ok_bind]
  exact performCpiSwap_built leg n bank

/-- **A built leg at its place** is never refused, and its CPI is `legInstruction` on its own accounts. -/
theorem legStep_built (h : RegionOf ctx tx mints (pre ++ leg :: post))
    (reserved : Vector UInt64 MAX_MINTS) (bank : Bank) :
    legStep R ctx reserved ⟨legStart mints pre, bank⟩ (RouteData.toProgram leg.spec) = (do
      let n ← legInputAmount ctx reserved bank (RouteData.toProgram leg.spec)
      let bank ← legInvocation R tx leg n bank
      return ⟨legStart mints pre + leg.accounts.length, bank⟩) := by
  obtain ⟨ix, -, haccounts, -, hcount, -⟩ := leg.parts
  have hstop := RegionOf.stop_le leg h
  have hsum : legStart mints pre + leg.accounts.length < 2 ^ 64 :=
    Nat.lt_of_le_of_lt (Nat.le_trans hstop ctx.remaining_le) (by decide)
  have hpos : 0 < leg.accounts.length := by
    rw [haccounts, assembleLegAccounts, List.length_append, List.length_singleton]
    omega
  unfold legStep
  simp only [toProgram_nAccounts, hcount, Res.require, if_pos hpos, Res.checkedAdd, if_pos hsum,
    if_pos hstop, Except.ok_bind, legCpi_built leg h]

/-- **The program executes the legs the builder described.** For legs built from updated venues, with their
    accounts concatenated behind the ATAs and mints: the loop ends at the end of the region; it stands at
    the start of each leg in turn and cuts out that leg's accounts; and the CPI it issues for a leg that
    spends the amount of its request is the instruction the venue generated, the TitanPDA signing, with the
    flag of the leg naming the vault that takes the input. -/
theorem legs_execute_as_built {legs : List (BuiltLeg X ctx.titanPda.key)}
    (hdata : ∀ amount threshold limit, X.swapV3DynData amount threshold limit true =
      Program.SWAP_V3_DYN_DISCRIMINATOR ++ leBytes 8 amount.toNat ++ leBytes 8 threshold.toNat
        ++ leBytes 16 limit ++ [1])
    (hregion : RegionOf ctx tx mints legs) (htx : ∀ leg ∈ legs, ∀ m ∈ leg.accounts, m ∈ tx) :
    (∀ p bank st, p.mintsCount = mints → runLegs R ctx p (legSpecs legs) bank = .ok st →
      st.remainingAccountIndex = ctx.remainingAccounts.length) ∧
    ∀ pre leg post, legs = pre ++ leg :: post →
      (∀ p bank st, p.mintsCount = mints → runLegs R ctx p (legSpecs pre) bank = .ok st →
        st.remainingAccountIndex = legStart mints pre) ∧
      legAccounts ctx (legStart mints pre) leg.spec.nAccounts.toNat = legInfos tx leg ∧
      (∀ reserved bank,
        legStep R ctx reserved ⟨legStart mints pre, bank⟩ (RouteData.toProgram leg.spec) = (do
          let n ← legInputAmount ctx reserved bank (RouteData.toProgram leg.spec)
          let bank ← legInvocation R tx leg n bank
          return ⟨legStart mints pre + leg.accounts.length, bank⟩)) ∧
      ∃ ix zeroForOne, leg.venue.generateSwapInstruction leg.request ctx.titanPda.key = .ok ix ∧
        SameCall (legInstruction tx leg leg.request.amount) ix ∧
        (legInstruction tx leg leg.request.amount).accounts.head?.map (fun m => (m.pubkey, m.isSigner)) =
          some (ctx.titanPda.key, true) ∧
        leg.spec.venue = .byrealClmm zeroForOne ∧
        ix.accounts[5]? = some (.new (if zeroForOne then leg.venue.core.poolState.tokenVault0
          else leg.venue.core.poolState.tokenVault1) false) := by
  refine ⟨?_, ?_⟩
  · rintro p bank st rfl hrun
    rw [runLegs_index hrun, hregion.length]
  · rintro pre leg post rfl
    have hleg : leg ∈ pre ++ leg :: post := List.mem_append_right _ List.mem_cons_self
    refine ⟨?_, hregion.legAccounts leg, legStep_built leg hregion, ?_⟩
    · rintro p bank st rfl hrun
      exact runLegs_index hrun
    · obtain ⟨ix, hix, -⟩ := leg.parts
      obtain ⟨zeroForOne, hflag, hvault⟩ := flag_vault leg hix
      exact ⟨ix, zeroForOne, hix, sameCall leg hdata hix (htx leg hleg), legInstruction_head leg _, hflag,
        hvault⟩

/-! ## A sample route -/

/-- 1000 of the first mint of the sample market for the second. -/
def sampleRequest : QuoteRequest := ⟨Pubkey.fill 1, Pubkey.fill 2, 1000, .exactIn⟩

/-- The same leg twice, on two mints: both are cut out at their place,
    and carry the venue's instruction. -/
theorem legs_execute_as_built_sample :
    ∃ (ctx : Ctx) (tx : List AccountMeta) (leg : BuiltLeg Sample.X ctx.titanPda.key) (ix : Instruction),
      legAccounts ctx (legStart 2 [leg]) leg.spec.nAccounts.toNat = legInfos tx leg ∧
      leg.venue.generateSwapInstruction leg.request ctx.titanPda.key = .ok ix ∧
      SameCall (legInstruction tx leg 1000) ix := by
  let ctx₀ := Reference.Sample.ctx Reference.Sample.titanA
  obtain ⟨⟨spec, accounts⟩, hbuilt⟩ : ∃ p, buildSwapLeg Sample.refreshed sampleRequest ctx₀.titanPda.key
      0 1 1000000000 = .ok p :=
    Except.exists_of_failure? (by decide +kernel)
  let leg : BuiltLeg Sample.X ctx₀.titanPda.key :=
    { venue := Sample.refreshed, request := sampleRequest, fromIdx := 0, dest := 1,
      weightNanos := 1000000000, spec, accounts,
      updated := Adapter.ByrealClmmVenue.refreshed_updated, built := hbuilt }
  obtain ⟨_, -, -, -, -, hlen⟩ := leg.parts
  let region := ([leg, leg].flatMap BuiltLeg.accounts).map fun m => loaded accounts m.pubkey
  let ctx : Ctx := { ctx₀ with
    remainingAccounts := ctx₀.remainingAccounts.take 4 ++ region
    remaining_le := by
      simp only [region, List.flatMap_cons, List.flatMap_nil, List.length_append, List.length_map,
        List.length_take, List.length_nil]
      omega }
  obtain ⟨-, hlegs⟩ := @legs_execute_as_built Sample.X (Reference.runtime Reference.Sample.titanPda
    Reference.Sample.exchange) ctx accounts 2 [leg, leg]
    (fun _ _ _ => rfl) ⟨by simp [ctx, ctx₀, Reference.Sample.ctx], rfl⟩ (by simp [leg])
  obtain ⟨-, hcut, -, ix, -, hix, hcall, -⟩ := hlegs [leg] leg [] rfl
  exact ⟨ctx, accounts, leg, ix, hcut, hix, hcall⟩

end

end ByrealTitan.SwapRoute
