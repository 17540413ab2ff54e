import ByrealTitan.Correctness.BuiltRoute
import ByrealTitan.Correctness.Deployment
import ByrealTitan.Correctness.Holdings
import ByrealTitan.Correctness.QuoteCases

/-!
# `Correctness.PaidQuotes` — what was quoted is paid

A route is planned off chain, one quote on the other: the first for the deposit, each further one for
what the quote before it promised. On chain no leg knows these numbers; each spends what its account
holds by then. `Carries` is what brings the two together: behind every leg, the TitanPDA holds above its
recorded balances exactly the output last quoted, on the account of the next leg, and nothing else. So
where the venue programs fill what their venues quoted, a route that returns has paid the user the last
quote, charged the deposit, and left every balance of the TitanPDA as it was (`quotes_paid`).
-/

namespace ByrealTitan.Program

variable {R : Runtime} {ctx : Ctx} {amount : UInt64} {mints : UInt8} {swaps : List SwapSpecInputV2}
  {bank bank' : Bank} {p : Prepared} {k : Pubkey}

/-! ## The user's accounts at the ends of a route -/

section Frames

variable (laws : TokenLaws R) (frames : FrameLaws R)

include frames

/-- Opening the ATAs changes no other balance. -/
theorem prepare_frame (hp : PreparedSpec R ctx mints swaps bank p) (hk : k ∉ recordedKeys R ctx p.bank) :
    balances p.bank k = balances bank k := by
  have hyields : Yields (createAtas R ctx p.mintsCount bank)
      (fun st : BitVec 16 × Bank => balances st.2 k = balances bank k) (fun _ => True) := by
    refine Yields.foldlM (I := fun _ (st : BitVec 16 × Bank) => balances st.2 k = balances bank k) rfl ?_
    intro pre i post st hsplit _ hst
    refine Yields.intro (fun st' hst' => ?_) (fun _ _ => trivial)
    obtain ⟨ata, hata, ⟨-, rfl⟩ | ⟨-, -, -, mint, hcreate⟩⟩ := createAtaStep_cases hst'
    · exact hst
    · -- the account that is opened is an ATA of the route, and recorded
      have hi : i < p.mintsCount := by
        apply List.mem_range.mp
        rw [hsplit]
        exact List.mem_append_right _ List.mem_cons_self
      have hne : k ≠ ata.key := by
        intro heq
        exact hk (heq ▸ (hp.reserved_eq hi hata).2)
      rw [(frames.createAta hcreate).2 k hne]
      exact hst
  exact hyields.of_ok hp.created

include laws

/-- The deposit changes the balances of its two accounts only. -/
theorem deposit_frame (hp : PreparedSpec R ctx mints swaps bank p) (hk : k ∉ recordedKeys R ctx p.bank)
    (hinput : k ≠ ctx.inputTokenAccount.key) (h : deposit R ctx p = .ok bank') :
    balances bank' k = balances p.bank k := by
  obtain ⟨first, created, b₁, b₂, hfirst, hsetup, htransfer, hclose⟩ := deposit_cases h
  obtain ⟨first', hfirst', -, hmem, -⟩ := hp.ata (i := 0) (Nat.lt_of_succ_lt hp.mints_pos)
  obtain rfl : first = first' := Option.some.inj (hfirst.symm.trans hfirst')
  have hne : k ≠ first.key := by
    intro heq
    exact hk (heq ▸ hmem)
  have hmoved : balances b₂ k = balances p.bank k := by
    rw [(transferTokens_spends laws htransfer).frame k hinput hne]
    exact setupInput_frame frames hsetup hinput
  rcases hclose with ⟨-, rfl⟩ | ⟨-, hclose⟩
  · exact hmoved
  · rw [(laws.closeAccount hclose).2 k hinput]
    exact hmoved

omit frames in
/-- Tokens that are not wrapped on the way are taken from the user's account. -/
theorem deposit_charges_tokens (hp : PreparedSpec R ctx mints swaps bank p)
    (hinput : ctx.inputTokenAccount.key ∉ recordedKeys R ctx p.bank)
    (hplain : ¬ (p.ledgerAmount = none ∧ isNativeMint R p.inputMint = true))
    (h : deposit R ctx p = .ok bank') :
    balances bank' ctx.inputTokenAccount.key + p.effectiveAmount.toNat =
      balances p.bank ctx.inputTokenAccount.key := by
  obtain ⟨first, created, b₁, b₂, hfirst, hsetup, htransfer, hclose⟩ := deposit_cases h
  obtain ⟨first', hfirst', -, hmem, -⟩ := hp.ata (i := 0) (Nat.lt_of_succ_lt hp.mints_pos)
  obtain rfl : first = first' := Option.some.inj (hfirst.symm.trans hfirst')
  have hne : ctx.inputTokenAccount.key ≠ first.key := by
    intro heq
    exact hinput (heq ▸ hmem)
  rcases setupInput_cases hsetup with ⟨-, rfl, rfl⟩ | ⟨hwraps, -⟩
  · have hdebits := transferTokens_spends laws htransfer
    have hpaid := hdebits.source_eq hne
    have henough := hdebits.enough
    rcases hclose with ⟨-, rfl⟩ | ⟨hcreated, -⟩
    · rw [hpaid]
      exact Nat.sub_add_cancel henough
    · cases hcreated
  · exact absurd hwraps hplain

/-- The payout changes the balances of the output ATA and of the user's output account only. -/
theorem payout_frame (hp : PreparedSpec R ctx mints swaps bank p) (hk : k ∉ recordedKeys R ctx p.bank)
    (houtput : k ≠ ctx.outputTokenAccount.key) {b : Bank} (h : payout R ctx p b = .ok bank') :
    balances bank' k = balances b k := by
  obtain ⟨out, raw, r, b₁, hout, -, -, hopen, htransfer⟩ := payout_cases h
  have hne : k ≠ out.key := by
    intro heq
    exact hk (heq ▸ (hp.reserved_eq hp.output hout).2)
  rw [(transferTokens_spends laws htransfer).frame k hne houtput]
  exact (openOutput_frame frames hopen).2 k houtput

end Frames

/-! ## Accounts that stay open -/

/-- An account that exists goes on existing, unless it is closed. -/
structure OpenLaws (R : Runtime) : Prop where
  token : ∀ {program ix infos seeds b b'}, R.invokeToken program ix infos seeds b = .ok b' →
    ∀ k, accountExists (b k) = true →
      (∀ destination authority, ix ≠ .closeAccount k destination authority) →
      accountExists (b' k) = true
  systemTransfer : ∀ {source dest n b b'}, R.systemTransfer source dest n b = .ok b' →
    ∀ k, accountExists (b k) = true → accountExists (b' k) = true

section Open

variable (laws : TokenLaws R) (opens : OpenLaws R)

include opens

theorem transferTokens_open {tokenProgram source dest authority : AccountInfo} {mint : Option AccountInfo}
    {decimals : UInt8} {seeds : SignerSeeds} (hk : accountExists (bank k) = true)
    (h : transferTokens R tokenProgram source dest authority mint amount decimals seeds bank = .ok bank') :
    accountExists (bank' k) = true := by
  rcases transferTokens_cases h with ⟨-, rfl⟩ | ⟨m, -, hchecked⟩ | hplain
  · exact hk
  · exact opens.token hchecked k hk (by simp)
  · exact opens.token hplain k hk (by simp)

theorem transferSolAndSync_open {source wsolAta tokenProgram : AccountInfo}
    (hk : accountExists (bank k) = true)
    (h : transferSolAndSync R source wsolAta tokenProgram amount bank = .ok bank') :
    accountExists (bank' k) = true := by
  rcases transferSolAndSync_cases h with ⟨-, rfl⟩ | ⟨b₁, hpay, hsync⟩
  · exact hk
  · exact opens.token hsync k (opens.systemTransfer hpay k hk) (by simp)

include laws

theorem setupInput_open {tokenProgram : AccountInfo} {created : Bool}
    (hk : accountExists (p.bank k) = true)
    (h : setupInput R ctx p tokenProgram = .ok (created, bank')) : accountExists (bank' k) = true := by
  rcases setupInput_cases h with ⟨-, -, rfl⟩ | ⟨-, hwrapped⟩
  · exact hk
  · rcases setupWsolInputAccount_cases hwrapped with ⟨-, -, current, -, hfund⟩ | ⟨-, -, b₁, hcreate, hfund⟩
    · exact transferSolAndSync_open opens hk hfund
    · exact transferSolAndSync_open opens ((laws.createAta (invoked_eq_ok.mp hcreate)).2.1 k hk) hfund

/-- The deposit closes at most its own input account. -/
theorem deposit_open (hk : accountExists (p.bank k) = true) (hne : k ≠ ctx.inputTokenAccount.key)
    (h : deposit R ctx p = .ok bank') : accountExists (bank' k) = true := by
  obtain ⟨first, created, b₁, b₂, -, hsetup, htransfer, hclose⟩ := deposit_cases h
  have hmoved := transferTokens_open opens (setupInput_open laws opens hk hsetup) htransfer
  rcases hclose with ⟨-, rfl⟩ | ⟨-, hclose⟩
  · exact hmoved
  · refine opens.token hclose k hmoved fun destination authority heq => ?_
    obtain ⟨hkey, -, -⟩ := TokenInstruction.closeAccount.inj heq
    exact hne hkey.symm

omit opens in
theorem createAtas_open {m : Nat} {st : BitVec 16 × Bank} (hk : accountExists (bank k) = true)
    (h : createAtas R ctx m bank = .ok st) : accountExists (st.2 k) = true := by
  have hyields : Yields (createAtas R ctx m bank)
      (fun st : BitVec 16 × Bank => accountExists (st.2 k) = true) (fun _ => True) := by
    refine Yields.foldlM (I := fun _ (st : BitVec 16 × Bank) => accountExists (st.2 k) = true) hk ?_
    intro _ i _ st _ _ hst
    refine Yields.intro (fun st' hst' => ?_) (fun _ _ => trivial)
    obtain ⟨ata, -, ⟨-, rfl⟩ | ⟨-, -, -, mint, hcreate⟩⟩ := createAtaStep_cases hst'
    · exact hst
    · exact (laws.createAta hcreate).2.1 k hst
  exact hyields.of_ok h

end Open

end ByrealTitan.Program

namespace ByrealTitan.SwapRoute

open Clmm Adapter LittleEndian Program

variable {X : Crates} {R : Runtime} {ctx : Ctx} {tx : List AccountMeta} {amount : UInt64} {mints : UInt8}
  {bank bank' : Bank} {p : Prepared} {legs : List (BuiltLeg X ctx.titanPda.key)} {i j : UInt8} {n m : Nat}

/-! ## The plan -/

/-- The token account that a swap instruction spends from. -/
def spendsFrom (ix : Instruction) : Option Pubkey := ix.accounts[3]?.map AccountMeta.pubkey

/-- The token account that it pays into. -/
def paysInto (ix : Instruction) : Option Pubkey := ix.accounts[4]?.map AccountMeta.pubkey

/-- The instruction of a leg spends from and pays into the ATAs that the leg names by their indices. -/
def Wired (leg : BuiltLeg X ctx.titanPda.key) : Prop :=
  ∀ ix, leg.venue.generateSwapInstruction leg.request ctx.titanPda.key = .ok ix →
    spendsFrom ix = some (ataKey ctx leg.fromIdx) ∧ paysInto ix = some (ataKey ctx leg.dest)

/-- Legs planned one on the other, from `n` at the index `i` to `m` at the index
    `j`: each spends everything from where the one before it pays, and was quoted
    in full for exactly what that one promised. -/
inductive QuoteChain {titanPda : Pubkey} : UInt8 → Nat → List (BuiltLeg X titanPda) → UInt8 →
    Nat → Prop where
  | done (i : UInt8) (n : Nat) : QuoteChain i n [] i n
  | leg {fuel : Nat} {quote : QuoteResult} {i j : UInt8} {n m : Nat} {leg : BuiltLeg X titanPda}
      {legs : List (BuiltLeg X titanPda)} :
      leg.fromIdx = i → 1000000000 ≤ leg.weightNanos.toNat → leg.request.amount.toNat = n →
      leg.venue.quote fuel leg.request = .ok quote → quote.notEnoughLiquidity = false →
      QuoteChain leg.dest quote.expectedOutput legs j m → QuoteChain i n (leg :: legs) j m

/-- The balances a route looks after: those it recorded, and those of the user's two accounts. -/
def Watched (R : Runtime) (ctx : Ctx) (p : Prepared) (k : Pubkey) : Prop :=
  k ∈ recordedKeys R ctx p.bank ∨ k = ctx.inputTokenAccount.key ∨ k = ctx.outputTokenAccount.key

/-- The venue programs fill what their venues quoted: invoked in this route with the
    instruction of a leg, a program takes the amount of the request from the account the
    instruction spends from and pays the quoted output into the one it pays into; no other
    watched balance changes, and no watched account is closed. -/
def FillsQuotes (R : Runtime) (ctx : Ctx) (tx : List AccountMeta) (p : Prepared)
    (legs : List (BuiltLeg X ctx.titanPda.key)) : Prop :=
  ∀ pre leg post fuel quote ix cpi bank₀ st bank', legs = pre ++ leg :: post →
    leg.venue.quote fuel leg.request = .ok quote → quote.notEnoughLiquidity = false →
    leg.venue.generateSwapInstruction leg.request ctx.titanPda.key = .ok ix → SameCall cpi ix →
    deposit R ctx p = .ok bank₀ → runLegs R ctx p (legSpecs pre) bank₀ = .ok st →
    R.invokeSigned cpi (legInfos tx leg) (signerSeeds ctx) st.bank = .ok bank' →
      ∀ k, Watched R ctx p k →
        balances bank' k =
          (if spendsFrom ix = some k then balances st.bank k - leg.request.amount.toNat
            else balances st.bank k) + (if paysInto ix = some k then quote.expectedOutput else 0) ∧
        (accountExists (st.bank k) = true → accountExists (bank' k) = true)

/-! ## What the legs carry -/

/-- All of `n` on the ATA at an index. -/
def placed (ctx : Ctx) (i : UInt8) (n : Nat) : Pubkey → Nat := fun k => if k = ataKey ctx i then n else 0

/-- **What is carried behind a leg**: above the recorded balances the TitanPDA holds `n` on the ATA at `i`
    and nothing else, and the user's accounts are as the deposit left them. -/
structure Carries (R : Runtime) (ctx : Ctx) (p : Prepared) (bank₀ : Bank) (i : UInt8) (n : Nat)
    (b : Bank) : Prop where
  holds : Holds R ctx p (placed ctx i n) b
  input : balances b ctx.inputTokenAccount.key = balances bank₀ ctx.inputTokenAccount.key
  output : balances b ctx.outputTokenAccount.key = balances bank₀ ctx.outputTokenAccount.key
  opened : accountExists (bank₀ ctx.outputTokenAccount.key) = true →
    accountExists (b ctx.outputTokenAccount.key) = true

/-- The spec of a leg as the program reads it. -/
theorem spec_fields {titanPda : Pubkey} (leg : BuiltLeg X titanPda) :
    (RouteData.toProgram leg.spec).fromIdx = leg.fromIdx ∧
    (RouteData.toProgram leg.spec).toIdx = leg.dest ∧
      (RouteData.toProgram leg.spec).weightNanos = leg.weightNanos := by
  have h := leg.built
  unfold buildSwapLeg at h
  simp only [Except.bind_eq_ok, Except.pure_eq_ok] at h
  obtain ⟨-, -, swapIx, -, ⟨z⟩, -, h⟩ := h
  obtain ⟨hspec, -⟩ := Prod.mk.inj h
  rw [← hspec]
  exact ⟨rfl, rfl, rfl⟩

/-- Where a chain of legs ends, the last leg pays. -/
theorem QuoteChain.last (h : QuoteChain i n legs j m) (hne : legs ≠ []) :
    ∃ last, (legSpecs legs).getLast? = some last ∧ last.toIdx = j := by
  unfold legSpecs
  rw [List.getLast?_map]
  induction h with
  | done => exact absurd rfl hne
  | @leg _ quote i j n m leg legs _ _ _ _ _ hrest ih =>
      cases legs with
      | nil =>
          cases hrest
          exact ⟨_, rfl, (spec_fields leg).2.1⟩
      | cons next legs =>
          obtain ⟨last, hlast, hindex⟩ := ih (List.cons_ne_nil next legs)
          refine ⟨last, ?_, hindex⟩
          rw [List.getLast?_cons_cons]
          exact hlast

/-- A request for nothing is quoted nothing. -/
theorem quote_nothing {v : Adapter.ByrealClmmVenue X} {request : QuoteRequest} {fuel : Nat}
    {quote : QuoteResult} (h : v.quote fuel request = .ok quote) (hzero : request.amount.toNat = 0) :
    quote.expectedOutput = 0 := by
  obtain ⟨-, zeroForOne, core, -, hanswer, rfl⟩ := ByrealClmmVenue.quote_eq_ok.mp h
  rw [hzero] at hanswer
  unfold ByrealClmmVenue.answer at hanswer
  rw [if_pos rfl] at hanswer
  exact (ByrealClmmVenue.quoteZero_amounts hanswer).2.1

/-- More fuel changes no quote. -/
theorem quote_agrees {v : Adapter.ByrealClmmVenue X} {request : QuoteRequest} {fuel fuel' : Nat}
    {quote quote' : QuoteResult} (h : v.quote fuel request = .ok quote)
    (h' : v.quote fuel' request = .ok quote') :
    quote = quote' := by
  obtain ⟨-, zeroForOne, core, haccepts, hanswer, rfl⟩ := ByrealClmmVenue.quote_eq_ok.mp h
  obtain ⟨-, zeroForOne', core', haccepts', hanswer', rfl⟩ := ByrealClmmVenue.quote_eq_ok.mp h'
  obtain rfl := haccepts.direction haccepts'
  have hsame : core = core' := Res.Below.agree (fun _ _ hle => ByrealClmmVenue.answer_below hle _)
    hanswer hanswer'
  rw [hsame]

/-- The legs in front leave the cut where the next leg starts. -/
theorem runLegs_state {pre : List (BuiltLeg X ctx.titanPda.key)} {b : Bank} {st : RouteState}
    (h : runLegs R ctx p (legSpecs pre) b = .ok st) : st = ⟨legStart p.mintsCount pre, st.bank⟩ := by
  rw [← runLegs_index h]

/-- A leg of the whole weight spends all that is carried to it. -/
theorem leg_spends_carried (hp : PreparedSpec R ctx mints (legSpecs legs) bank p)
    {leg : BuiltLeg X ctx.titanPda.key} (hleg : leg ∈ legs) (hweight : 1000000000 ≤ leg.weightNanos.toNat)
    {bank₀ b : Bank} (hcarries : Carries R ctx p bank₀ leg.fromIdx leg.request.amount.toNat b) {a : UInt64}
    (ha : legInputAmount ctx p.snapshot.reserved b (RouteData.toProgram leg.spec) = .ok a) :
    a = leg.request.amount := by
  obtain ⟨hfrom, -, hnanos⟩ := spec_fields leg
  obtain ⟨hi, -⟩ := hp.legs _ (List.mem_map_of_mem hleg)
  obtain ⟨source, hsource, hkey, hmem, hres⟩ := hp.ata hi
  rw [hfrom] at hkey
  have hall : placed ctx leg.fromIdx leg.request.amount.toNat source.key = leg.request.amount.toNat :=
    if_pos hkey.symm
  have hreserved : balances b source.key - (tokenAmountOrZero (p.bank source.key)).toNat =
      leg.request.amount.toNat := by
    rw [hcarries.holds source.key hmem, hall]
    exact Nat.add_sub_cancel_left _ _
  apply UInt64.toNat_inj.mp
  rw [legInputAmount_eq hsource hres ha, hreserved, hnanos, Nat.min_eq_right hweight]
  exact Nat.mul_div_cancel _ (by decide)

/-- The invocation of a leg for the amount of its request moves what was quoted. -/
theorem leg_moves_quoted
    (hdata : ∀ amount threshold limit, X.swapV3DynData amount threshold limit true =
      Program.SWAP_V3_DYN_DISCRIMINATOR ++ leBytes 8 amount.toNat ++ leBytes 8 threshold.toNat
        ++ leBytes 16 limit ++ [1])
    (hfills : FillsQuotes R ctx tx p legs) {pre post : List (BuiltLeg X ctx.titanPda.key)}
    {leg : BuiltLeg X ctx.titanPda.key} (hlegs : legs = pre ++ leg :: post)
    (htx : ∀ m ∈ leg.accounts, m ∈ tx) (hwired : Wired leg) {fuel : Nat} {quote : QuoteResult}
    (hquote : leg.venue.quote fuel leg.request = .ok quote) (hfull : quote.notEnoughLiquidity = false)
    {bank₀ b : Bank} {st : RouteState} (hdeposit : deposit R ctx p = .ok bank₀)
    (hreach : runLegs R ctx p (legSpecs pre) bank₀ = .ok st)
    (hinvoke : legInvocation R tx leg leg.request.amount st.bank = .ok b) {k : Pubkey}
    (hk : Watched R ctx p k) :
    balances b k =
      (if k = ataKey ctx leg.fromIdx then balances st.bank k - leg.request.amount.toNat
        else balances st.bank k) + (if k = ataKey ctx leg.dest then quote.expectedOutput else 0) ∧
    (accountExists (st.bank k) = true → accountExists (b k) = true) := by
  obtain ⟨ix, hix, -⟩ := leg.parts
  obtain ⟨hspends, hpays⟩ := hwired ix hix
  unfold legInvocation at hinvoke
  split at hinvoke
  next =>
    have hcall := sameCall leg hdata hix htx
    have hfilled := hfills pre leg post fuel quote ix _ bank₀ st b hlegs hquote hfull hix hcall
      hdeposit hreach (invoked_eq_ok.mp hinvoke) k hk
    rw [hspends, hpays] at hfilled
    simp only [Option.some.injEq, eq_comm (b := k)] at hfilled
    exact hfilled
  next hzero =>
    obtain rfl := Except.ok.inj hinvoke
    have hnone : leg.request.amount.toNat = 0 :=
      Nat.eq_zero_of_not_pos fun hpos => hzero (UInt64.lt_iff_toNat_lt.mpr hpos)
    rw [hnone, quote_nothing hquote hnone, Nat.sub_zero, ite_self, ite_self]
    exact ⟨rfl, id⟩

section Run

variable (hp : PreparedSpec R ctx mints (legSpecs legs) bank p)
  (hregion : RegionOf ctx tx p.mintsCount legs) (htx : ∀ leg ∈ legs, ∀ m ∈ leg.accounts, m ∈ tx)
  (hdata : ∀ amount threshold limit, X.swapV3DynData amount threshold limit true =
    Program.SWAP_V3_DYN_DISCRIMINATOR ++ leBytes 8 amount.toNat ++ leBytes 8 threshold.toNat
      ++ leBytes 16 limit ++ [1])
  (hwired : ∀ leg ∈ legs, Wired leg) (hfills : FillsQuotes R ctx tx p legs)
  (hinput : ctx.inputTokenAccount.key ∉ recordedKeys R ctx p.bank)
  (houtput : ctx.outputTokenAccount.key ∉ recordedKeys R ctx p.bank)

include hp hregion htx hdata hwired hfills hinput houtput

/-- **One leg carries on**: what it finds on its account is the amount it was quoted for, so the program
    is invoked with the instruction of the venue, and fills the quote. -/
theorem carries_leg
    {pre post : List (BuiltLeg X ctx.titanPda.key)} {leg : BuiltLeg X ctx.titanPda.key}
    (hlegs : legs = pre ++ leg :: post) (hweight : 1000000000 ≤ leg.weightNanos.toNat)
    {fuel : Nat} {quote : QuoteResult} (hquote : leg.venue.quote fuel leg.request = .ok quote)
    (hfull : quote.notEnoughLiquidity = false) {bank₀ : Bank} {st st' : RouteState}
    (hdeposit : deposit R ctx p = .ok bank₀) (hreach : runLegs R ctx p (legSpecs pre) bank₀ = .ok st)
    (hcarries : Carries R ctx p bank₀ leg.fromIdx leg.request.amount.toNat st.bank)
    (hstep : legStep R ctx p.snapshot.reserved st (RouteData.toProgram leg.spec) = .ok st') :
    Carries R ctx p bank₀ leg.dest quote.expectedOutput st'.bank := by
  obtain ⟨hfrom, hto, -⟩ := spec_fields leg
  have hleg : leg ∈ legs := by
    rw [hlegs]
    exact List.mem_append_right _ List.mem_cons_self
  obtain ⟨hi, ho⟩ := hp.legs _ (List.mem_map_of_mem hleg)
  obtain ⟨source, -, hkey, hmem, -⟩ := hp.ata hi
  obtain ⟨dest, -, hkey', hmem', -⟩ := hp.ata ho
  rw [hfrom] at hkey
  rw [hto] at hkey'
  -- the leg is cut out at its place
  rw [hlegs] at hregion
  rw [runLegs_state hreach, legStep_built leg hregion] at hstep
  simp only [Except.bind_eq_ok, Except.pure_eq_ok] at hstep
  obtain ⟨a, ha, b, hinvoke, rfl⟩ := hstep
  obtain rfl := leg_spends_carried hp hleg hweight hcarries ha
  have hmoved : ∀ k, Watched R ctx p k → _ := fun k =>
    leg_moves_quoted hdata hfills hlegs (htx leg hleg) (hwired leg hleg) hquote hfull hdeposit
      hreach hinvoke
  have hout : Watched R ctx p ctx.outputTokenAccount.key := Or.inr (Or.inr rfl)
  refine ⟨?_, ?_, ?_, fun hexists => (hmoved _ hout).2 (hcarries.opened hexists)⟩
  · intro k hk
    rw [(hmoved k (Or.inl hk)).1, hcarries.holds k hk]
    unfold placed
    by_cases hk' : k = ataKey ctx leg.fromIdx
    · simp only [if_pos hk']
      omega
    · simp only [if_neg hk', Nat.add_zero]
  · have hne : ctx.inputTokenAccount.key ≠ ataKey ctx leg.fromIdx := fun heq => hinput (heq ▸ hkey ▸ hmem)
    have hne' : ctx.inputTokenAccount.key ≠ ataKey ctx leg.dest := fun heq => hinput (heq ▸ hkey' ▸ hmem')
    rw [(hmoved _ (Or.inr (Or.inl rfl))).1, if_neg hne, if_neg hne']
    exact hcarries.input
  · have hne : ctx.outputTokenAccount.key ≠ ataKey ctx leg.fromIdx :=
      fun heq => houtput (heq ▸ hkey ▸ hmem)
    have hne' : ctx.outputTokenAccount.key ≠ ataKey ctx leg.dest :=
      fun heq => houtput (heq ▸ hkey' ▸ hmem')
    rw [(hmoved _ hout).1, if_neg hne, if_neg hne']
    exact hcarries.output

/-- A chain of legs carries what goes in at its start to its end. -/
theorem carries_chain {pre rest : List (BuiltLeg X ctx.titanPda.key)} {bank₀ : Bank} {st st' : RouteState}
    (hchain : QuoteChain i n rest j m) (hlegs : legs = pre ++ rest)
    (hdeposit : deposit R ctx p = .ok bank₀)
    (hreach : runLegs R ctx p (legSpecs pre) bank₀ = .ok st) (hcarries : Carries R ctx p bank₀ i n st.bank)
    (hrun : (legSpecs rest).foldlM (legStep R ctx p.snapshot.reserved) st = .ok st') :
    Carries R ctx p bank₀ j m st'.bank := by
  induction hchain generalizing pre st with
  | done =>
      obtain rfl := Except.pure_eq_ok.mp hrun
      exact hcarries
  | @leg fuel quote i j n m leg rest hfrom hweight hamount hquote hfull _ ih =>
      subst hfrom hamount
      obtain ⟨st₁, hstep, hrest⟩ := Except.bind_eq_ok.mp hrun
      have hnext := carries_leg hp hregion htx hdata hwired hfills hinput houtput hlegs hweight hquote
        hfull hdeposit hreach hcarries hstep
      -- the legs in front are one more
      have hreach₁ : runLegs R ctx p (legSpecs (pre ++ [leg])) bank₀ = .ok st₁ := by
        unfold runLegs at hreach ⊢
        rw [legSpecs, List.map_append, List.foldlM_append]
        apply Except.bind_eq_ok.mpr
        refine ⟨st, hreach, ?_⟩
        rw [List.map_singleton, List.foldlM_cons, hstep]
        rfl
      have hlegs₁ : legs = pre ++ [leg] ++ rest := by
        rw [hlegs, List.append_assoc]
        rfl
      exact ih hlegs₁ hreach₁ hnext hrest

end Run

/-! ## The route -/

/-- Behind the legs the user's output account holds what it held, and if it was there it still is. -/
theorem output_carried (laws : TokenLaws R) (frames : FrameLaws R) (opens : OpenLaws R)
    (hp : PreparedSpec R ctx mints (legSpecs legs) bank p)
    (houtput : ctx.outputTokenAccount.key ∉ recordedKeys R ctx p.bank)
    (hdistinct : ctx.inputTokenAccount.key ≠ ctx.outputTokenAccount.key)
    (hnew : accountExists (bank ctx.outputTokenAccount.key) = false →
      balances bank ctx.outputTokenAccount.key = 0) {bank₀ b : Bank}
    (hdeposit : deposit R ctx p = .ok bank₀) (hcarries : Carries R ctx p bank₀ j m b) :
    (if accountExists (b ctx.outputTokenAccount.key) then balances b ctx.outputTokenAccount.key
      else 0) = balances bank ctx.outputTokenAccount.key := by
  split
  next =>
    rw [hcarries.output, deposit_frame laws frames hp houtput (Ne.symm hdistinct) hdeposit,
      prepare_frame frames hp houtput]
  next hmissing =>
    refine (hnew (Bool.eq_false_iff.mpr fun hexists => hmissing ?_)).symm
    have hprepared := createAtas_open laws hexists hp.created
    exact hcarries.opened (deposit_open laws opens hprepared (Ne.symm hdistinct) hdeposit)

/-- **What a planned trade pays**: the deposit is charged, the output of the plan arrives, and the
    TitanPDA is left as it was. -/
theorem trade_pays (laws : TokenLaws R) (frames : FrameLaws R) (opens : OpenLaws R)
    (hexact : ExactTransfers R p.inputMint.key) (hexact' : ExactTransfers R p.outputMint.key)
    (hdata : ∀ amount threshold limit, X.swapV3DynData amount threshold limit true =
      Program.SWAP_V3_DYN_DISCRIMINATOR ++ leBytes 8 amount.toNat ++ leBytes 8 threshold.toNat
        ++ leBytes 16 limit ++ [1])
    (hprep : prepare R ctx amount mints (legSpecs legs) bank = .ok p)
    (hregion : RegionOf ctx tx p.mintsCount legs)
    (htx : ∀ leg ∈ legs, ∀ m ∈ leg.accounts, m ∈ tx) (hwired : ∀ leg ∈ legs, Wired leg)
    (hchain : QuoteChain 0 p.effectiveAmount.toNat legs j m) (hfills : FillsQuotes R ctx tx p legs)
    (hinput : ctx.inputTokenAccount.key ∉ recordedKeys R ctx p.bank)
    (houtput : ctx.outputTokenAccount.key ∉ recordedKeys R ctx p.bank)
    (hdistinct : ctx.inputTokenAccount.key ≠ ctx.outputTokenAccount.key)
    (hnew : accountExists (bank ctx.outputTokenAccount.key) = false →
      balances bank ctx.outputTokenAccount.key = 0) (htrade : trade R ctx p (legSpecs legs) = .ok bank') :
    balances bank' ctx.outputTokenAccount.key = balances bank ctx.outputTokenAccount.key + m ∧
      (¬ (p.ledgerAmount = none ∧ isNativeMint R p.inputMint = true) →
        balances bank' ctx.inputTokenAccount.key + p.effectiveAmount.toNat =
          balances bank ctx.inputTokenAccount.key) ∧
      ∀ k ∈ recordedKeys R ctx p.bank, balances bank' k = balances p.bank k := by
  have hp := prepare_spec hprep
  obtain ⟨bank₀, ⟨idx, b⟩, b₂, hdeposit, hlegs, hpayout, hclose⟩ := trade_cases htrade
  -- from the deposit over the legs
  have hstart : Carries R ctx p bank₀ 0 p.effectiveAmount.toNat bank₀ := by
    obtain ⟨-, hholds⟩ := deposit_holds laws frames hp hinput hdeposit
    rw [deposit_exact laws frames hexact hp hinput hdeposit] at hholds
    exact ⟨hholds, rfl, rfl, id⟩
  have hnoLegs : runLegs R ctx p (legSpecs ([] : List (BuiltLeg X ctx.titanPda.key))) bank₀ =
      .ok ⟨_, bank₀⟩ := rfl
  have hend : Carries R ctx p bank₀ j m b :=
    carries_chain hp hregion htx hdata hwired hfills hinput houtput
      hchain (List.nil_append legs).symm hdeposit hnoLegs hstart hlegs
  have hcounted := output_carried laws frames opens hp houtput hdistinct hnew hdeposit hend
  -- the account the payout takes from is the one the chain ends at
  obtain ⟨last, hlast, -⟩ := (prepare_ok hprep).output
  have hne : legs ≠ [] := by
    rintro rfl
    cases hlast
  obtain ⟨last', hlast', hto⟩ := hchain.last hne
  obtain rfl : last = last' := Option.some.inj (hlast.symm.trans hlast')
  obtain ⟨out, houtAta, hkey⟩ := hp.outputAta hprep hlast
  rw [hto] at hkey
  have hrest := payout_holds laws frames hp houtput houtAta hend.holds hpayout
  have huser := payout_exact frames hexact' hp houtput houtAta hend.holds hpayout
  have hclosed := closeCreatedAtas_balances laws hclose
  have hplaced : placed ctx j m out.key = m := if_pos hkey.symm
  refine ⟨?_, ?_, ?_⟩
  · rw [hclosed, huser, hplaced, hcounted]
  · intro hplain
    rw [hclosed, payout_frame laws frames hp hinput hdistinct hpayout, hend.input,
      deposit_charges_tokens laws hp hinput hplain hdeposit, prepare_frame frames hp hinput]
  · intro k hk
    have hnone : (if k = out.key then 0 else placed ctx j m k) = 0 := by
      split
      next => rfl
      next hother =>
        apply if_neg
        intro heq
        exact hother (heq.trans hkey)
    rw [hclosed, hrest k hk]
    simp only [hnone, Nat.add_zero]

/-- **What was quoted is paid.** Take a route whose legs were planned one on the other, from the deposit
    to an output of `m`, built, and wired to the ATAs of the route, and let the venue programs fill what
    their venues quoted. If it returns, the user's output account has gained exactly `m`; the user's input
    account has paid exactly the deposit, unless the deposit was wrapped on the way; and every account of
    the TitanPDA has its recorded balance. -/
theorem quotes_paid (laws : TokenLaws R) (frames : FrameLaws R) (opens : OpenLaws R)
    (hexact : ExactTransfers R p.inputMint.key) (hexact' : ExactTransfers R p.outputMint.key)
    (hdata : ∀ amount threshold limit, X.swapV3DynData amount threshold limit true =
      Program.SWAP_V3_DYN_DISCRIMINATOR ++ leBytes 8 amount.toNat ++ leBytes 8 threshold.toNat
        ++ leBytes 16 limit ++ [1])
    (hprep : prepare R ctx amount mints (legSpecs legs) bank = .ok p)
    (hregion : RegionOf ctx tx p.mintsCount legs)
    (htx : ∀ leg ∈ legs, ∀ m ∈ leg.accounts, m ∈ tx) (hwired : ∀ leg ∈ legs, Wired leg)
    (hchain : QuoteChain 0 p.effectiveAmount.toNat legs j m) (hfills : FillsQuotes R ctx tx p legs)
    (hinput : ctx.inputTokenAccount.key ∉ recordedKeys R ctx p.bank)
    (houtput : ctx.outputTokenAccount.key ∉ recordedKeys R ctx p.bank)
    (hdistinct : ctx.inputTokenAccount.key ≠ ctx.outputTokenAccount.key)
    (hnew : accountExists (bank ctx.outputTokenAccount.key) = false →
      balances bank ctx.outputTokenAccount.key = 0)
    (h : execute R ctx amount mints (legSpecs legs) bank = .ok bank') :
    balances bank' ctx.outputTokenAccount.key = balances bank ctx.outputTokenAccount.key + m ∧
      (¬ (p.ledgerAmount = none ∧ isNativeMint R p.inputMint = true) →
        balances bank' ctx.inputTokenAccount.key + p.effectiveAmount.toNat =
          balances bank ctx.inputTokenAccount.key) ∧
      ∀ k ∈ recordedKeys R ctx p.bank, balances bank' k = balances p.bank k := by
  obtain ⟨p', _, hprep', htrade, -⟩ := execute_cases h
  obtain rfl : p = p' := Except.ok.inj (hprep.symm.trans hprep')
  exact trade_pays laws frames opens hexact hexact' hdata hprep hregion htx hwired hchain hfills hinput
    houtput hdistinct hnew htrade

/-! ## The wiring of a route -/

/-- The token accounts of a generated instruction are the user's, derived from the venue's metadata. -/
theorem generated_tokenAccounts {v : Adapter.ByrealClmmVenue X} {request : QuoteRequest} {user : Pubkey}
    {ix : Instruction} (h : v.generateSwapInstruction request user = .ok ix) :
    ∃ inputToken outputToken, v.tokenOf request.inputMint = .ok inputToken ∧
      v.tokenOf request.outputMint = .ok outputToken ∧
      spendsFrom ix = some (inputToken.getAssociatedTokenAddress X user) ∧
      paysInto ix = some (outputToken.getAssociatedTokenAddress X user) := by
  unfold Adapter.ByrealClmmVenue.generateSwapInstruction at h
  simp only [Except.bind_eq_ok] at h
  obtain ⟨-, -, -, -, inputToken, hinput, outputToken, houtput, hcore⟩ := h
  obtain ⟨z, o, live, oracles, -, -, -, rfl⟩ := buildSwapInstruction_eq_ok hcore
  refine ⟨inputToken, outputToken, hinput, houtput, ?_, ?_⟩
  · cases z with
    | true => rfl
    | false => rfl
  · cases z with
    | true => rfl
    | false => rfl

/-- The caller of the route finds the metadata that the venue finds. -/
theorem ata_of_token {v : Adapter.ByrealClmmVenue X} {mint user : Pubkey} {info info' : TokenInfo}
    (h : tokenForMint v mint = .ok info) (h' : v.tokenOf mint = .ok info') :
    info'.getAssociatedTokenAddress X user = X.getAssociatedTokenAddressWithProgramId user mint
      (info.getTokenProgram X) := by
  unfold tokenForMint at h
  unfold Adapter.ByrealClmmVenue.tokenOf at h'
  rw [Res.orPanic_eq_ok] at h
  rw [Res.orErr_eq_ok] at h'
  obtain rfl : info = info' := Option.some.inj (h.symm.trans h')
  have hkey := List.find?_some h'
  rw [decide_eq_true_eq] at hkey
  rw [TokenInfo.getAssociatedTokenAddress, hkey]

/-- **A leg between derived ATAs is wired**: where the route lists, at the indices of
    the leg, the ATAs that its caller derives from the venue's metadata, they are
    those that the instruction of the leg names. -/
theorem wired_of_atas {leg : BuiltLeg X ctx.titanPda.key} {inputToken outputToken : TokenInfo}
    (hinput : tokenForMint leg.venue leg.request.inputMint = .ok inputToken)
    (houtput : tokenForMint leg.venue leg.request.outputMint = .ok outputToken)
    (hata : ataKey ctx leg.fromIdx = X.getAssociatedTokenAddressWithProgramId ctx.titanPda.key
      leg.request.inputMint (inputToken.getTokenProgram X))
    (hata' : ataKey ctx leg.dest = X.getAssociatedTokenAddressWithProgramId ctx.titanPda.key
      leg.request.outputMint (outputToken.getTokenProgram X)) : Wired leg := by
  intro ix hix
  obtain ⟨inputInfo, outputInfo, hin, hout, hspends, hpays⟩ := generated_tokenAccounts hix
  rw [hspends, hpays, ata_of_token hinput hin, ata_of_token houtput hout, hata, hata']
  exact ⟨rfl, rfl⟩

end ByrealTitan.SwapRoute

/-! ## The reference runtime keeps accounts open -/

namespace ByrealTitan.Program

open Reference

variable {program : Pubkey} {signs : Pubkey → Bool} {b b' : Bank}

/-- An account that loses neither lamports nor data goes on existing. -/
theorem accountExists_mono {a a' : Account} (hlamports : a.lamports ≤ a'.lamports)
    (hdata : a.data.length ≤ a'.data.length) (ha : accountExists a = true) : accountExists a' = true := by
  unfold accountExists at ha ⊢
  rw [Bool.and_eq_true, decide_eq_true_eq, decide_eq_true_eq] at ha ⊢
  exact ⟨Nat.lt_of_lt_of_le ha.1 hlamports, Nat.lt_of_lt_of_le ha.2 hdata⟩

theorem moveTokens_lamports {source dest authority : Pubkey} {n : Nat}
    (h : moveTokens program source dest authority n signs b = .ok b') (k : Pubkey) :
    (b' k).lamports = (b k).lamports := by
  have hspent : (spendDelegation (b source) authority n).lamports = (b source).lamports := by
    unfold spendDelegation
    split
    · rfl
    · split
      · rfl
      · rfl
  unfold moveTokens at h
  simp only [Except.bind_eq_ok, ensure_eq_ok] at h
  obtain ⟨_, -, _, -, _, -, _, -, h⟩ := h
  split at h
  next =>
    obtain rfl := Except.pure_eq_ok.mp h
    rfl
  next =>
    simp only [Except.bind_eq_ok, ensure_eq_ok, Except.pure_eq_ok] at h
    obtain ⟨_, -, rfl⟩ := h
    unfold movedBank
    by_cases hd : k = dest
    · rw [hd, Function.update_self]
      rfl
    · rw [Function.update_of_ne hd]
      by_cases hs : k = source
      · rw [hs, Function.update_self]
        exact hspent
      · rw [Function.update_of_ne hs]

theorem moveTokens_open {source dest authority : Pubkey} {n : Nat}
    (h : moveTokens program source dest authority n signs b = .ok b') {k : Pubkey}
    (hk : accountExists (b k) = true) : accountExists (b' k) = true :=
  accountExists_mono (Nat.le_of_eq (moveTokens_lamports h k).symm)
    (Nat.le_of_eq (moveTokens_rewritten h k).length.symm) hk

theorem closeToken_open {account destination authority k : Pubkey}
    (h : closeToken program account destination authority signs b = .ok b') (hne : k ≠ account)
    (hk : accountExists (b k) = true) : accountExists (b' k) = true := by
  unfold closeToken at h
  simp only [Except.bind_eq_ok, ensure_eq_ok, Except.pure_eq_ok] at h
  obtain ⟨_, -, _, -, _, -, _, -, rfl⟩ := h
  unfold closedBank
  rw [Function.update_of_ne hne]
  by_cases hd : k = destination
  · rw [hd, Function.update_self]
    rw [hd] at hk
    exact accountExists_mono (Nat.le_add_right _ _) (Nat.le_refl _) hk
  · rw [Function.update_of_ne hd]
    exact hk

theorem setOwner_open {account authority newOwner k : Pubkey}
    (h : setOwner program account authority newOwner signs b = .ok b') (hk : accountExists (b k) = true) :
    accountExists (b' k) = true := by
  unfold setOwner at h
  simp only [Except.bind_eq_ok, ensure_eq_ok, Except.pure_eq_ok, isToken, Bool.and_eq_true,
    decide_eq_true_eq] at h
  obtain ⟨_, ⟨-, hlong⟩, _, -, rfl⟩ := h
  by_cases ha : k = account
  · rw [ha, Function.update_self]
    rw [ha] at hk
    have howner : (writeAt (b account).data 32 newOwner.bytes).length = (b account).data.length :=
      length_writeAt (by rw [newOwner.length_eq]; omega)
    have hdelegate : (writeAt (writeAt (b account).data 32 newOwner.bytes) 72 [0, 0, 0, 0]).length =
        (b account).data.length := by
      rw [length_writeAt (by rw [howner]; simp; omega), howner]
    exact accountExists_mono (a := b account) (Nat.le_refl _) (Nat.le_of_eq hdelegate.symm) hk
  · rw [Function.update_of_ne ha]
    exact hk

theorem token_open {ix : TokenInstruction} (h : token program signs b ix = .ok b') {k : Pubkey}
    (hk : accountExists (b k) = true)
    (hother : ∀ destination authority, ix ≠ .closeAccount k destination authority) :
    accountExists (b' k) = true := by
  unfold token at h
  split at h
  · exact moveTokens_open h hk
  · exact moveTokens_open h hk
  next account destination authority =>
    refine closeToken_open h ?_ hk
    rintro rfl
    exact hother destination authority rfl
  · exact setOwner_open h hk
  · cases h

theorem moveLamports_open {source dest k : Pubkey} {n : Nat} (h : moveLamports source dest n b = .ok b')
    (hk : accountExists (b k) = true) : accountExists (b' k) = true := by
  simp only [moveLamports, Except.bind_eq_ok, ensure_eq_ok, Except.pure_eq_ok] at h
  obtain ⟨_, ⟨hempty, -⟩, rfl⟩ := h
  have hpaid : accountExists (Function.update b source
      { b source with lamports := (b source).lamports - n } k) = true := by
    by_cases hs : k = source
    · -- only an account without data pays
      rw [hs] at hk
      simp [accountExists, hempty] at hk
    · rw [Function.update_of_ne hs]
      exact hk
  by_cases hd : k = dest
  · rw [hd] at hpaid
    rw [hd, Function.update_self]
    exact accountExists_mono (Nat.le_add_right _ _) (Nat.le_refl _) hpaid
  · rw [Function.update_of_ne hd]
    exact hpaid

theorem platform_openLaws (venue : VenueProgram) : OpenLaws (platform venue).toRuntime where
  token h _ hk hother := token_open (platform_invokeToken h) hk hother
  systemTransfer h _ hk := moveLamports_open h hk

theorem guarded_frameLaws (titanPda : Pubkey) (venue : VenueProgram) :
    FrameLaws (guarded titanPda venue) where
  createAta := @(frameLaws titanPda venue).createAta
  syncNative := @(frameLaws titanPda venue).syncNative
  systemTransfer := @(frameLaws titanPda venue).systemTransfer

theorem platform_frameLaws (venue : VenueProgram) : FrameLaws (platform venue).toRuntime where
  createAta h := (guarded_frameLaws canonicalPda venue).createAta (platform_createAta h)
  syncNative h := (guarded_frameLaws canonicalPda venue).syncNative (platform_invokeToken h)
  systemTransfer := @(guarded_frameLaws canonicalPda venue).systemTransfer

theorem platform_exactTransfers (venue : VenueProgram) (mint : Pubkey) :
    ExactTransfers (platform venue).toRuntime mint where
  transfer h := (exactTransfers canonicalPda venue mint).transfer (platform_invokeToken h)
  transferChecked h := by
    have hguarded := platform_invokeToken h
    simp only [guarded, runtime, token] at hguarded
    exact moveTokens_moves hguarded

end ByrealTitan.Program

namespace ByrealTitan.SwapRoute

open Clmm Adapter LittleEndian Program

variable {R : Runtime} {ctx : Ctx} {bank bank' b : Bank} {p : Prepared} {k : Pubkey}

/-! ## Two quotes, paid -/

section Sample

open Program.Reference (VenueProgram)

/-- The seller's wallet. -/
def wallet : Pubkey := Pubkey.fill 30

def saleTitan : Pubkey := canonicalPda

/-- The token accounts of the sale, by holder and mint. -/
def saleAta (holder mint : Pubkey) : Pubkey :=
  Sample.X.getAssociatedTokenAddressWithProgramId holder mint Sample.X.SPL_TOKEN_ID

def soldMint : Pubkey := Sample.pool.tokenMint0

/-- The second mint of the first market, and the first of the second. -/
def middleMint : Pubkey := Sample.secondPool.tokenMint0

def boughtMint : Pubkey := Sample.secondPool.tokenMint1

/-- 1000 of the first mint on the first market, and what that is quoted at on the second. -/
def firstRequest : QuoteRequest := ⟨soldMint, middleMint, 1000, .exactIn⟩

def secondRequest : QuoteRequest := ⟨middleMint, boughtMint, 996, .exactIn⟩

def firstAccounts : List AccountMeta :=
  ((buildSwapLeg Sample.refreshed firstRequest saleTitan 0 1 ROUTE_WEIGHT_ALL).toOption.map
    Prod.snd).getD []

def secondAccounts : List AccountMeta :=
  ((buildSwapLeg Sample.secondRefreshed secondRequest saleTitan 1 2 ROUTE_WEIGHT_ALL).toOption.map
    Prod.snd).getD []

/-- The ATAs of the TitanPDA and the mints, as a route lists them first. -/
def saleHead : List AccountMeta :=
  [.new (saleAta saleTitan soldMint) false, .new (saleAta saleTitan middleMint) false,
    .new (saleAta saleTitan boughtMint) false, .newReadonly soldMint false, .newReadonly middleMint false,
    .newReadonly boughtMint false]

/-- The metas of the transaction. -/
def saleMetas : List AccountMeta :=
  [.new wallet true, .new saleTitan false, .new (saleAta wallet soldMint) false,
    .new (saleAta wallet boughtMint) false, .newReadonly Sample.X.SPL_TOKEN_ID false,
    .newReadonly Sample.X.SPL_TOKEN_2022_ID false] ++ saleHead ++
    firstAccounts ++ secondAccounts

def saleCtx : Ctx where
  payer := loaded saleMetas wallet
  user := loaded saleMetas wallet
  titanPda := loaded saleMetas saleTitan
  bump := 255
  inputTokenAccount := loaded saleMetas (saleAta wallet soldMint)
  outputTokenAccount := loaded saleMetas (saleAta wallet boughtMint)
  tokenProgram := loaded saleMetas Sample.X.SPL_TOKEN_ID
  token2022Program := loaded saleMetas Sample.X.SPL_TOKEN_2022_ID
  systemProgram := loaded saleMetas SYSTEM_PROGRAM_ID
  tokenLedger := none
  remainingAccounts := (saleHead ++ firstAccounts ++ secondAccounts).map fun m => loaded saleMetas m.pubkey
  remaining_le := by
    rw [List.length_map]
    decide +kernel

/-- Everything from the first ATA to the second. -/
def firstLeg : BuiltLeg Sample.X saleCtx.titanPda.key where
  venue := Sample.refreshed
  request := firstRequest
  fromIdx := 0
  dest := 1
  weightNanos := ROUTE_WEIGHT_ALL
  spec := ⟨.byrealClmm true, 0, 1, ROUTE_WEIGHT_ALL, 17⟩
  accounts := firstAccounts
  updated := Adapter.ByrealClmmVenue.refreshed_updated
  built := Except.toOption_eq_some.mp (by decide +kernel)

/-- And from there to the third. -/
def secondLeg : BuiltLeg Sample.X saleCtx.titanPda.key where
  venue := Sample.secondRefreshed
  request := secondRequest
  fromIdx := 1
  dest := 2
  weightNanos := ROUTE_WEIGHT_ALL
  spec := ⟨.byrealClmm true, 1, 2, ROUTE_WEIGHT_ALL, 17⟩
  accounts := secondAccounts
  updated := Adapter.ByrealClmmVenue.secondRefreshed_updated
  built := Except.toOption_eq_some.mp (by decide +kernel)

theorem firstLeg_parts : firstLeg.venue = Sample.refreshed ∧ firstLeg.request = firstRequest ∧
    firstLeg.accounts = firstAccounts := by
  refine ⟨?_, ?_, ?_⟩
  · simp only [firstLeg]
  · simp only [firstLeg]
  · simp only [firstLeg]

theorem secondLeg_parts : secondLeg.venue = Sample.secondRefreshed ∧ secondLeg.request = secondRequest ∧
    secondLeg.accounts = secondAccounts := by
  refine ⟨?_, ?_, ?_⟩
  · simp only [secondLeg]
  · simp only [secondLeg]
  · simp only [secondLeg]

theorem saleTitan_key : saleCtx.titanPda.key = saleTitan := rfl

def saleLegs : List (BuiltLeg Sample.X saleCtx.titanPda.key) := [firstLeg, secondLeg]

def saleSwaps : List Program.SwapSpecInputV2 := legSpecs saleLegs

/-- A venue program that takes the amount it is called with, and pays
    the 996 or the 992 that were quoted. -/
def filler : VenueProgram where
  respond ix :=
    let source := (spendsFrom ix).getD ZERO_PUBKEY
    let dest := (paysInto ix).getD ZERO_PUBKEY
    if source = saleAta saleTitan soldMint then
      [.transfer source Sample.pool.tokenVault0 saleTitan (Reference.Sample.amountOf ix),
        .transfer Sample.pool.tokenVault1 dest Sample.market 996]
    else
      [.transfer source Sample.secondPool.tokenVault0 saleTitan (Reference.Sample.amountOf ix),
        .transfer Sample.secondPool.tokenVault1 dest Sample.market 992]
  authority := Sample.market

def salePlatform : Platform := platform filler

def saleRuntime : Runtime := salePlatform.toRuntime

def saleBank : Bank := fun k =>
  if k = saleTitan then ⟨953520, TitanPda.serialize 255, Program.ID⟩
  else if k = saleAta wallet soldMint then Reference.Sample.tokenAccount soldMint wallet 3000 none
  else if k = saleAta wallet boughtMint then Reference.Sample.tokenAccount boughtMint wallet 5 none
  else if k = saleAta saleTitan soldMint then Reference.Sample.tokenAccount soldMint saleTitan 70 none
  else if k = saleAta saleTitan middleMint then Reference.Sample.tokenAccount middleMint saleTitan 8 none
  else if k = saleAta saleTitan boughtMint then Reference.Sample.tokenAccount boughtMint saleTitan 0 none
  else if k = Sample.pool.tokenVault0 then Reference.Sample.tokenAccount soldMint Sample.market 50000 none
  else if k = Sample.pool.tokenVault1 then Reference.Sample.tokenAccount middleMint
    Sample.market 50000 none
  else if k = Sample.secondPool.tokenVault0 then Reference.Sample.tokenAccount middleMint
    Sample.market 50000 none
  else if k = Sample.secondPool.tokenVault1 then Reference.Sample.tokenAccount boughtMint
    Sample.market 50000 none
  else if k = soldMint ∨ k = middleMint ∨ k = boughtMint then Reference.Sample.mintAccount
  else ⟨1000000, [], ZERO_PUBKEY⟩

theorem firstQuoted : ∃ quote, Sample.refreshed.quote 30 firstRequest = .ok quote ∧
    quote.notEnoughLiquidity = false ∧ quote.expectedOutput = 996 := by
  have hquote : (Sample.refreshed.quote 30 firstRequest).okAnd
      (fun quote => !quote.notEnoughLiquidity && decide (quote.expectedOutput = 996)) = true := by
    decide +kernel
  obtain ⟨quote, hok, hfacts⟩ := Except.okAnd_eq_true.mp hquote
  rw [Bool.and_eq_true, decide_eq_true_eq, Bool.not_eq_true'] at hfacts
  exact ⟨quote, hok, hfacts⟩

theorem secondQuoted : ∃ quote, Sample.secondRefreshed.quote 30 secondRequest = .ok quote ∧
    quote.notEnoughLiquidity = false ∧ quote.expectedOutput = 992 := by
  have hquote : (Sample.secondRefreshed.quote 30 secondRequest).okAnd
      (fun quote => !quote.notEnoughLiquidity && decide (quote.expectedOutput = 992)) = true := by
    decide +kernel
  obtain ⟨quote, hok, hfacts⟩ := Except.okAnd_eq_true.mp hquote
  rw [Bool.and_eq_true, decide_eq_true_eq, Bool.not_eq_true'] at hfacts
  exact ⟨quote, hok, hfacts⟩

/-- The second leg was quoted for what the first one promised. -/
theorem saleLegs_chain : QuoteChain 0 1000 saleLegs 2 992 := by
  obtain ⟨quote, hquote, hfull, hout⟩ := firstQuoted
  obtain ⟨quote', hquote', hfull', hout'⟩ := secondQuoted
  obtain ⟨hvenue, hrequest, -⟩ := firstLeg_parts
  obtain ⟨hvenue', hrequest', -⟩ := secondLeg_parts
  have hsecond : QuoteChain 1 996 [secondLeg] 2 992 := by
    rw [← hout']
    refine @QuoteChain.leg _ _ 30 quote' _ _ _ _ _ _ rfl (by decide) ?_ ?_ hfull' (QuoteChain.done _ _)
    · rw [hrequest']
      rfl
    · rw [hvenue', hrequest']
      exact hquote'
  rw [← hout] at hsecond
  refine @QuoteChain.leg _ _ 30 quote _ _ _ _ _ _ rfl (by decide) ?_ ?_ hfull hsecond
  · rw [hrequest]
    rfl
  · rw [hvenue, hrequest]
    exact hquote

theorem saleLegs_region : RegionOf saleCtx saleMetas 3 saleLegs := by
  obtain ⟨-, -, haccounts⟩ := firstLeg_parts
  obtain ⟨-, -, haccounts'⟩ := secondLeg_parts
  refine ⟨by decide +kernel, ?_⟩
  rw [saleLegs, List.flatMap_cons, List.flatMap_cons, List.flatMap_nil, List.append_nil,
    haccounts, haccounts']
  unfold saleCtx
  rw [← List.map_drop, List.append_assoc, List.drop_left' (by rfl : saleHead.length = 2 * 3)]

theorem saleLegs_metas : ∀ leg ∈ saleLegs, ∀ m ∈ leg.accounts, m ∈ saleMetas := by
  obtain ⟨-, -, haccounts⟩ := firstLeg_parts
  obtain ⟨-, -, haccounts'⟩ := secondLeg_parts
  intro leg hleg m hm
  rcases List.mem_cons.mp hleg with rfl | hleg
  · rw [haccounts] at hm
    exact List.mem_append_left _ (List.mem_append_right _ hm)
  · rw [List.mem_singleton.mp hleg, haccounts'] at hm
    exact List.mem_append_right _ hm

/-- The mints of the two markets are plain SPL mints. -/
theorem saleMint_found (v : Adapter.ByrealClmmVenue Sample.X) (mint : Pubkey)
    (hfound : (tokenForMint v mint).okAnd (fun info => !info.isToken2022) = true) :
    ∃ info, tokenForMint v mint = .ok info ∧ info.getTokenProgram Sample.X = Sample.X.SPL_TOKEN_ID := by
  obtain ⟨info, hinfo, hplain⟩ := Except.okAnd_eq_true.mp hfound
  rw [Bool.not_eq_true'] at hplain
  refine ⟨info, hinfo, ?_⟩
  rw [TokenInfo.getTokenProgram, hplain]
  rfl

theorem saleLegs_wired : ∀ leg ∈ saleLegs, Wired leg := by
  have hkeys : ataKey saleCtx 0 = saleAta saleTitan soldMint ∧
      ataKey saleCtx 1 = saleAta saleTitan middleMint ∧
      ataKey saleCtx 2 = saleAta saleTitan boughtMint := ⟨rfl, rfl, rfl⟩
  obtain ⟨hvenue, hrequest, -⟩ := firstLeg_parts
  obtain ⟨hvenue', hrequest', -⟩ := secondLeg_parts
  intro leg hleg
  rcases List.mem_cons.mp hleg with rfl | hleg
  · obtain ⟨sold, hsold, hprogram⟩ := saleMint_found Sample.refreshed soldMint (by decide +kernel)
    obtain ⟨middle, hmiddle, hprogram'⟩ := saleMint_found Sample.refreshed middleMint (by decide +kernel)
    refine @wired_of_atas _ _ firstLeg sold middle ?_ ?_ ?_ ?_
    · rw [hvenue, hrequest]
      exact hsold
    · rw [hvenue, hrequest]
      exact hmiddle
    · rw [hprogram, hrequest]
      exact hkeys.1
    · rw [hprogram', hrequest]
      exact hkeys.2.1
  · rw [List.mem_singleton.mp hleg]
    obtain ⟨middle, hmiddle, hprogram⟩ :=
      saleMint_found Sample.secondRefreshed middleMint (by decide +kernel)
    obtain ⟨bought, hbought, hprogram'⟩ :=
      saleMint_found Sample.secondRefreshed boughtMint (by decide +kernel)
    refine @wired_of_atas _ _ secondLeg middle bought ?_ ?_ ?_ ?_
    · rw [hvenue', hrequest']
      exact hmiddle
    · rw [hvenue', hrequest']
      exact hbought
    · rw [hprogram, hrequest']
      exact hkeys.2.1
    · rw [hprogram', hrequest']
      exact hkeys.2.2

/-- A prepared sale starts from the balances it finds. -/
theorem sale_bank {a : UInt64} (h : prepare saleRuntime saleCtx a 3 saleSwaps saleBank = .ok p) :
    p.bank = saleBank := by
  refine (prepare_spec h).bank_eq ?_
  show ∀ i < 3, ∀ ata ∈ saleCtx.remainingAccounts[i]?, accountExists (saleBank ata.key) = true
  decide +kernel

/-- What does not belong to the TitanPDA is not recorded. -/
theorem sale_not_recorded {a : UInt64} (h : prepare saleRuntime saleCtx a 3 saleSwaps saleBank = .ok p)
    (hk : isTitanPdaTokenAccount saleRuntime (saleBank k) saleTitan = false) :
    k ∉ recordedKeys saleRuntime saleCtx p.bank := by
  rw [sale_bank h]
  exact not_recorded hk

/-- The vaults of the two markets. -/
def saleVaults : List Pubkey :=
  [Sample.pool.tokenVault0, Sample.pool.tokenVault1, Sample.secondPool.tokenVault0,
    Sample.secondPool.tokenVault1]

/-- None of them is watched. -/
theorem sale_not_watched {a : UInt64} (h : prepare saleRuntime saleCtx a 3 saleSwaps saleBank = .ok p)
    {vault : Pubkey} (hvault : vault ∈ saleVaults) (hk : Watched saleRuntime saleCtx p k) :
    k ≠ vault := by
  have hforeign : ∀ x ∈ saleVaults, isTitanPdaTokenAccount saleRuntime (saleBank x) saleTitan = false ∧
      x ≠ saleAta wallet soldMint ∧ x ≠ saleAta wallet boughtMint := by
    decide +kernel
  rintro rfl
  obtain ⟨htitan, hinput, houtput⟩ := hforeign k hvault
  rcases hk with hrecorded | heq | heq
  · exact sale_not_recorded h htitan hrecorded
  · exact hinput heq
  · exact houtput heq

/-- Calls with the same accounts and data are answered alike, with
    transfers of the reference token program. -/
theorem filler_transfers {cpi ix : Instruction} {infos : List AccountInfo} {seeds : SignerSeeds}
    (hcall : SameCall cpi ix) (h : saleRuntime.invokeSigned cpi infos seeds b = .ok bank') :
    (filler.respond ix).foldlM (Reference.token Reference.SPL_TOKEN_ID (filler.signs cpi))
      b = .ok bank' := by
  have hkeys : ∀ i : Nat, cpi.accounts[i]?.map AccountMeta.pubkey = ix.accounts[i]?.map
      AccountMeta.pubkey := by
    intro i
    rw [← List.getElem?_map, ← List.getElem?_map, hcall.keys]
  have hspends : spendsFrom cpi = spendsFrom ix := hkeys 3
  have hpays : paysInto cpi = paysInto ix := hkeys 4
  have hamount : Reference.Sample.amountOf cpi = Reference.Sample.amountOf ix := by
    rw [Reference.Sample.amountOf, Reference.Sample.amountOf, hcall.data]
  have hrespond : filler.respond cpi = filler.respond ix := by
    simp only [filler, hspends, hpays, hamount]
  rw [← hrespond]
  have hresponse : (guarded canonicalPda filler).invokeSigned cpi infos seeds b = .ok bank' :=
    platform_invokeSigned h
  simp only [guarded, Reference.runtime] at hresponse
  split at hresponse
  next => exact hresponse
  next => cases hresponse

/-- A transfer in and a transfer out, and what they leave of the accounts that are neither vault. -/
theorem fills_of_transfers {signs : Pubkey → Bool} {source sourceVault destVault dest holder : Pubkey}
    {n m : UInt64}
    (h : ([.transfer source sourceVault saleTitan n, .transfer destVault dest holder m] :
      List TokenInstruction).foldlM (Reference.token Reference.SPL_TOKEN_ID signs) b = .ok bank')
    (hdistinct : [source, sourceVault, destVault, dest].Nodup) (hk : k ≠ sourceVault)
    (hk' : k ≠ destVault) :
    balances bank' k =
      (if some source = some k then balances b k - n.toNat else balances b k) +
        (if some dest = some k then m.toNat else 0) ∧
    (accountExists (b k) = true → accountExists (bank' k) = true) := by
  simp only [List.nodup_cons, List.mem_cons, List.not_mem_nil, or_false, not_or] at hdistinct
  obtain ⟨⟨hs, hsv, hne⟩, ⟨-, hdv⟩, hd, -⟩ := hdistinct
  simp only [List.foldlM_cons, List.foldlM_nil, Except.bind_eq_ok, Except.pure_eq_ok, Reference.token] at h
  obtain ⟨b₁, hin, _, hout, rfl⟩ := h
  refine ⟨?_, fun hexists => moveTokens_open hout (moveTokens_open hin hexists)⟩
  have hin := Reference.moveTokens_moves hin
  have hout := Reference.moveTokens_moves hout
  simp only [Option.some.injEq]
  by_cases hsource : source = k
  · subst hsource
    rw [if_pos rfl, if_neg (Ne.symm hne), hout.frame _ hsv hne, hin.source_eq hs, Nat.add_zero]
  · rw [if_neg hsource]
    by_cases hdest : dest = k
    · subst hdest
      rw [if_pos rfl, hout.dest_eq hd, hin.frame _ (Ne.symm hne) (Ne.symm hdv)]
    · rw [if_neg hdest, hout.frame k hk' (Ne.symm hdest), hin.frame k (Ne.symm hsource) hk, Nat.add_zero]

/-- What the instruction of a leg of the sale names. -/
theorem saleLeg_names {v : Adapter.ByrealClmmVenue Sample.X} {request : QuoteRequest} {ix : Instruction}
    (source dest : Pubkey) (n : UInt64)
    (hfacts : (v.generateSwapInstruction request saleTitan).okAnd (fun ix =>
      decide (spendsFrom ix = some source ∧ paysInto ix = some dest ∧
        Reference.Sample.amountOf ix = n)) = true)
    (hix : v.generateSwapInstruction request saleTitan = .ok ix) :
    spendsFrom ix = some source ∧ paysInto ix = some dest ∧ Reference.Sample.amountOf ix = n := by
  rw [hix, Except.okAnd, decide_eq_true_eq] at hfacts
  exact hfacts

theorem filler_fills {a : UInt64} (h : prepare saleRuntime saleCtx a 3 saleSwaps saleBank = .ok p) :
    FillsQuotes saleRuntime saleCtx saleMetas p saleLegs := by
  intro pre leg post fuel quote ix cpi bank₀ st bank' hlegs hquote _ hix hcall _ _ hinvoke k hk
  have hmem : leg ∈ saleLegs := by
    rw [hlegs]
    exact List.mem_append_right _ List.mem_cons_self
  have hmoved := filler_transfers hcall hinvoke
  rcases List.mem_cons.mp hmem with rfl | hmem
  · obtain ⟨hvenue, hrequest, -⟩ := firstLeg_parts
    rw [hvenue, hrequest] at hquote hix
    rw [saleTitan_key] at hix
    obtain ⟨quote', hquote', -, hout⟩ := firstQuoted
    obtain ⟨hspends, hpays, hamount⟩ := saleLeg_names (saleAta saleTitan soldMint)
      (saleAta saleTitan middleMint) 1000 (by decide +kernel) hix
    rw [quote_agrees hquote hquote', hout, hspends, hpays, hrequest]
    simp only [filler, hspends, hpays, hamount, Option.getD_some, if_true] at hmoved
    exact fills_of_transfers hmoved (by decide +kernel) (sale_not_watched h (by decide +kernel) hk)
      (sale_not_watched h (by decide +kernel) hk)
  · rw [List.mem_singleton.mp hmem] at hquote hix ⊢
    obtain ⟨hvenue, hrequest, -⟩ := secondLeg_parts
    rw [hvenue, hrequest] at hquote hix
    rw [saleTitan_key] at hix
    obtain ⟨quote', hquote', -, hout⟩ := secondQuoted
    obtain ⟨hspends, hpays, hamount⟩ := saleLeg_names (saleAta saleTitan middleMint)
      (saleAta saleTitan boughtMint) 996 (by decide +kernel) hix
    have hsecond : saleAta saleTitan middleMint ≠ saleAta saleTitan soldMint := by decide +kernel
    rw [quote_agrees hquote hquote', hout, hspends, hpays, hrequest]
    simp only [filler, hspends, hpays, hamount, Option.getD_some, if_neg hsecond] at hmoved
    exact fills_of_transfers hmoved (by decide +kernel) (sale_not_watched h (by decide +kernel) hk)
      (sale_not_watched h (by decide +kernel) hk)

/-- The seller of 1000 over two markets is paid the 992 that were quoted last, and the TitanPDA keeps its
    70 and 8 tokens of the mints on the way. -/
theorem quotes_paid_sample :
    ∃ bank', execute saleRuntime saleCtx 1000 3 saleSwaps saleBank = .ok bank' ∧
      balances bank' (saleAta wallet boughtMint) = 5 + 992 ∧
      balances bank' (saleAta wallet soldMint) + 1000 = 3000 ∧
      balances bank' (saleAta saleTitan soldMint) = 70 ∧
      balances bank' (saleAta saleTitan middleMint) = 8 := by
  obtain ⟨bank', hrun⟩ : ∃ bank', execute saleRuntime saleCtx 1000 3 saleSwaps saleBank = .ok bank' :=
    Except.exists_of_failure? (by decide +kernel)
  obtain ⟨p, -, hprep, -⟩ := execute_cases hrun
  have hfacts : (prepare saleRuntime saleCtx 1000 3 saleSwaps saleBank).okAnd (fun p =>
      !isNativeMint saleRuntime p.inputMint) = true := by
    decide +kernel
  rw [hprep, Except.okAnd, Bool.not_eq_true'] at hfacts
  have hnative : ¬ (p.ledgerAmount = none ∧ isNativeMint saleRuntime p.inputMint = true) := by
    rintro ⟨-, hnative⟩
    rw [hfacts] at hnative
    cases hnative
  have hmints : p.mintsCount = 3 := (prepare_ok hprep).mints
  have hdeposited : p.effectiveAmount = 1000 := effectiveAmount_eq rfl hprep
  have hregion : RegionOf saleCtx saleMetas p.mintsCount saleLegs := by
    rw [hmints]
    exact saleLegs_region
  have hchain : QuoteChain 0 p.effectiveAmount.toNat saleLegs 2 992 := by
    rw [hdeposited]
    exact saleLegs_chain
  have hexists : accountExists (saleBank (saleAta wallet boughtMint)) = true := by decide +kernel
  have hnew : accountExists (saleBank saleCtx.outputTokenAccount.key) = false →
      balances saleBank saleCtx.outputTokenAccount.key = 0 := by
    intro hmissing
    exact absurd (hexists.symm.trans hmissing) (by simp)
  have laws : TokenLaws saleRuntime := platform_tokenLaws filler
  have frames : FrameLaws saleRuntime := platform_frameLaws filler
  have opens : OpenLaws saleRuntime := platform_openLaws filler
  obtain ⟨hgained, hpaid, hkept⟩ := quotes_paid laws frames opens (platform_exactTransfers filler _)
    (platform_exactTransfers filler _) (fun _ _ _ => rfl) hprep hregion saleLegs_metas saleLegs_wired
    hchain (filler_fills hprep) (sale_not_recorded hprep (by decide +kernel))
    (sale_not_recorded hprep (by decide +kernel)) (by decide +kernel) hnew hrun
  -- the ATAs on the way are recorded
  have hrecorded : ∀ i < 2, ataKey saleCtx i ∈ recordedKeys saleRuntime saleCtx p.bank := by
    intro i hi
    have hlt : i.toNat < p.mintsCount := by
      rw [hmints]
      exact Nat.lt_trans (UInt8.lt_iff_toNat_lt.mp hi) (by decide)
    obtain ⟨a, -, hkey, hmem, -⟩ := (prepare_spec hprep).ata hlt
    rw [hkey]
    exact hmem
  refine ⟨bank', hrun, ?_, ?_, ?_, ?_⟩
  · exact hgained.trans (by decide +kernel)
  · rw [hdeposited] at hpaid
    exact (hpaid hnative).trans (by decide +kernel)
  · have hbalance := hkept _ (hrecorded 0 (by decide))
    rw [sale_bank hprep] at hbalance
    exact hbalance.trans (by decide +kernel)
  · have hbalance := hkept _ (hrecorded 1 (by decide))
    rw [sale_bank hprep] at hbalance
    exact hbalance.trans (by decide +kernel)

end Sample

end ByrealTitan.SwapRoute
