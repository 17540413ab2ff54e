import ByrealTitan.Correctness.Prepared
import ByrealTitan.Lib.Portfolio
import ByrealTitan.Program.FrameLaws

/-!
# `Correctness.Holdings` — a route trades a portfolio

What the TitanPDA's accounts hold above their recorded balances is, while a route runs, a portfolio of
the user's: it starts with what the deposit brought to the first ATA, every leg is a weighted trade in
it, and the payout takes what it holds of the output mint at the end. `route_runs_portfolio` is this
refinement, from the bytes of the accounts up to `Portfolio.run`. Two results are read off it: a route
that forwards every mint in full leaves nothing of the deposit behind (`forwarding_strands_nothing`),
and where the markets give more for more, a larger deposit is never paid out less
(`larger_deposit_pays_more`). A mint may have a transfer fee: then less arrives than is sent.
-/

namespace ByrealTitan.Program

open Reserve Portfolio

variable {R : Runtime} {ctx : Ctx} {amount : UInt64} {mints : UInt8} {swaps : List SwapSpecInputV2}
  {bank bank' : Bank} {p : Prepared} {market : Nat → Nat → Nat}

/-! ## A route as a list of trades -/

/-- The address of the account at an index of the route. -/
def ataKey (ctx : Ctx) (i : UInt8) :
    Pubkey := (ctx.remainingAccounts[i.toNat]?.map (·.key)).getD ZERO_PUBKEY

theorem ataKey_eq {i : UInt8} {a : AccountInfo} (h : ctx.remainingAccounts[i.toNat]? = some a) :
    ataKey ctx i = a.key := by
  rw [ataKey, h]
  rfl

/-- The legs as trades; the market of a leg is known by its position. -/
def legTrades (ctx : Ctx) (market : Nat → Nat → Nat) (swaps : List SwapSpecInputV2) :
    List (Trade Pubkey) :=
  swaps.zipIdx.map fun leg =>
    { source := ataKey ctx leg.1.fromIdx
      dest := ataKey ctx leg.1.toIdx
      weight := min leg.1.weightNanos.toNat 1000000000
      buys := market leg.2 }

/-- What the deposit has brought to the first ATA. -/
def credited (ctx : Ctx) (p : Prepared) (bank₀ : Bank) : Nat :=
  balances bank₀ (ataKey ctx 0) - balances p.bank (ataKey ctx 0)

/-- The deposit, as the portfolio the legs start from. -/
def deposited (ctx : Ctx) (n : Nat) : Pubkey → Nat := fun k => if k = ataKey ctx 0 then n else 0

theorem legTrades_bounded : Bounded 1000000000 (legTrades ctx market swaps) := by
  intro t ht
  obtain ⟨leg, -, rfl⟩ := List.mem_map.mp ht
  exact Nat.min_le_right _ _

/-- One more leg is one more trade. -/
theorem legTrades_append (pre : List SwapSpecInputV2) (swap : SwapSpecInputV2) :
    legTrades ctx market (pre ++ [swap]) = legTrades ctx market pre ++
      [{ source := ataKey ctx swap.fromIdx
         dest := ataKey ctx swap.toIdx
         weight := min swap.weightNanos.toNat 1000000000
         buys := market pre.length }] := by
  simp [legTrades, List.zipIdx_append]

/-- Every CPI trades at its market: exactly the amount of the leg leaves the account it spends from, what
    the market gives for it arrives on the account it pays into, and no other recorded account changes. -/
def TradesAt (market : Nat → Nat → Nat) (R : Runtime) (ctx : Ctx) (p : Prepared)
    (swaps : List SwapSpecInputV2) : Prop :=
  ∀ pre swap post bank₀ st n bank', swaps = pre ++ swap :: post →
    deposit R ctx p = .ok bank₀ → runLegs R ctx p pre bank₀ = .ok st →
    legInputAmount ctx p.snapshot.reserved st.bank swap = .ok n →
    legCpi R ctx n swap st.remainingAccountIndex swap.nAccounts.toNat st.bank = .ok bank' →
      ∀ k ∈ recordedKeys R ctx p.bank, balances bank' k =
        (if k = ataKey ctx swap.fromIdx then balances st.bank k - n.toNat else balances st.bank k) +
          if k = ataKey ctx swap.toIdx then market pre.length n.toNat else 0

/-- **The refinement relation**: above its recorded balance, every recorded account holds the portfolio. -/
def Holds (R : Runtime) (ctx : Ctx) (p : Prepared) (h : Pubkey → Nat) (b : Bank) : Prop :=
  ∀ k ∈ recordedKeys R ctx p.bank, balances b k = balances p.bank k + h k

/-! ## Every stage refines its part -/

/-- An ATA of the route is a recorded account, and its reserve is its recorded balance. -/
theorem PreparedSpec.ata (hp : PreparedSpec R ctx mints swaps bank p) {i : UInt8}
    (hi : i.toNat < p.mintsCount) :
    ∃ a, ctx.remainingAccounts[i.toNat]? = some a ∧ ataKey ctx i = a.key ∧
    a.key ∈ recordedKeys R ctx p.bank ∧
      p.snapshot.reserved[i.toNat]? = some (tokenAmountOrZero (p.bank a.key)) := by
  have hrem := hp.remaining
  have ha : ctx.remainingAccounts[i.toNat]? = some ctx.remainingAccounts[i.toNat] :=
    List.getElem?_eq_getElem (by omega)
  obtain ⟨hres, hmem⟩ := hp.reserved_eq hi ha
  exact ⟨_, ha, ataKey_eq ha, hmem, hres⟩

/-- The output ATA is that of the last leg. -/
theorem PreparedSpec.outputAta (hp : PreparedSpec R ctx mints swaps bank p)
    (hprep : prepare R ctx amount mints swaps bank = .ok p) {last : SwapSpecInputV2}
    (hlast : swaps.getLast? = some last) :
    ∃ out, ctx.remainingAccounts[p.outputAtaIndex]? = some out ∧ ataKey ctx last.toIdx = out.key := by
  obtain ⟨last', hlast', hindex⟩ := (prepare_ok hprep).output
  obtain rfl : last = last' := Option.some.inj (hlast.symm.trans hlast')
  obtain ⟨out, hout, hkey, -⟩ := hp.ata (hp.legs last (List.mem_of_getLast? hlast)).2
  rw [← hindex] at hout
  exact ⟨out, hout, hkey⟩

/-- One leg is one trade. -/
theorem legStep_holds (hp : PreparedSpec R ctx mints swaps bank p)
    (hmarket : TradesAt market R ctx p swaps)
    {pre post : List SwapSpecInputV2} {swap : SwapSpecInputV2} {bank₀ : Bank} {st st' : RouteState}
    (hswaps : swaps = pre ++ swap :: post) (hdeposit : deposit R ctx p = .ok bank₀)
    (hreach : runLegs R ctx p pre bank₀ = .ok st) {h : Pubkey → Nat} (hholds : Holds R ctx p h st.bank)
    (hstep : legStep R ctx p.snapshot.reserved st swap = .ok st') :
    Holds R ctx p (run 1000000000 h [{ source := ataKey ctx swap.fromIdx
                                       dest := ataKey ctx swap.toIdx
                                       weight := min swap.weightNanos.toNat 1000000000
                                       buys := market pre.length }]) st'.bank := by
  obtain ⟨-, -, n, hn, hcpi⟩ := legStep_cases hstep
  obtain ⟨source, hsource, hkey, hmem, hres⟩ := hp.ata (hp.legs swap (by simp [hswaps])).1
  -- the leg asks for its weight of what the portfolio holds
  have hamount := legInputAmount_eq hsource hres hn
  have hheld : balances st.bank source.key - (tokenAmountOrZero (p.bank source.key)).toNat =
      h source.key := by
    rw [hholds source.key hmem]
    exact Nat.add_sub_cancel_left _ _
  rw [hheld, ← hkey] at hamount
  have hle : n.toNat ≤ h (ataKey ctx swap.fromIdx) := by
    rw [hamount]
    exact share_le (Nat.min_le_right _ _)
  intro k hk
  rw [hmarket pre swap post bank₀ st n _ hswaps hdeposit hreach hn hcpi k hk, hholds k hk]
  simp only [run_cons, run_nil, fill, Trade.spends, ← hamount]
  by_cases hfrom : k = ataKey ctx swap.fromIdx
  · subst hfrom
    simp only [if_true]
    omega
  · simp only [if_neg hfrom]
    omega

/-- The legs are the run of their trades. -/
theorem runLegs_holds (hp : PreparedSpec R ctx mints swaps bank p)
    (hmarket : TradesAt market R ctx p swaps)
    {bank₀ : Bank} (hdeposit : deposit R ctx p = .ok bank₀) {h : Pubkey → Nat}
    (hholds : Holds R ctx p h bank₀) {st : RouteState} (hrun : runLegs R ctx p swaps bank₀ = .ok st) :
    Holds R ctx p (run 1000000000 h (legTrades ctx market swaps)) st.bank := by
  have hyields : Yields (runLegs R ctx p swaps bank₀)
      (fun st => Holds R ctx p (run 1000000000 h (legTrades ctx market swaps)) st.bank)
      (fun _ => True) := by
    refine Yields.foldlM (I := fun pre (st : RouteState) =>
      Holds R ctx p (run 1000000000 h (legTrades ctx market pre)) st.bank) hholds ?_
    intro pre swap post s hsplit hreach hs
    refine Yields.intro (fun s' hs' => ?_) (fun _ _ => trivial)
    rw [legTrades_append, run_append]
    exact legStep_holds hp hmarket hsplit hdeposit hreach hs hs'
  exact hyields.of_ok hrun

section Laws

variable (laws : TokenLaws R) (frames : FrameLaws R)

include laws frames

/-- The deposit is one transfer to the first ATA, which changes no other account of the TitanPDA. -/
theorem deposit_transfer (hp : PreparedSpec R ctx mints swaps bank p)
    (hinput : ctx.inputTokenAccount.key ∉ recordedKeys R ctx p.bank) (h : deposit R ctx p = .ok bank') :
    ∃ first b₁ b₂, ataKey ctx 0 = first.key ∧ first.key ∈ recordedKeys R ctx p.bank ∧
      transferTokens R (getTokenProgramForMint R ctx p.bank p.inputMint) ctx.inputTokenAccount first
        ctx.user (some p.inputMint) p.effectiveAmount p.inputMintDecimals [] b₁ = .ok b₂ ∧
      ∀ k ∈ recordedKeys R ctx p.bank, balances b₁ k = balances p.bank k ∧
      balances bank' k = balances b₂ k := by
  obtain ⟨first, created, b₁, b₂, hfirst, hsetup, htransfer, hclose⟩ := deposit_cases h
  obtain ⟨first', hfirst', hkey, hmem, -⟩ := hp.ata (i := 0) (Nat.lt_of_succ_lt hp.mints_pos)
  obtain rfl : first = first' := Option.some.inj (hfirst.symm.trans hfirst')
  refine ⟨first, b₁, b₂, hkey, hmem, htransfer, fun k hk => ?_⟩
  have hne : k ≠ ctx.inputTokenAccount.key := fun heq => hinput (heq ▸ hk)
  refine ⟨setupInput_frame frames hsetup hne, ?_⟩
  rcases hclose with ⟨-, rfl⟩ | ⟨-, hclose⟩
  · rfl
  · exact (laws.closeAccount hclose).2 k hne

/-- What arrives of it arrives on the first ATA, and nowhere else. -/
theorem deposit_holds (hp : PreparedSpec R ctx mints swaps bank p)
    (hinput : ctx.inputTokenAccount.key ∉ recordedKeys R ctx p.bank) (h : deposit R ctx p = .ok bank') :
    credited ctx p bank' ≤ p.effectiveAmount.toNat ∧
    Holds R ctx p (deposited ctx (credited ctx p bank')) bank' := by
  obtain ⟨first, b₁, b₂, hkey, hmem, htransfer, hframe⟩ := deposit_transfer laws frames hp hinput h
  have hdebits := transferTokens_spends laws htransfer
  have hne : ctx.inputTokenAccount.key ≠ first.key := fun heq => hinput (heq ▸ hmem)
  obtain ⟨hgained, hatMost⟩ := hdebits.dest_bounds hne
  obtain ⟨hbefore, hafter⟩ := hframe first.key hmem
  refine ⟨?_, fun k hk => ?_⟩
  · rw [credited, hkey]
    omega
  · obtain ⟨hset, hclosed⟩ := hframe k hk
    rw [deposited, hkey]
    by_cases hka : k = first.key
    · rw [if_pos hka, credited, hkey, hka]
      omega
    · have hinputKey : k ≠ ctx.inputTokenAccount.key := fun heq => hinput (heq ▸ hk)
      rw [if_neg hka, hclosed, hdebits.frame k hinputKey hka, hset, Nat.add_zero]

/-- Without a fee all of it arrives. -/
theorem deposit_exact (hexact : ExactTransfers R p.inputMint.key)
    (hp : PreparedSpec R ctx mints swaps bank p)
    (hinput : ctx.inputTokenAccount.key ∉ recordedKeys R ctx p.bank) (h : deposit R ctx p = .ok bank') :
    credited ctx p bank' = p.effectiveAmount.toNat := by
  obtain ⟨first, b₁, b₂, hkey, hmem, htransfer, hframe⟩ := deposit_transfer laws frames hp hinput h
  have hne : ctx.inputTokenAccount.key ≠ first.key := fun heq => hinput (heq ▸ hmem)
  have hgained := (transferTokens_moves hexact htransfer).dest_eq hne
  obtain ⟨hbefore, hafter⟩ := hframe first.key hmem
  rw [credited, hkey]
  omega

omit laws in
/-- The payout is one transfer of what the portfolio holds of the output mint, to an account that was
    opened where it was missing. -/
theorem payout_transfer (hp : PreparedSpec R ctx mints swaps bank p) {out : AccountInfo}
    (hout : ctx.remainingAccounts[p.outputAtaIndex]? = some out) {h : Pubkey → Nat} {b : Bank}
    (hholds : Holds R ctx p h b) (hpayout : payout R ctx p b = .ok bank') :
    out.key ∈ recordedKeys R ctx p.bank ∧ ∃ n : UInt64, n.toNat = h out.key ∧ ∃ b₁,
      transferTokens R (getTokenProgramForMint R ctx b p.outputMint) out ctx.outputTokenAccount
        ctx.titanPda (some p.outputMint) n p.outputMintDecimals (signerSeeds ctx) b₁ = .ok bank' ∧
      balances b₁ ctx.outputTokenAccount.key =
        (if accountExists (b ctx.outputTokenAccount.key) then balances b ctx.outputTokenAccount.key
          else 0) ∧
      ∀ k, k ≠ ctx.outputTokenAccount.key → balances b₁ k = balances b k := by
  obtain ⟨out', raw, r, b₁, hout', hraw, hr, hopen, htransfer⟩ := payout_cases hpayout
  obtain rfl : out = out' := Option.some.inj (hout.symm.trans hout')
  obtain ⟨hres, hmem⟩ := hp.reserved_eq hp.output hout
  rw [hres] at hr
  obtain rfl := Option.some.inj hr
  refine ⟨hmem, _, ?_, b₁, htransfer, openOutput_frame frames hopen⟩
  -- what is sent is what lies above the reserve
  have hbalance := hholds out.key hmem
  rw [balances, tokenBalance_of_extract hraw] at hbalance
  rw [saturatingSub_toNat, hbalance]
  exact Nat.add_sub_cancel_left _ _

/-- The payout takes all of the output mint out of the portfolio. -/
theorem payout_holds (hp : PreparedSpec R ctx mints swaps bank p)
    (houtput : ctx.outputTokenAccount.key ∉ recordedKeys R ctx p.bank) {out : AccountInfo}
    (hout : ctx.remainingAccounts[p.outputAtaIndex]? = some out) {h : Pubkey → Nat} {b : Bank}
    (hholds : Holds R ctx p h b) (hpayout : payout R ctx p b = .ok bank') :
    Holds R ctx p (fun k => if k = out.key then 0 else h k) bank' := by
  obtain ⟨hmem, n, hsent, b₁, htransfer, -, hother⟩ := payout_transfer frames hp hout hholds hpayout
  have hdebits := transferTokens_spends laws htransfer
  rw [hsent] at hdebits
  have hdistinct : out.key ≠ ctx.outputTokenAccount.key := fun heq => houtput (heq ▸ hmem)
  intro k hk
  have hne : k ≠ ctx.outputTokenAccount.key := fun heq => houtput (heq ▸ hk)
  show balances bank' k = balances p.bank k + if k = out.key then 0 else h k
  by_cases hka : k = out.key
  · rw [if_pos hka, hka, hdebits.source_eq hdistinct, hother out.key hdistinct, hholds out.key hmem]
    omega
  · rw [if_neg hka, hdebits.frame k hka hne, hother k hne, hholds k hk]

omit laws in
/-- Without a fee the user gets all of it. -/
theorem payout_exact (hexact : ExactTransfers R p.outputMint.key)
    (hp : PreparedSpec R ctx mints swaps bank p)
    (houtput : ctx.outputTokenAccount.key ∉ recordedKeys R ctx p.bank) {out : AccountInfo}
    (hout : ctx.remainingAccounts[p.outputAtaIndex]? = some out) {h : Pubkey → Nat} {b : Bank}
    (hholds : Holds R ctx p h b) (hpayout : payout R ctx p b = .ok bank') :
    balances bank' ctx.outputTokenAccount.key =
      (if accountExists (b ctx.outputTokenAccount.key) then balances b ctx.outputTokenAccount.key else 0) +
        h out.key := by
  obtain ⟨hmem, n, hsent, b₁, htransfer, huser, -⟩ := payout_transfer frames hp hout hholds hpayout
  have hdistinct : out.key ≠ ctx.outputTokenAccount.key := fun heq => houtput (heq ▸ hmem)
  rw [(transferTokens_moves hexact htransfer).dest_eq hdistinct, huser, hsent]

omit frames in
/-- Only empty accounts are closed, so no balance changes. -/
theorem closeCreatedAtas_balances {b : Bank} (h : closeCreatedAtas R ctx p b = .ok bank') :
    balances bank' = balances b := by
  have hyields : Yields (closeCreatedAtas R ctx p b) (fun b' => balances b' = balances b)
      (fun _ => True) := by
    refine Yields.foldlM (I := fun _ b' => balances b' = balances b) rfl ?_
    intro _ i _ s _ _ hs
    refine Yields.intro (fun s' hs' => ?_) (fun _ _ => trivial)
    obtain ⟨-, ⟨-, rfl⟩ | ⟨-, ata, -, ⟨-, rfl⟩ | ⟨hzero, program, hclose⟩⟩⟩ := closeStep_cases hs'
    · exact hs
    · exact hs
    · obtain ⟨hnow, hother⟩ := laws.closeAccount hclose
      funext k
      by_cases hka : k = ata.key
      · rw [hka, hnow, ← hs]
        exact hzero.symm
      · rw [hother k hka, hs]
  exact hyields.of_ok h

end Laws

/-! ## The route -/

/-- What the payout has taken from an account, from the end of the legs to the end of the route. -/
def paidOut (k : Pubkey) (legs bank' : Bank) : Nat := balances legs k - balances bank' k

/-- What the user's output account has gained by it. -/
def userGain (ctx : Ctx) (legs bank' : Bank) : Nat :=
  balances bank' ctx.outputTokenAccount.key -
    if accountExists (legs ctx.outputTokenAccount.key) then balances legs ctx.outputTokenAccount.key else 0

/-- The route ran its deposit and its legs, and came to these balances. -/
def LegsEnd (R : Runtime) (ctx : Ctx) (p : Prepared) (swaps : List SwapSpecInputV2)
    (bank₀ legs : Bank) : Prop :=
  ∃ idx, deposit R ctx p = .ok bank₀ ∧ runLegs R ctx p swaps bank₀ = .ok ⟨idx, legs⟩

/-- What a route makes of its deposit. -/
def portfolioOf (ctx : Ctx) (market : Nat → Nat → Nat) (swaps : List SwapSpecInputV2) (n : Nat) :
    Pubkey → Nat :=
  run 1000000000 (deposited ctx n) (legTrades ctx market swaps)

/-- What a portfolio has left once the output mint is paid out. -/
def withoutOutput (ctx : Ctx) (last : SwapSpecInputV2) (h : Pubkey → Nat) : Pubkey → Nat :=
  fun k => if k = ataKey ctx last.toIdx then 0 else h k

/-- The portfolio, from the deposit to the end. -/
theorem route_holds (laws : TokenLaws R) (frames : FrameLaws R)
    (hprep : prepare R ctx amount mints swaps bank = .ok p) {last : SwapSpecInputV2}
    (hlast : swaps.getLast? = some last)
    (hinput : ctx.inputTokenAccount.key ∉ recordedKeys R ctx p.bank)
    (houtput : ctx.outputTokenAccount.key ∉ recordedKeys R ctx p.bank)
    (hmarket : TradesAt market R ctx p swaps) (h : execute R ctx amount mints swaps bank = .ok bank') :
    ∃ bank₀ legs, LegsEnd R ctx p swaps bank₀ legs ∧ credited ctx p bank₀ ≤ p.effectiveAmount.toNat ∧
      Holds R ctx p (portfolioOf ctx market swaps (credited ctx p bank₀)) legs ∧
      Holds R ctx p (withoutOutput ctx last (portfolioOf ctx market swaps (credited ctx p bank₀)))
        bank' := by
  have hp := prepare_spec hprep
  obtain ⟨p', _, hprep', htrade, -⟩ := execute_cases h
  obtain rfl : p = p' := Except.ok.inj (hprep.symm.trans hprep')
  obtain ⟨bank₀, ⟨idx, legs⟩, b₂, hdeposit, hlegs, hpayout, hclose⟩ := trade_cases htrade
  obtain ⟨out, hout, hkey⟩ := hp.outputAta hprep hlast
  obtain ⟨hcredited, hstart⟩ := deposit_holds laws frames hp hinput hdeposit
  have hholds := runLegs_holds hp hmarket hdeposit hstart hlegs
  refine ⟨bank₀, legs, ⟨idx, hdeposit, hlegs⟩, hcredited, hholds, fun k hk => ?_⟩
  rw [closeCreatedAtas_balances laws hclose, withoutOutput, hkey]
  exact payout_holds laws frames hp houtput hout hholds hpayout k hk

/-- What is paid out is what the portfolio held. -/
theorem Holds.paidOut {last : SwapSpecInputV2} {h : Pubkey → Nat} {legs : Bank}
    (hmem : ataKey ctx last.toIdx ∈ recordedKeys R ctx p.bank) (hlegs : Holds R ctx p h legs)
    (hend : Holds R ctx p (withoutOutput ctx last h) bank') :
    paidOut (ataKey ctx last.toIdx) legs bank' = h (ataKey ctx last.toIdx) := by
  rw [Program.paidOut, hlegs _ hmem, hend _ hmem, withoutOutput, if_pos rfl]
  omega

/-- **A route runs the portfolio of its legs.** Let every CPI trade at its market, and let the user's own
    two accounts be none of the TitanPDA's. In a route that returns, the portfolio starts with what the
    deposit brought to the first ATA, at most the amount deposited. After the legs every account of the
    TitanPDA holds its recorded balance and what the portfolio, traded by the legs in order, holds of it.
    The payout takes all it holds of the output mint, so after the route the output ATA has its recorded
    balance, and every other account what it had after the legs. -/
theorem route_runs_portfolio (laws : TokenLaws R) (frames : FrameLaws R)
    (hprep : prepare R ctx amount mints swaps bank = .ok p) {last : SwapSpecInputV2}
    (hlast : swaps.getLast? = some last)
    (hinput : ctx.inputTokenAccount.key ∉ recordedKeys R ctx p.bank)
    (houtput : ctx.outputTokenAccount.key ∉ recordedKeys R ctx p.bank)
    (hmarket : TradesAt market R ctx p swaps) (h : execute R ctx amount mints swaps bank = .ok bank') :
    ∃ bank₀ legs, LegsEnd R ctx p swaps bank₀ legs ∧ credited ctx p bank₀ ≤ p.effectiveAmount.toNat ∧
      Holds R ctx p (portfolioOf ctx market swaps (credited ctx p bank₀)) legs ∧
      paidOut (ataKey ctx last.toIdx) legs bank' =
        portfolioOf ctx market swaps (credited ctx p bank₀) (ataKey ctx last.toIdx) ∧
      Holds R ctx p (withoutOutput ctx last (portfolioOf ctx market swaps (credited ctx p bank₀)))
        bank' := by
  have hp := prepare_spec hprep
  obtain ⟨bank₀, legs, hlegs, hcredited, hholds, hend⟩ :=
    route_holds laws frames hprep hlast hinput houtput hmarket h
  obtain ⟨_, -, hkey, hmem, -⟩ := hp.ata (hp.legs last (List.mem_of_getLast? hlast)).2
  rw [← hkey] at hmem
  exact ⟨bank₀, legs, hlegs, hcredited, hholds, hholds.paidOut hmem hend, hend⟩

/-- Where the output mint has no fee, the user gains what is paid out. -/
theorem userGain_exact (laws : TokenLaws R) (frames : FrameLaws R)
    (hexact : ExactTransfers R p.outputMint.key)
    (hprep : prepare R ctx amount mints swaps bank = .ok p) {last : SwapSpecInputV2}
    (hlast : swaps.getLast? = some last) (houtput : ctx.outputTokenAccount.key ∉ recordedKeys R ctx p.bank)
    {bank₀ legs : Bank} (hlegs : LegsEnd R ctx p swaps bank₀ legs) {pf : Pubkey → Nat}
    (hholds : Holds R ctx p pf legs) (h : execute R ctx amount mints swaps bank = .ok bank') :
    userGain ctx legs bank' = pf (ataKey ctx last.toIdx) := by
  have hp := prepare_spec hprep
  obtain ⟨p', _, hprep', htrade, -⟩ := execute_cases h
  obtain rfl : p = p' := Except.ok.inj (hprep.symm.trans hprep')
  obtain ⟨b₀, st, b₂, hdeposit, hrun, hpayout, hclose⟩ := trade_cases htrade
  obtain ⟨idx, hdeposit', hrun'⟩ := hlegs
  obtain rfl : b₀ = bank₀ := Except.ok.inj (hdeposit.symm.trans hdeposit')
  obtain rfl : st = ⟨idx, legs⟩ := Except.ok.inj (hrun.symm.trans hrun')
  obtain ⟨out, hout, hkey⟩ := hp.outputAta hprep hlast
  rw [userGain, closeCreatedAtas_balances laws hclose, payout_exact frames hexact hp houtput hout hholds
    hpayout, hkey]
  exact Nat.add_sub_cancel_left _ _

/-! ## Routes that forward everything -/

/-- Some leg takes all that lies at `k` to another account, and no later leg pays into it. -/
def Forwarded (ctx : Ctx) (swaps : List SwapSpecInputV2) (k : Pubkey) : Prop :=
  ∃ pre swap post, swaps = pre ++ swap :: post ∧ ataKey ctx swap.fromIdx = k ∧
    1000000000 ≤ swap.weightNanos.toNat ∧ ataKey ctx swap.toIdx ≠ k ∧ ∀ s ∈ post, ataKey ctx s.toIdx ≠ k

theorem Forwarded.drained {k : Pubkey} (h : Forwarded ctx swaps k) :
    Drained 1000000000 (legTrades ctx market swaps) k := by
  obtain ⟨pre, swap, post, rfl, hfrom, hweight, hto, hpost⟩ := h
  simp only [legTrades, List.zipIdx_append, List.zipIdx_cons, List.map_append, List.map_cons]
  refine ⟨_, _, _, rfl, hfrom, Nat.min_eq_right hweight, hto, ?_⟩
  intro t ht
  obtain ⟨⟨s, i⟩, hs, rfl⟩ := List.mem_map.mp ht
  exact hpost s (List.fst_mem_of_mem_zipIdx hs)

/-- What is deposited and what any leg pays in is forwarded, unless it is of the output mint. -/
structure ForwardsAll (ctx : Ctx) (swaps : List SwapSpecInputV2) (last : SwapSpecInputV2) : Prop where
  first : ataKey ctx 0 = ataKey ctx last.toIdx ∨ Forwarded ctx swaps (ataKey ctx 0)
  legs : ∀ swap ∈ swaps, ataKey ctx swap.toIdx = ataKey ctx last.toIdx ∨
    Forwarded ctx swaps (ataKey ctx swap.toIdx)

/-- So nothing else is left in the portfolio. -/
theorem ForwardsAll.portfolioOf {last : SwapSpecInputV2} (hall : ForwardsAll ctx swaps last) {k : Pubkey}
    (hk : k ≠ ataKey ctx last.toIdx) (n : Nat) : portfolioOf ctx market swaps n k = 0 := by
  by_cases hforwarded : Forwarded ctx swaps k
  · exact run_drained (by decide) hforwarded.drained
  · refine run_zero (fun t ht heq => ?_) ?_
    · obtain ⟨⟨s, i⟩, hs, rfl⟩ := List.mem_map.mp ht
      rcases hall.legs s (List.fst_mem_of_mem_zipIdx hs) with hs' | hs'
      · exact hk (heq.symm.trans hs')
      · exact hforwarded (heq ▸ hs')
    · refine if_neg fun heq => ?_
      rcases hall.first with hfirst | hfirst
      · exact hk (heq.trans hfirst)
      · exact hforwarded (heq.symm ▸ hfirst)

/-- **A route that forwards every mint strands nothing.** If all that is deposited, and all that any leg
    pays into an account other than that of the output mint, is forwarded in full by a later leg, then
    after the route every account of the TitanPDA has exactly its recorded balance, at whatever markets
    the legs were filled. What is paid out is all that came to the output ATA, less what the legs spent of
    it; and where the output mint has no fee, the user gains as much. -/
theorem forwarding_strands_nothing (laws : TokenLaws R) (frames : FrameLaws R)
    (hprep : prepare R ctx amount mints swaps bank = .ok p) {last : SwapSpecInputV2}
    (hlast : swaps.getLast? = some last)
    (hinput : ctx.inputTokenAccount.key ∉ recordedKeys R ctx p.bank)
    (houtput : ctx.outputTokenAccount.key ∉ recordedKeys R ctx p.bank)
    (hmarket : TradesAt market R ctx p swaps) (hall : ForwardsAll ctx swaps last)
    (h : execute R ctx amount mints swaps bank = .ok bank') :
    (∀ k ∈ recordedKeys R ctx p.bank, balances bank' k = balances p.bank k) ∧
    ∃ bank₀ legs, LegsEnd R ctx p swaps bank₀ legs ∧
      paidOut (ataKey ctx last.toIdx) legs bank' + spentOf 1000000000 (ataKey ctx last.toIdx)
          (deposited ctx (credited ctx p bank₀)) (legTrades ctx market swaps) =
        deposited ctx (credited ctx p bank₀) (ataKey ctx last.toIdx) + receivedOf 1000000000
          (ataKey ctx last.toIdx) (deposited ctx (credited ctx p bank₀)) (legTrades ctx market swaps) ∧
      (ExactTransfers R p.outputMint.key →
        userGain ctx legs bank' = paidOut (ataKey ctx last.toIdx) legs bank') := by
  have hp := prepare_spec hprep
  obtain ⟨bank₀, legs, hlegs, -, hholds, hend⟩ :=
    route_holds laws frames hprep hlast hinput houtput hmarket h
  obtain ⟨_, -, hkey, hmem, -⟩ := hp.ata (hp.legs last (List.mem_of_getLast? hlast)).2
  rw [← hkey] at hmem
  have hpaid := hholds.paidOut hmem hend
  refine ⟨fun k hk => ?_, bank₀, legs, hlegs, ?_, fun hexact => ?_⟩
  · rw [hend k hk, withoutOutput]
    split
    · exact Nat.add_zero _
    next hother => rw [hall.portfolioOf hother, Nat.add_zero]
  · rw [hpaid]
    exact run_balance legTrades_bounded
  · rw [hpaid]
    exact userGain_exact laws frames hexact hprep hlast houtput hlegs hholds h

/-! ## Larger deposits -/

/-- The amount changes nothing of what is recorded. -/
theorem prepare_bank {amount' : UInt64} {p' : Prepared} (h : prepare R ctx amount mints swaps bank = .ok p)
    (h' : prepare R ctx amount' mints swaps bank = .ok p') : p'.bank = p.bank := by
  have hprep := prepare_ok h
  have hprep' := prepare_ok h'
  have hmints : p'.mintsCount = p.mintsCount := hprep'.mints.trans hprep.mints.symm
  have hcreated := hprep'.created
  rw [hmints, hprep.created] at hcreated
  exact (Prod.mk.inj (Except.ok.inj hcreated)).2.symm

/-- Without a ledger the amount deposited is the argument. -/
theorem effectiveAmount_eq (hledger : ctx.tokenLedger = none)
    (h : prepare R ctx amount mints swaps bank = .ok p) :
    p.effectiveAmount = amount := by
  have hprep := prepare_ok h
  have hnone : p.ledgerAmount = none := by
    have hread := hprep.ledger
    rw [readTokenLedger, hledger] at hread
    exact (Except.ok.inj hread).symm
  have hamount := hprep.amount
  rw [hnone] at hamount
  exact (Except.ok.inj hamount).symm

/-- **A larger deposit is never paid out less.** Two runs of the same route from the same accounts trade
    at the same markets, which give more for more: the one whose deposit brings more to the TitanPDA pays
    out at least as much, and where the output mint has no fee, the user gains at least as much. -/
theorem larger_deposit_pays_more (laws : TokenLaws R) (frames : FrameLaws R) {amount' : UInt64}
    {bank'' : Bank} {p' : Prepared} (hprep : prepare R ctx amount mints swaps bank = .ok p)
    (hprep' : prepare R ctx amount' mints swaps bank = .ok p') {last : SwapSpecInputV2}
    (hlast : swaps.getLast? = some last)
    (hinput : ctx.inputTokenAccount.key ∉ recordedKeys R ctx p.bank)
    (houtput : ctx.outputTokenAccount.key ∉ recordedKeys R ctx p.bank)
    (hmarket : TradesAt market R ctx p swaps) (hmarket' : TradesAt market R ctx p' swaps)
    (hmono : ∀ i, Monotone (market i)) {bank₀ bank₀' : Bank} (hdeposit : deposit R ctx p = .ok bank₀)
    (hdeposit' : deposit R ctx p' = .ok bank₀') (hle : credited ctx p bank₀ ≤ credited ctx p' bank₀')
    (h : execute R ctx amount mints swaps bank = .ok bank')
    (h' : execute R ctx amount' mints swaps bank = .ok bank'') :
    ∃ legs legs', LegsEnd R ctx p swaps bank₀ legs ∧ LegsEnd R ctx p' swaps bank₀' legs' ∧
      paidOut (ataKey ctx last.toIdx) legs bank' ≤ paidOut (ataKey ctx last.toIdx) legs' bank'' ∧
      (ExactTransfers R p.outputMint.key → ExactTransfers R p'.outputMint.key →
        userGain ctx legs bank' ≤ userGain ctx legs' bank'') := by
  have hp := prepare_spec hprep
  have hbank := prepare_bank hprep hprep'
  obtain ⟨_, -, hkey, hmem, -⟩ := hp.ata (hp.legs last (List.mem_of_getLast? hlast)).2
  rw [← hkey] at hmem
  obtain ⟨b₀, legs, hlegs, -, hholds, hend⟩ := route_holds laws frames hprep hlast hinput houtput hmarket h
  rw [← hbank] at hinput houtput
  obtain ⟨b₀', legs', hlegs', -, hholds', hend'⟩ :=
    route_holds laws frames hprep' hlast hinput houtput hmarket' h'
  obtain rfl : b₀ = bank₀ := Except.ok.inj (hlegs.choose_spec.1.symm.trans hdeposit)
  obtain rfl : b₀' = bank₀' := Except.ok.inj (hlegs'.choose_spec.1.symm.trans hdeposit')
  have hmore : portfolioOf ctx market swaps (credited ctx p b₀) (ataKey ctx last.toIdx) ≤
      portfolioOf ctx market swaps (credited ctx p' b₀') (ataKey ctx last.toIdx) := by
    refine run_mono legTrades_bounded (fun t ht => ?_) (fun k => ?_) _
    · obtain ⟨leg, -, rfl⟩ := List.mem_map.mp ht
      exact hmono leg.2
    · unfold deposited
      split
      · exact hle
      · exact Nat.le_refl 0
  refine ⟨legs, legs', hlegs, hlegs', ?_, fun hexact hexact' => ?_⟩
  · rw [hholds.paidOut hmem hend, hholds'.paidOut (by rwa [hbank]) hend']
    exact hmore
  · rw [userGain_exact laws frames hexact' hprep' hlast houtput hlegs' hholds' h']
    rw [hbank] at houtput
    rw [userGain_exact laws frames hexact hprep hlast houtput hlegs hholds h]
    exact hmore

/-! ## The sample route -/

section Sample

open Reference LittleEndian

/-- A created account of the reference runtime is empty. -/
theorem createAta_balances {program owner mint ata : Pubkey} {b b' : Bank}
    (h : Reference.createAta program owner mint ata b = .ok b') :
    balances b' ata = if accountExists (b ata) then balances b ata else 0 := by
  unfold Reference.createAta at h
  split at h
  next hexists =>
    simp only [Except.bind_eq_ok, ensure_eq_ok, Except.pure_eq_ok] at h
    obtain ⟨_, -, rfl⟩ := h
    rw [if_pos hexists]
  next hnew =>
    simp only [Except.bind_eq_ok, ensure_eq_ok, Except.pure_eq_ok] at h
    obtain ⟨_, -, rfl⟩ := h
    have h64 : (mint.bytes ++ owner.bytes).length = 64 := by simp [mint.length_eq, owner.length_eq]
    have hread : ((mint.bytes ++ owner.bytes ++ leBytes 8 0 ++ List.replicate 36 0 ++
        [1] ++ List.replicate 56 0).drop 64).take 8 = leBytes 8 0 := by
      simp only [List.append_assoc]
      rw [← List.append_assoc, List.drop_left' h64]
      rfl
    rw [if_neg hnew]
    simp only [balances, Function.update_self, tokenBalance, tokenAmountOrZero, extractTokenAmount,
      bytesAt, hread]
    rw [if_pos (by simp [mint.length_eq, owner.length_eq])]
    rfl

/-- **The reference runtime leaves the rest alone.** -/
theorem frameLaws (titanPda : Pubkey) (venue : VenueProgram) : FrameLaws (runtime titanPda venue) where
  createAta h := ⟨createAta_balances h, fun k hk => by rw [balances, createAta_other h hk, balances]⟩
  syncNative h := absurd h (by simp [runtime, token])
  systemTransfer h k := balances_congr (moveLamports_frame h k).1

/-- The dealer's markets, which take turns: one `B` for two `A`, and `C` for `B` less a tenth. -/
def turns (i n : Nat) : Nat := if i % 2 = 0 then n / 2 else n - n / 10

theorem turns_monotone (i : Nat) : Monotone (turns i) := by
  intro a b hab
  unfold turns
  split
  · exact Nat.div_le_div_right hab
  · omega

variable {p : Prepared}

/-- An account of somebody else is not recorded. -/
theorem longRoute_not_recorded {k : Pubkey}
    (hprep : prepare (runtime Sample.titanPda Sample.dealer) Sample.longCtx amount 3 Sample.longSwaps
      Sample.longBank = .ok p)
    (hk : isTitanPdaTokenAccount (runtime Sample.titanPda Sample.dealer)
      (Sample.longBank k) Sample.titanPda = false) :
    k ∉ recordedKeys (runtime Sample.titanPda Sample.dealer) Sample.longCtx p.bank := by
  rw [longRoute_prepared_bank hprep]
  exact not_recorded hk

/-- **The dealer trades at its markets.** -/
theorem dealer_trades
    (hprep : prepare (runtime Sample.titanPda Sample.dealer) Sample.longCtx amount 3 Sample.longSwaps
      Sample.longBank = .ok p) :
    TradesAt turns (runtime Sample.titanPda Sample.dealer) Sample.longCtx p Sample.longSwaps := by
  intro pre swap post bank₀ st n bank' hswaps _ hreach _ hcpi k hk
  have hA : k ≠ Sample.vaultA := fun h => longRoute_not_recorded hprep (by decide +kernel) (h ▸ hk)
  have hB : k ≠ Sample.vaultB := fun h => longRoute_not_recorded hprep (by decide +kernel) (h ▸ hk)
  have hC : k ≠ Sample.vaultC := fun h => longRoute_not_recorded hprep (by decide +kernel) (h ▸ hk)
  rw [runLegs, (prepare_spec hprep).mints_eq] at hreach
  -- what one transfer in and one transfer out leave of the other accounts
  have hfills : ∀ {source sourceVault destVault dest : Pubkey} {m : Nat} {b₁ : Bank},
      Moves source sourceVault n.toNat (balances st.bank) (balances b₁) →
      Moves destVault dest m (balances b₁) (balances bank') → source ≠ sourceVault → destVault ≠ dest →
      source ≠ dest → source ≠ destVault → dest ≠ sourceVault → k ≠ sourceVault → k ≠ destVault →
        balances bank' k = (if k = source then balances st.bank k - n.toNat else balances st.bank k) +
          if k = dest then m else 0 := by
    intro source sourceVault destVault dest m b₁ hin hout hs hd hne hsv hdv hk₁ hk₂
    by_cases hsource : k = source
    · rw [hsource, if_pos rfl, if_neg hne, hout.frame source hsv hne, hin.source_eq hs, Nat.add_zero]
    · rw [if_neg hsource]
      by_cases hdest : k = dest
      · rw [hdest, if_pos rfl, hout.dest_eq hd, hin.frame dest (Ne.symm hne) hdv]
      · rw [if_neg hdest, hout.frame k hk₂ hdest, hin.frame k hsource hk₁, Nat.add_zero]
  rcases longLeg_moves hswaps hreach hcpi with ⟨heven, hfrom, hto, b₁, hin, hout⟩ | ⟨hodd, hfrom, hto,
    b₁, hin, hout⟩
  · have hpays : turns pre.length n.toNat = n.toNat / 2 := if_pos heven
    rw [hfrom, hto, hpays]
    exact hfills hin hout (by decide) (by decide) (by decide) (by decide) (by decide) hA hB
  · have hpays : turns pre.length n.toNat = n.toNat - n.toNat / 10 := if_neg (by omega)
    rw [hfrom, hto, hpays]
    exact hfills hin hout (by decide) (by decide) (by decide) (by decide) (by decide) hB hC

/-- A run of the longer sample route, with what its results ask for. -/
structure SampleRun (amount : UInt64) (p : Prepared) (bank' : Bank) : Prop where
  prepared : prepare (runtime Sample.titanPda Sample.dealer) Sample.longCtx amount 3 Sample.longSwaps
    Sample.longBank = .ok p
  returns : execute (runtime Sample.titanPda Sample.dealer) Sample.longCtx amount 3 Sample.longSwaps
    Sample.longBank = .ok bank'
  input : Sample.userA ∉ recordedKeys (runtime Sample.titanPda Sample.dealer) Sample.longCtx p.bank
  output : Sample.userC ∉ recordedKeys (runtime Sample.titanPda Sample.dealer) Sample.longCtx p.bank
  market : TradesAt turns (runtime Sample.titanPda Sample.dealer) Sample.longCtx p Sample.longSwaps

theorem sampleRun_of_ok (amount : UInt64) (h : (execute (runtime Sample.titanPda Sample.dealer)
      Sample.longCtx amount 3
    Sample.longSwaps Sample.longBank).failure? = none) : ∃ p bank', SampleRun amount p bank' := by
  obtain ⟨bank', hrun⟩ := Except.exists_of_failure? h
  obtain ⟨p, -, hprep, -⟩ := execute_cases hrun
  exact ⟨p, bank', hprep, hrun, longRoute_not_recorded hprep (by decide +kernel),
    longRoute_not_recorded hprep (by decide +kernel), dealer_trades hprep⟩

namespace SampleRun

variable {bank₀ : Bank}

/-- The reference token program has no fees. -/
theorem credited_eq (hrun : SampleRun amount p bank')
    (hdeposit : deposit (runtime Sample.titanPda Sample.dealer) Sample.longCtx p = .ok bank₀) :
    credited Sample.longCtx p bank₀ = amount.toNat := by
  have hp := prepare_spec hrun.prepared
  rw [deposit_exact (tokenLaws _ _) (frameLaws _ _) (exactTransfers _ _ _) hp hrun.input hdeposit,
    effectiveAmount_eq rfl hrun.prepared]

/-- The accounts of the TitanPDA are recorded. -/
theorem recorded (hrun : SampleRun amount p bank') {a : AccountInfo}
    (ha : a ∈ Sample.longCtx.remainingAccounts)
    (hk : isTitanPdaTokenAccount (runtime Sample.titanPda Sample.dealer) (Sample.longBank a.key)
      Sample.titanPda = true) :
    a.key ∈ recordedKeys (runtime Sample.titanPda Sample.dealer) Sample.longCtx p.bank := by
  refine ⟨a, ha, rfl, ?_⟩
  rw [Program.recorded, longRoute_prepared_bank hrun.prepared]
  exact hk

end SampleRun

/-- What becomes of 1000 `A` in the sample route: 451 `C`, and nothing else is left. -/
theorem sample_portfolio :
    portfolioOf Sample.longCtx turns Sample.longSwaps 1000 Sample.titanC = 451 ∧
      portfolioOf Sample.longCtx turns Sample.longSwaps 1000 Sample.titanB = 0 := by
  decide +kernel

theorem longSwaps_getLast? :
    Sample.longSwaps.getLast? = some ⟨.byrealClmm true, 1, 2, 1000000000, 7⟩ := rfl

/-- The sample route over three mints: after its four legs the TitanPDA holds 451 `C` more than the 40
    recorded, the payout takes them, and the 9 `B` between are left alone. -/
theorem route_runs_portfolio_sample :
    ∃ p bank' bank₀ legs, SampleRun 1000 p bank' ∧
      LegsEnd (runtime Sample.titanPda Sample.dealer) Sample.longCtx p Sample.longSwaps bank₀ legs ∧
      balances legs Sample.titanC = 40 + 451 ∧ paidOut Sample.titanC legs bank' = 451 ∧
      balances bank' Sample.titanB = 9 := by
  obtain ⟨p, bank', hrun⟩ := sampleRun_of_ok 1000 (by decide +kernel)
  obtain ⟨bank₀, legs, hlegs, -, hholds, hpaid, hend⟩ := route_runs_portfolio (tokenLaws _ _)
    (frameLaws _ _) hrun.prepared longSwaps_getLast? hrun.input hrun.output hrun.market hrun.returns
  have hcredited : credited Sample.longCtx p bank₀ = 1000 := hrun.credited_eq hlegs.choose_spec.1
  have hbank := longRoute_prepared_bank hrun.prepared
  rw [hcredited] at hholds hpaid hend
  refine ⟨p, bank', bank₀, legs, hrun, hlegs, ?_, ?_, ?_⟩
  · rw [hholds Sample.titanC (hrun.recorded (a := Sample.writable Sample.titanC) (by decide)
      (by decide +kernel)), hbank, sample_portfolio.1]
    decide +kernel
  · exact hpaid.trans sample_portfolio.1
  · have hother : Sample.titanB ≠ ataKey Sample.longCtx 2 := by decide
    rw [hend Sample.titanB (hrun.recorded (a := Sample.writable Sample.titanB) (by decide)
      (by decide +kernel)), hbank, withoutOutput, if_neg hother, sample_portfolio.2]
    decide +kernel

/-- The route forwards `A` and `B` in full. -/
theorem longRoute_forwardsAll :
    ForwardsAll Sample.longCtx Sample.longSwaps ⟨.byrealClmm true, 1, 2, 1000000000, 7⟩ := by
  have hA : Forwarded Sample.longCtx Sample.longSwaps (ataKey Sample.longCtx 0) :=
    ⟨Sample.longSwaps.take 2, ⟨.byrealClmm true, 0, 1, 1000000000, 7⟩, Sample.longSwaps.drop 3,
      rfl, by decide, by decide, by decide, by decide⟩
  have hB : Forwarded Sample.longCtx Sample.longSwaps (ataKey Sample.longCtx 1) :=
    ⟨Sample.longSwaps.take 3, ⟨.byrealClmm true, 1, 2, 1000000000, 7⟩,
      [], rfl, by decide, by decide, by decide, by decide⟩
  refine ⟨Or.inr hA, fun swap hswap => ?_⟩
  simp only [Sample.longSwaps, List.mem_cons, List.not_mem_nil, or_false] at hswap
  rcases hswap with rfl | rfl | rfl | rfl
  · exact Or.inr hB
  · exact Or.inl rfl
  · exact Or.inr hB
  · exact Or.inl rfl

/-- Its ATAs of `A` and `B` end with their recorded 70 and 9 tokens, and the user gains what was paid out,
    all that came in of `C`. -/
theorem forwarding_strands_nothing_sample :
    ∃ p bank' bank₀ legs, SampleRun 1000 p bank' ∧
      LegsEnd (runtime Sample.titanPda Sample.dealer) Sample.longCtx p Sample.longSwaps bank₀ legs ∧
      balances bank' Sample.titanA = 70 ∧ balances bank' Sample.titanB = 9 ∧
      paidOut Sample.titanC legs bank' = 451 ∧ userGain Sample.longCtx legs bank' = 451 := by
  obtain ⟨p, bank', hrun⟩ := sampleRun_of_ok 1000 (by decide +kernel)
  obtain ⟨hkept, bank₀, legs, hlegs, hpaid, hgain⟩ := forwarding_strands_nothing (tokenLaws _ _)
    (frameLaws _ _) hrun.prepared longSwaps_getLast? hrun.input hrun.output hrun.market
    longRoute_forwardsAll hrun.returns
  have hcredited : credited Sample.longCtx p bank₀ = 1000 := hrun.credited_eq hlegs.choose_spec.1
  have hbank := longRoute_prepared_bank hrun.prepared
  rw [hcredited] at hpaid
  have hout : paidOut Sample.titanC legs bank' = 451 := by
    have hbooks : spentOf 1000000000 Sample.titanC (deposited Sample.longCtx 1000)
          (legTrades Sample.longCtx turns Sample.longSwaps) = 0 ∧
        deposited Sample.longCtx 1000 Sample.titanC + receivedOf 1000000000 Sample.titanC
          (deposited Sample.longCtx 1000) (legTrades Sample.longCtx turns Sample.longSwaps) = 451 := by
      decide +kernel
    have hpaid : paidOut Sample.titanC legs bank' + spentOf 1000000000 Sample.titanC
        (deposited Sample.longCtx 1000) (legTrades Sample.longCtx turns Sample.longSwaps) = _ := hpaid
    rw [hbooks.1, Nat.add_zero] at hpaid
    exact hpaid.trans hbooks.2
  refine ⟨p, bank', bank₀, legs, hrun, hlegs, ?_, ?_, hout, (hgain (exactTransfers _ _ _)).trans hout⟩
  · rw [hkept Sample.titanA (hrun.recorded (a := Sample.writable Sample.titanA) (by decide)
      (by decide +kernel)), hbank]
    decide +kernel
  · rw [hkept Sample.titanB (hrun.recorded (a := Sample.writable Sample.titanB) (by decide)
      (by decide +kernel)), hbank]
    decide +kernel

/-- Depositing 2000 tokens instead of 1000 pays no less, over all four legs. -/
theorem larger_deposit_pays_more_sample :
    ∃ p p' bank' bank'' bank₀ bank₀' legs legs', SampleRun 1000 p bank' ∧ SampleRun 2000 p' bank'' ∧
      LegsEnd (runtime Sample.titanPda Sample.dealer) Sample.longCtx p Sample.longSwaps bank₀ legs ∧
      LegsEnd (runtime Sample.titanPda Sample.dealer) Sample.longCtx p' Sample.longSwaps bank₀' legs' ∧
      paidOut Sample.titanC legs bank' ≤ paidOut Sample.titanC legs' bank'' ∧
      userGain Sample.longCtx legs bank' ≤ userGain Sample.longCtx legs' bank'' := by
  obtain ⟨p, bank', hrun⟩ := sampleRun_of_ok 1000 (by decide +kernel)
  obtain ⟨p', bank'', hrun'⟩ := sampleRun_of_ok 2000 (by decide +kernel)
  obtain ⟨bank₀, _, ⟨_, hdeposit, -⟩, -⟩ := route_holds (tokenLaws _ _) (frameLaws _ _) hrun.prepared
    longSwaps_getLast? hrun.input hrun.output hrun.market hrun.returns
  obtain ⟨bank₀', _, ⟨_, hdeposit', -⟩, -⟩ := route_holds (tokenLaws _ _) (frameLaws _ _) hrun'.prepared
    longSwaps_getLast? hrun'.input hrun'.output hrun'.market hrun'.returns
  have hle : credited Sample.longCtx p bank₀ ≤ credited Sample.longCtx p' bank₀' := by
    rw [hrun.credited_eq hdeposit, hrun'.credited_eq hdeposit']
    decide
  obtain ⟨legs, legs', hlegs, hlegs', hpaid, hgain⟩ := larger_deposit_pays_more (tokenLaws _ _)
    (frameLaws _ _) hrun.prepared hrun'.prepared longSwaps_getLast? hrun.input hrun.output hrun.market
    hrun'.market turns_monotone hdeposit hdeposit' hle hrun.returns hrun'.returns
  exact ⟨p, p', bank', bank'', bank₀, bank₀', legs, legs', hrun, hrun', hlegs, hlegs', hpaid,
    hgain (exactTransfers _ _ _) (exactTransfers _ _ _)⟩

end Sample

end ByrealTitan.Program
