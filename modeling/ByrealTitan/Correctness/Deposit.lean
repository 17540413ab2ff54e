import ByrealTitan.Correctness.Prepared
import ByrealTitan.Program.WrappedReference

/-!
# `Correctness.Deposit` — what the deposit charges the user

The deposit moves `E` tokens from the user's input account to the first TitanPDA account. Where the
input is SOL and no ledger is given, it first wraps what the account lacks, in an account that it opens,
and closes again, if there is none. In each of the three cases the user pays `E` once: the tokens there
are, and lamports for the rest (`deposit_charges_once`). This takes the input account, the first
TitanPDA account and the user's wallet to be three different accounts, which the program does not check
(`deposit_charges_otherwise`).
-/

namespace ByrealTitan.Program

open Reserve

variable {R : Runtime} {ctx : Ctx} {amount : UInt64} {mints : UInt8} {swaps : List SwapSpecInputV2}
  {bank bank' : Bank} {p : Prepared} {user payer wsol first : Pubkey} {n e : Nat} {b b₀ b₁ b₂ b' : Bank}

/-! ## The effects of a deposit -/

/-- `n` lamports of the user have become tokens of the wrapped-SOL account. -/
structure Wraps (user wsol : Pubkey) (n : Nat) (b b' : Bank) : Prop where
  tokens : balances b' wsol = balances b wsol + n
  other : ∀ k, k ≠ wsol → balances b' k = balances b k
  paid : Moves user wsol n (lamports b) (lamports b')
  reserve : nativeReserve (b' wsol) = nativeReserve (b wsol)
  length : ∀ k, (b' k).data.length = (b k).data.length

theorem Wraps.zero (user wsol : Pubkey) (b : Bank) : Wraps user wsol 0 b b where
  tokens := rfl
  other _ _ := rfl
  paid := .zero user wsol _
  reserve := rfl
  length _ := rfl

/-- A deposit of `e` tokens: they arrive, the input account keeps what it had above them, the user pays
    lamports for those it lacked, and the payer pays nothing. -/
structure Charges (payer user wsol first : Pubkey) (e : Nat) (b b' : Bank) : Prop where
  credited : balances b' first = balances b first + e
  kept : balances b' wsol = balances b wsol - min (balances b wsol) e
  paid : lamports b' user + (e - min (balances b wsol) e) = lamports b user
  rent : payer ≠ user → payer ≠ wsol → payer ≠ first → lamports b' payer = lamports b payer

/-- Without wrapping, the tokens come from the account. -/
theorem TokenMove.charges (h : TokenMove wsol first e b b') (hfirst : wsol ≠ first) (hwsol : user ≠ wsol)
    (huser : user ≠ first) : Charges payer user wsol first e b b' where
  credited := h.tokens.dest_eq hfirst
  kept := by
    rw [h.tokens.source_eq hfirst, Nat.min_eq_right h.tokens.enough]
  paid := by
    rw [Nat.min_eq_right h.tokens.enough, Nat.sub_self, Nat.add_zero]
    exact h.lamports_frame hwsol huser
  rent _ hpayer hpayer' := h.lamports_frame hpayer hpayer'

/-- An account that holds too little is topped up before. -/
theorem Wraps.charges (hwraps : Wraps user wsol (e - balances b wsol) b b₁)
    (hmove : TokenMove wsol first e b₁ b')
    (hfirst : wsol ≠ first) (hwsol : user ≠ wsol) (huser : user ≠ first) :
    Charges payer user wsol first e b b' where
  credited := by rw [hmove.tokens.dest_eq hfirst, hwraps.other first hfirst.symm]
  kept := by
    rw [hmove.tokens.source_eq hfirst, hwraps.tokens]
    omega
  paid := by
    have henough := hwraps.paid.enough
    have hpaid := hwraps.paid.source_eq hwsol
    rw [hmove.lamports_frame hwsol huser]
    omega
  rent hne hpayer hpayer' := by
    rw [hmove.lamports_frame hpayer hpayer', hwraps.paid.frame payer hne hpayer]

/-- A new account is in sync: it holds its rent, and no tokens. -/
theorem OpensWrapped.inSync {rent : Nat} (h : OpensWrapped payer wsol rent b b₀)
    (habsent : Absent (b wsol)) :
    InSync (b₀ wsol) := by
  intro reserve hreserve
  rw [h.reserve] at hreserve
  obtain rfl := Option.some.inj hreserve
  have hnone : lamports b wsol = 0 := habsent.lamports
  have hempty : tokenBalance (b₀ wsol) = 0 := h.empty
  rw [hempty, Nat.zero_add]
  by_cases hpayer : payer = wsol
  · have hfunds := h.rent.enough
    have hself := h.rent.self_eq hpayer
    subst hpayer
    show lamports b₀ payer = rent
    omega
  · have hrent := h.rent.dest_eq hpayer
    show lamports b₀ wsol = rent
    omega

/-- An account that does not exist is opened before, funded with all of it, and closed again: the payer
    gets back the rent, and nothing more. -/
theorem OpensWrapped.charges {rent : Nat} (hopens : OpensWrapped payer wsol rent b b₀)
    (hwraps : Wraps user wsol e b₀ b₁) (hmove : TokenMove wsol first e b₁ b₂)
    (hcloses : Closes wsol payer b₂ b')
    (habsent : Absent (b wsol)) (hfirst : wsol ≠ first) (hwsol : user ≠ wsol) (huser : user ≠ first) :
    Charges payer user wsol first e b b' := by
  have hpayer : payer ≠ wsol := hcloses.distinct.symm
  have hzero : balances b wsol = 0 := tokenBalance_of_nil habsent.data
  have hnone : lamports b wsol = 0 := habsent.lamports
  -- the rent is all that is left in the account before it is closed
  have hleft : lamports b₂ wsol = rent := by
    have hopened := hopens.rent.dest_eq hpayer
    have hfunded := hwraps.paid.dest_eq hwsol
    have hnative : nativeReserve (b₁ wsol) ≠ none := by
      rw [hwraps.reserve, hopens.reserve]
      simp
    rw [(hmove.wrapped hnative hfirst).source_eq hfirst]
    omega
  refine ⟨?_, ?_, ?_, fun hne _ hpayer' => ?_⟩
  · rw [balances_congr (hcloses.other first hfirst.symm), hmove.tokens.dest_eq hfirst,
      hwraps.other first hfirst.symm, balances_congr (hopens.other first hfirst.symm)]
  · rw [hzero, Nat.zero_sub]
    exact tokenBalance_of_nil hcloses.absent.data
  · have hpaid := hwraps.paid.source_eq hwsol
    have henough := hwraps.paid.enough
    have hmoved := hmove.lamports_frame hwsol huser
    rw [hzero, Nat.zero_min, Nat.sub_zero]
    by_cases hsame : user = payer
    · subst hsame
      have hrent := hopens.rent.source_eq hwsol
      have hfunds := hopens.rent.enough
      rw [hcloses.paid, hleft]
      omega
    · rw [hcloses.lamports user hwsol hsame, hmoved]
      have hrent := hopens.rent.frame user hsame hwsol
      omega
  · have hrent := hopens.rent.source_eq hpayer
    have hfunds := hopens.rent.enough
    have hpaid := hwraps.paid.frame payer hne hpayer
    have hmoved := hmove.lamports_frame hpayer hpayer'
    rw [hcloses.paid, hleft]
    omega

/-! ## The stages of the deposit -/

section Laws

variable (laws : DepositLaws R)

include laws

theorem transferTokens_move {tokenProgram source dest authority : AccountInfo} {mint : Option AccountInfo}
    {decimals : UInt8} {seeds : SignerSeeds}
    (h : transferTokens R tokenProgram source dest authority mint amount decimals seeds b = .ok b') :
    TokenMove source.key dest.key amount.toNat b b' := by
  rcases transferTokens_cases h with ⟨rfl, rfl⟩ | ⟨m, -, hchecked⟩ | hplain
  · exact .zero _ _ _
  · exact laws.transferChecked hchecked
  · exact laws.transfer hplain

theorem transferSolAndSync_wraps {source wsolAta tokenProgram : AccountInfo}
    (hsync : InSync (b wsolAta.key))
    (hne : source.key ≠ wsolAta.key)
    (h : transferSolAndSync R source wsolAta tokenProgram amount b = .ok b') :
    Wraps source.key wsolAta.key amount.toNat b b' := by
  rcases transferSolAndSync_cases h with ⟨rfl, rfl⟩ | ⟨b₁, hpay, hsynced⟩
  · exact .zero _ _ _
  · obtain ⟨hpaid, hdata⟩ := laws.systemTransfer hpay
    have hrecount := laws.syncNative hsynced
    obtain ⟨reserve, hbefore, hafter, hcounted⟩ := hrecount.counted
    rw [nativeReserve_congr (hdata _)] at hbefore
    refine ⟨?_, fun k hk => ?_, ?_, by rw [hafter, hbefore], fun k => ?_⟩
    · have hheld := hsync reserve hbefore
      have hfunded := hpaid.dest_eq hne
      have hlamports : lamports b wsolAta.key = balances b wsolAta.key + reserve := hheld
      omega
    · rw [hrecount.other k hk, balances_congr (hdata k)]
    · rw [show lamports b' = lamports b₁ from funext hrecount.lamports]
      exact hpaid
    · rw [hrecount.length, hdata]

/-- How the input account is set up: not at all, topped up, or opened and funded. -/
theorem setupInput_wraps {tokenProgram : AccountInfo} {created : Bool}
    (huser : ctx.user.key ≠ ctx.inputTokenAccount.key)
    (hsync : accountExists (p.bank ctx.inputTokenAccount.key) = true →
      InSync (p.bank ctx.inputTokenAccount.key))
    (habsent : accountExists (p.bank ctx.inputTokenAccount.key) = false →
      Absent (p.bank ctx.inputTokenAccount.key))
    (h : setupInput R ctx p tokenProgram = .ok (created, b')) :
    (created = false ∧ ¬ (p.ledgerAmount = none ∧ isNativeMint R p.inputMint = true) ∧ b' = p.bank) ∨
    (created = false ∧ (p.ledgerAmount = none ∧ isNativeMint R p.inputMint = true) ∧
      accountExists (p.bank ctx.inputTokenAccount.key) = true ∧
      Wraps ctx.user.key ctx.inputTokenAccount.key
        (p.effectiveAmount.toNat - balances p.bank ctx.inputTokenAccount.key) p.bank b') ∨
    (created = true ∧ p.ledgerAmount = none ∧ isNativeMint R p.inputMint = true ∧
      accountExists (p.bank ctx.inputTokenAccount.key) = false ∧
      ∃ b₀ rent, OpensWrapped ctx.payer.key ctx.inputTokenAccount.key rent p.bank b₀ ∧
        Wraps ctx.user.key ctx.inputTokenAccount.key p.effectiveAmount.toNat b₀ b') := by
  rcases setupInput_cases h with ⟨hno, rfl, rfl⟩ | ⟨⟨hledger, hnative⟩, hwrapped⟩
  · exact Or.inl ⟨rfl, hno, rfl⟩
  · rcases setupWsolInputAccount_cases hwrapped with
      ⟨rfl, hexists, current, hcurrent, hfund⟩ | ⟨rfl, hnew, b₀, hcreate, hfund⟩
    · -- an existing account is topped up by what it lacks
      have hwraps := transferSolAndSync_wraps laws (hsync hexists) huser hfund
      have hbalance : balances p.bank ctx.inputTokenAccount.key = current.toNat :=
        tokenBalance_of_extract hcurrent
      rw [UInt64.toNat_ofNat_of_lt' (Nat.lt_of_le_of_lt (Nat.sub_le _ _) p.effectiveAmount.toNat_lt),
        ← hbalance] at hwraps
      exact Or.inr (Or.inl ⟨rfl, ⟨hledger, hnative⟩, hexists, hwraps⟩)
    · -- an absent one is opened with its rent, which keeps it in sync, and then funded in full
      obtain ⟨rent, hopens⟩ := laws.createWrapped (invoked_eq_ok.mp hcreate) (of_decide_eq_true hnative)
        (habsent hnew)
      have hfunded := transferSolAndSync_wraps laws (hopens.inSync (habsent hnew)) huser hfund
      exact Or.inr (Or.inr ⟨rfl, hledger, hnative, hnew, b₀, rent, hopens, hfunded⟩)

end Laws

/-- What the deposit is told to move: the gain over the ledger, or the argument. -/
theorem prepare_amount (h : prepare R ctx amount mints swaps bank = .ok p) :
    readTokenLedger ctx bank = .ok p.ledgerAmount ∧
      (∀ stored, p.ledgerAmount = some stored →
        balances p.bank ctx.inputTokenAccount.key = stored.toNat + p.effectiveAmount.toNat ∧
          0 < p.effectiveAmount.toNat) ∧
      (p.ledgerAmount = none → p.effectiveAmount = amount) := by
  have hprep := prepare_ok h
  have hdeposit := hprep.amount
  refine ⟨hprep.ledger, fun stored hstored => ?_, fun hnone => ?_⟩
  · rw [hstored] at hdeposit
    unfold depositAmount at hdeposit
    simp only [Except.bind_eq_ok, Except.pure_eq_ok, Res.require_eq_ok] at hdeposit
    obtain ⟨current, hcurrent, _, hle, _, hpos, hdelta⟩ := hdeposit
    have hbalance : balances p.bank ctx.inputTokenAccount.key = current.toNat :=
      tokenBalance_of_extract hcurrent
    have hsub := UInt64.toNat_sub_of_le _ _ hle
    have hle := UInt64.le_iff_toNat_le.mp hle
    have hpos := UInt64.lt_iff_toNat_lt.mp hpos
    rw [hdelta] at hsub hpos
    exact ⟨by omega, hpos⟩
  · rw [hnone] at hdeposit
    exact (Except.ok.inj hdeposit).symm

/-- The deposit creates the input account: SOL without a ledger, and no account to take it from. -/
def CreatesInput (R : Runtime) (ctx : Ctx) (p : Prepared) : Prop :=
  p.ledgerAmount = none ∧ isNativeMint R p.inputMint = true ∧
    accountExists (p.bank ctx.inputTokenAccount.key) = false

/-- **The deposit charges the user once.** Let the input account, the first TitanPDA account and the
    user's wallet be three different accounts, an existing wrapped-SOL account be in sync and an absent
    one hold nothing. If the deposit succeeds, the first TitanPDA account is credited with `E`, the gain
    over the ledger or the amount asked for; the user pays the tokens the input account holds and, for SOL
    without a ledger, lamports for the rest; the payer pays nothing, and the input account is closed
    exactly if the deposit created it. -/
theorem deposit_charges_once (laws : DepositLaws R) {first : AccountInfo}
    (hprep : prepare R ctx amount mints swaps bank = .ok p) (h : deposit R ctx p = .ok bank')
    (hfirst : ctx.remainingAccounts[0]? = some first) (hseparate : ctx.inputTokenAccount.key ≠ first.key)
    (huser : ctx.user.key ≠ ctx.inputTokenAccount.key) (huser' : ctx.user.key ≠ first.key)
    (hsync : accountExists (p.bank ctx.inputTokenAccount.key) = true →
      InSync (p.bank ctx.inputTokenAccount.key))
    (habsent : accountExists (p.bank ctx.inputTokenAccount.key) = false →
      Absent (p.bank ctx.inputTokenAccount.key)) :
    let E := p.effectiveAmount.toNat
    let held := balances p.bank ctx.inputTokenAccount.key
    readTokenLedger ctx bank = .ok p.ledgerAmount ∧
    (∀ stored, p.ledgerAmount = some stored → held = stored.toNat + E ∧ 0 < E) ∧
    (p.ledgerAmount = none → p.effectiveAmount = amount) ∧
    balances bank' first.key = balances p.bank first.key + E ∧
    balances bank' ctx.inputTokenAccount.key = held - min held E ∧
    lamports bank' ctx.user.key + (E - min held E) = lamports p.bank ctx.user.key ∧
    (¬ (p.ledgerAmount = none ∧ isNativeMint R p.inputMint = true) →
      lamports bank' ctx.user.key = lamports p.bank ctx.user.key) ∧
    (held - balances bank' ctx.inputTokenAccount.key) +
      (lamports p.bank ctx.user.key - lamports bank' ctx.user.key) = E ∧
    (ctx.payer.key ≠ ctx.user.key → ctx.payer.key ≠ ctx.inputTokenAccount.key → ctx.payer.key ≠ first.key →
      lamports bank' ctx.payer.key = lamports p.bank ctx.payer.key) ∧
    (CreatesInput R ctx p → Absent (bank' ctx.inputTokenAccount.key)) ∧
    (¬ CreatesInput R ctx p →
      (bank' ctx.inputTokenAccount.key).data.length = (p.bank ctx.inputTokenAccount.key).data.length) := by
  intro E held
  obtain ⟨hledger, hgain, hasked⟩ := prepare_amount hprep
  obtain ⟨first', created, b₁, b₂, hfirst', hsetup, htransfer, hclose⟩ := deposit_cases h
  obtain rfl : first = first' := Option.some.inj (hfirst.symm.trans hfirst')
  have hmove := transferTokens_move laws htransfer
  -- by how the input account is set up: the account is used as it is, topped up, or opened and closed
  -- again
  have hends : Charges ctx.payer.key ctx.user.key ctx.inputTokenAccount.key first.key E p.bank bank' ∧
      (¬ (p.ledgerAmount = none ∧ isNativeMint R p.inputMint = true) → E ≤ held) ∧
      (CreatesInput R ctx p → Absent (bank' ctx.inputTokenAccount.key)) ∧
      (¬ CreatesInput R ctx p →
        (bank' ctx.inputTokenAccount.key).data.length =
          (p.bank ctx.inputTokenAccount.key).data.length) := by
    rcases setupInput_wraps laws huser hsync habsent hsetup with
      ⟨rfl, hno, rfl⟩ | ⟨rfl, hwrapped, hexists, hwraps⟩ | ⟨rfl, hnone, hnative, hnew, b₀, rent,
        hopens, hwraps⟩
    · obtain rfl := (hclose.resolve_right (by simp)).2
      refine ⟨hmove.charges hseparate huser huser', fun _ => hmove.tokens.enough, fun hcreates => ?_,
        fun _ => hmove.length _⟩
      exact absurd ⟨hcreates.1, hcreates.2.1⟩ hno
    · obtain rfl := (hclose.resolve_right (by simp)).2
      refine ⟨hwraps.charges hmove hseparate huser huser', fun hno => absurd hwrapped hno,
        fun hcreates => ?_, fun _ => ?_⟩
      · exact absurd (hexists.symm.trans hcreates.2.2) (by simp)
      · rw [hmove.length, hwraps.length]
    · have hcloses := laws.closeAccount (hclose.resolve_left (by simp)).2
      refine ⟨hopens.charges hwraps hmove hcloses (habsent hnew) hseparate huser huser', ?_,
        fun _ => hcloses.absent, ?_⟩
      · exact fun hno => absurd ⟨hnone, hnative⟩ hno
      · exact fun hno => absurd ⟨hnone, hnative, hnew⟩ hno
  obtain ⟨hcharges, henough, hclosed, hopen⟩ := hends
  have hkept := hcharges.kept
  have hpaid := hcharges.paid
  refine ⟨hledger, hgain, hasked, hcharges.credited, hkept, hpaid, fun hno => ?_, ?_, hcharges.rent,
    hclosed, hopen⟩
  · have hE := henough hno
    omega
  · omega

/-! ## Sample deposits -/

section Sample

open Reference

/-- A deposit of SOL, up to the bank it leaves: `there` stands at the address of the input account. -/
def sampleDeposit (wallet input : Pubkey) (there : Account) (delegate : Option Pubkey) (amount : UInt64) :
    Exec (Prepared × Bank) := do
  let p ← prepare (wrappedRuntime Sample.titanPda Sample.exchange) (Sample.wrappedCtx wallet input)
    amount 2 Sample.swaps (Sample.wrappedBank there delegate)
  let bank' ← deposit (wrappedRuntime Sample.titanPda Sample.exchange) (Sample.wrappedCtx wallet input) p
  return (p, bank')

/-- The user deposits a thousand lamports and has no wrapped-SOL account: the wallet pays them, the
    TitanPDA gets them, and the account is gone again. -/
theorem deposit_charges_once_sample :
    ∃ p bank', sampleDeposit Sample.user Sample.wrappedInput ⟨0, [], ZERO_PUBKEY⟩ none 1000 =
      .ok (p, bank') ∧
      balances bank' Sample.titanWrapped = balances p.bank Sample.titanWrapped + 1000 ∧
      lamports bank' Sample.user + 1000 = lamports p.bank Sample.user ∧
      Absent (bank' Sample.wrappedInput) := by
  obtain ⟨⟨p, bank'⟩, hrun, hfacts⟩ := Except.okAnd_eq_true.mp (show (sampleDeposit Sample.user
    Sample.wrappedInput ⟨0, [], ZERO_PUBKEY⟩ none 1000).okAnd (fun r =>
      decide (r.1.bank Sample.wrappedInput = ⟨0, [], ZERO_PUBKEY⟩ ∧
        isNativeMint (wrappedRuntime Sample.titanPda Sample.exchange) r.1.inputMint = true ∧
      r.1.ledgerAmount = none)) = true by decide +kernel)
  obtain ⟨hnone, hnative, hledger⟩ : p.bank Sample.wrappedInput = ⟨0, [], ZERO_PUBKEY⟩ ∧
      isNativeMint (wrappedRuntime Sample.titanPda Sample.exchange) p.inputMint = true ∧
      p.ledgerAmount = none :=
    of_decide_eq_true hfacts
  have hrun' := hrun
  simp only [sampleDeposit, Except.bind_eq_ok, Except.pure_eq_ok, Prod.mk.injEq] at hrun'
  obtain ⟨p', hprep, b', hdeposit, hp, hb⟩ := hrun'
  rw [hp] at hprep hdeposit
  rw [hb] at hdeposit
  have habsent : Absent (p.bank Sample.wrappedInput) := by
    rw [hnone]
    exact ⟨rfl, rfl⟩
  have hnew : accountExists (p.bank Sample.wrappedInput) = false := by
    rw [hnone]
    rfl
  have hfirst : (Sample.wrappedCtx Sample.user Sample.wrappedInput).remainingAccounts[0]? =
      some (Sample.writable Sample.titanWrapped) := rfl
  obtain ⟨-, -, hasked, hcredited, -, hpaid, -, -, -, hclosed, -⟩ :=
    deposit_charges_once (depositLaws Sample.titanPda Sample.exchange) hprep hdeposit hfirst (by decide)
      (by decide) (by decide) (fun hexists => absurd (hexists.symm.trans hnew) (by simp))
      (fun _ => habsent)
  have hheld : balances p.bank Sample.wrappedInput = 0 := tokenBalance_of_nil habsent.data
  rw [hasked hledger] at hcredited
  rw [hasked hledger, show (Sample.wrappedCtx Sample.user Sample.wrappedInput).inputTokenAccount.key =
    Sample.wrappedInput from rfl, hheld] at hpaid
  exact ⟨p, bank', hrun, hcredited, hpaid, hclosed ⟨hledger, hnative, hnew⟩⟩

/-- **Where two of the three accounts are one, the deposit charges otherwise.** A delegate
    deposits from the first TitanPDA account itself, which is credited nothing; a wrapped-SOL
    account that signs as the wallet and deposits its own tokens pays lamports as well; and a
    wallet that is the first TitanPDA account gains them. -/
theorem deposit_charges_otherwise :
    DepositLaws (wrappedRuntime Sample.titanPda Sample.exchange) ∧
    (∃ p bank', sampleDeposit Sample.user Sample.titanWrapped ⟨0, [], ZERO_PUBKEY⟩ (some Sample.user) 50 =
        .ok (p, bank') ∧ InSync (p.bank Sample.titanWrapped) ∧ p.effectiveAmount = 50 ∧
      balances bank' Sample.titanWrapped = balances p.bank Sample.titanWrapped) ∧
    (∃ p bank', sampleDeposit Sample.wrappedInput Sample.wrappedInput
        (Sample.wrappedAccount Sample.wrappedInput 70 none) none 50 = .ok (p, bank') ∧
      InSync (p.bank Sample.wrappedInput) ∧ p.effectiveAmount = 50 ∧
      balances p.bank Sample.wrappedInput = 70 ∧
      lamports bank' Sample.wrappedInput + 50 = lamports p.bank Sample.wrappedInput) ∧
    ∃ p bank', sampleDeposit Sample.titanWrapped Sample.wrappedInput
        (Sample.wrappedAccount Sample.titanWrapped 70 none) none 50 = .ok (p, bank') ∧
      InSync (p.bank Sample.wrappedInput) ∧ p.effectiveAmount = 50 ∧
      lamports bank' Sample.titanWrapped = lamports p.bank Sample.titanWrapped + 50 := by
  have hsync : ∀ {a : Account} {reserve : Nat}, nativeReserve a = some reserve →
      a.lamports = tokenBalance a + reserve → InSync a := by
    intro a reserve hreserve hheld r hr
    rw [hreserve] at hr
    rw [← Option.some.inj hr]
    exact hheld
  refine ⟨depositLaws _ _, ?_, ?_, ?_⟩
  · obtain ⟨⟨p, bank'⟩, hrun, hfacts⟩ := Except.okAnd_eq_true.mp (show (sampleDeposit Sample.user
      Sample.titanWrapped ⟨0, [], ZERO_PUBKEY⟩ (some Sample.user) 50).okAnd (fun r => decide (
        (nativeReserve (r.1.bank Sample.titanWrapped) = some 2039280 ∧
          (r.1.bank Sample.titanWrapped).lamports = tokenBalance (r.1.bank Sample.titanWrapped) +
            2039280) ∧ r.1.effectiveAmount = 50 ∧
        balances r.2 Sample.titanWrapped = balances r.1.bank Sample.titanWrapped)) =
        true by decide +kernel)
    obtain ⟨⟨hreserve, hheld⟩, hrest⟩ := of_decide_eq_true hfacts
    exact ⟨p, bank', hrun, hsync hreserve hheld, hrest⟩
  · obtain ⟨⟨p, bank'⟩, hrun, hfacts⟩ := Except.okAnd_eq_true.mp (show (sampleDeposit Sample.wrappedInput
      Sample.wrappedInput (Sample.wrappedAccount Sample.wrappedInput 70 none) none 50).okAnd (fun r =>
        decide ( (nativeReserve (r.1.bank Sample.wrappedInput) = some 2039280 ∧
          (r.1.bank Sample.wrappedInput).lamports = tokenBalance (r.1.bank Sample.wrappedInput) +
            2039280) ∧ r.1.effectiveAmount = 50 ∧
        balances r.1.bank Sample.wrappedInput = 70 ∧
        lamports r.2 Sample.wrappedInput + 50 = lamports r.1.bank Sample.wrappedInput)) =
        true by decide +kernel)
    obtain ⟨⟨hreserve, hheld⟩, hrest⟩ := of_decide_eq_true hfacts
    exact ⟨p, bank', hrun, hsync hreserve hheld, hrest⟩
  · obtain ⟨⟨p, bank'⟩, hrun, hfacts⟩ := Except.okAnd_eq_true.mp (show (sampleDeposit Sample.titanWrapped
      Sample.wrappedInput (Sample.wrappedAccount Sample.titanWrapped 70 none) none 50).okAnd (fun r =>
        decide ( (nativeReserve (r.1.bank Sample.wrappedInput) = some 2039280 ∧
          (r.1.bank Sample.wrappedInput).lamports =
            tokenBalance (r.1.bank Sample.wrappedInput) + 2039280) ∧ r.1.effectiveAmount = 50 ∧
        lamports r.2 Sample.titanWrapped = lamports r.1.bank Sample.titanWrapped + 50)) = true by
      decide +kernel)
    obtain ⟨⟨hreserve, hheld⟩, hrest⟩ := of_decide_eq_true hfacts
    exact ⟨p, bank', hrun, hsync hreserve hheld, hrest⟩

end Sample

end ByrealTitan.Program
