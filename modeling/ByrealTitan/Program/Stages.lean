import ByrealTitan.Program.Execute

/-!
# `Program.Stages` — what each stage of a route does when it succeeds

One lemma for each helper and each stage of `execute`: if it returns, which checks it passed, which
programs it invoked and in which order. Whatever is proved about a route that succeeds starts from
these, so that the bodies of the source are opened here only.
-/

namespace ByrealTitan.Program

variable {R : Runtime} {ctx : Ctx} {amount : UInt64} {mints : UInt8} {swaps : List SwapSpecInputV2}
  {bank bank' : Bank} {p : Prepared}

/-! ## Transfers -/

/-- A transfer of nothing does nothing; any other one is a single token instruction. -/
theorem transferTokens_cases {tokenProgram source dest authority : AccountInfo} {mint : Option AccountInfo}
    {decimals : UInt8} {seeds : SignerSeeds}
    (h : transferTokens R tokenProgram source dest authority mint amount decimals seeds bank = .ok bank') :
    (amount = 0 ∧ bank' = bank) ∨
    (∃ m, mint = some m ∧ R.invokeToken tokenProgram.key
      (.transferChecked source.key m.key dest.key authority.key amount decimals)
      [source, m, dest, authority] seeds bank = .ok bank') ∨
    R.invokeToken R.SPL_TOKEN_ID (.transfer source.key dest.key authority.key amount)
      [source, dest, authority] seeds bank = .ok bank' := by
  unfold transferTokens at h
  split at h
  next hzero => exact Or.inl ⟨hzero, (Except.ok.inj h).symm⟩
  next =>
    split at h
    · simp only [Except.bind_eq_ok, invoked_eq_ok, Res.orErr_eq_ok] at h
      obtain ⟨m, hmint, h⟩ := h
      exact Or.inr (Or.inl ⟨m, hmint, h⟩)
    · exact Or.inr (Or.inr (invoked_eq_ok.mp h))

/-- Lamports are sent before they are counted. -/
theorem transferSolAndSync_cases {source wsolAta tokenProgram : AccountInfo}
    (h : transferSolAndSync R source wsolAta tokenProgram amount bank = .ok bank') :
    (amount = 0 ∧ bank' = bank) ∨
    ∃ b₁, R.systemTransfer source wsolAta amount bank = .ok b₁ ∧
      R.invokeToken tokenProgram.key (.syncNative wsolAta.key) [wsolAta] [] b₁ = .ok bank' := by
  unfold transferSolAndSync at h
  split at h
  next hzero => exact Or.inl ⟨hzero, (Except.ok.inj h).symm⟩
  next =>
    simp only [Except.bind_eq_ok, invoked_eq_ok] at h
    exact Or.inr h

/-! ## The creation loop -/

theorem shl16_eq_ok {i : Nat} {bit : BitVec 16} : shl16 i = .ok bit ↔ i < 16 ∧ bit = 1#16 <<< i := by
  unfold shl16
  split
  next hi => simp [hi, eq_comm]
  next hi => simp [hi, Res.panic]

/-- One bit of a word, as the source tests it. -/
theorem and_bit_ne_zero {w k : Nat} {x : BitVec w} (hk : k < w) :
    x &&& 1#w <<< k ≠ 0#w ↔ x.getLsbD k = true := by
  rw [← BitVec.twoPow_eq, BitVec.and_twoPow]
  cases x.getLsbD k with
  | false => simp
  | true =>
      simp only [if_true, iff_true]
      intro h
      have hbit := congrArg (·.getLsbD k) h
      simp [hk] at hbit

/-- And as the source sets it. -/
theorem getLsbD_or_bit {mask : BitVec 16} {i j : Nat} (hi : i < 16) :
    (mask ||| 1#16 <<< i).getLsbD j = true ↔ mask.getLsbD j = true ∨ i = j := by
  rw [BitVec.getLsbD_or, Bool.or_eq_true, ← BitVec.twoPow_eq, BitVec.getLsbD_twoPow]
  simp [hi]

/-- A turn of the creation loop passes an account that exists; another one it creates and marks. -/
theorem createAtaStep_cases {m i : Nat} {st st' : BitVec 16 × Bank}
    (h : createAtaStep R ctx m st i = .ok st') :
    ∃ ata, ctx.remainingAccounts[i]? = some ata ∧
      ((accountExists (st.2 ata.key) = true ∧ st' = st) ∨
       (accountExists (st.2 ata.key) = false ∧ i < 16 ∧ st'.1 = st.1 ||| 1#16 <<< i ∧
        ∃ mint, R.createAssociatedTokenAccountIdempotent ctx.payer ctx.titanPda mint ata
          (getTokenProgramForMint R ctx st.2 mint) ctx.systemProgram st.2 = .ok st'.2)) := by
  unfold createAtaStep at h
  simp only [Except.bind_eq_ok, remainingAccount, Res.orErr_eq_ok] at h
  obtain ⟨ata, hata, h⟩ := h
  refine ⟨ata, hata, ?_⟩
  split at h
  next hexists => exact Or.inl ⟨hexists, (Except.pure_eq_ok.mp h).symm⟩
  next hnew =>
    simp only [Except.bind_eq_ok, Except.pure_eq_ok, shl16_eq_ok] at h
    obtain ⟨mint, -, b, hcreate, bit, ⟨hi, rfl⟩, rfl⟩ := h
    exact Or.inr ⟨Bool.eq_false_iff.mpr hnew, hi, rfl, mint, invoked_eq_ok.mp hcreate⟩

/-! ## Preparation -/

theorem validate_ok (h : validate ctx mints swaps = .ok ()) :
    1 < mints.toNat ∧ swaps ≠ [] ∧ mints.toNat ≤ MAX_MINTS ∧
    2 * mints.toNat ≤ ctx.remainingAccounts.length ∧
      ∀ s ∈ swaps, s.fromIdx.toNat < mints.toNat ∧ s.toIdx.toNat < mints.toNat := by
  unfold validate at h
  simp only [Except.bind_eq_ok, Res.require_eq_ok, Res.orPanic_eq_ok, Except.forM_eq_ok] at h
  obtain ⟨_, ⟨hpos, hswaps⟩, _, -, _, hle, _, hremaining, first, -, _, -, hlegs⟩ := h
  refine ⟨UInt8.lt_iff_toNat_lt.mp hpos, hswaps, hle, hremaining, fun s hs => ?_⟩
  exact ⟨UInt8.lt_iff_toNat_lt.mp (hlegs s hs).1, UInt8.lt_iff_toNat_lt.mp (hlegs s hs).2⟩

/-- The parts of a preparation, in the order of the source. -/
structure Preparation (R : Runtime) (ctx : Ctx) (amount : UInt64) (mints : UInt8)
    (swaps : List SwapSpecInputV2) (bank : Bank) (p : Prepared) : Prop where
  valid : validate ctx mints swaps = .ok ()
  mints : p.mintsCount = mints.toNat
  ledger : readTokenLedger ctx bank = .ok p.ledgerAmount
  output : ∃ last, swaps.getLast? = some last ∧ p.outputAtaIndex = last.toIdx.toNat
  created : createAtas R ctx p.mintsCount bank = .ok (p.createdAtas, p.bank)
  snapshot : takeSnapshot R ctx p.mintsCount p.bank = .ok p.snapshot
  amount : depositAmount ctx p.bank p.ledgerAmount amount = .ok p.effectiveAmount

theorem prepare_ok (h : prepare R ctx amount mints swaps bank = .ok p) :
    Preparation R ctx amount mints swaps bank p := by
  unfold prepare at h
  simp only [Except.bind_eq_ok, Except.pure_eq_ok, Res.orPanic_eq_ok] at h
  obtain ⟨⟨⟩, hvalid, ledger, hledger, inputMint, -, last, hlast, outputMint, -, d₁, -, d₂, -,
    ⟨mask, b₁⟩, hcreate, snap, hsnap, e, hamount, rfl⟩ := h
  rw [← List.getLast?_eq_getElem?] at hlast
  exact ⟨hvalid, rfl, hledger, ⟨last, hlast, rfl⟩, hcreate, hsnap, hamount⟩

/-! ## Deposit -/

/-- The input account is topped up by what it lacks, or opened and funded. -/
theorem setupWsolInputAccount_cases {mint tokenProgram : AccountInfo} {created : Bool}
    (h : setupWsolInputAccount R ctx mint tokenProgram amount bank = .ok (created, bank')) :
    (created = false ∧ accountExists (bank ctx.inputTokenAccount.key) = true ∧
      ∃ current, extractTokenAmount (bank ctx.inputTokenAccount.key) = .ok current ∧
        transferSolAndSync R ctx.user ctx.inputTokenAccount tokenProgram
          (UInt64.ofNat (amount.toNat - current.toNat)) bank = .ok bank') ∨
    (created = true ∧ accountExists (bank ctx.inputTokenAccount.key) = false ∧
      ∃ b₁, createUserAta R ctx mint ctx.inputTokenAccount tokenProgram bank = .ok b₁ ∧
        transferSolAndSync R ctx.user ctx.inputTokenAccount tokenProgram amount b₁ = .ok bank') := by
  unfold setupWsolInputAccount at h
  cases hexists : accountExists (bank ctx.inputTokenAccount.key) with
  | true =>
      simp only [hexists, ↓reduceIte, Except.bind_eq_ok] at h
      obtain ⟨current, hcurrent, h⟩ := h
      refine Or.inl ?_
      split at h
      next =>
        simp only [Except.bind_eq_ok, Res.checkedSub_eq_ok, Except.pure_eq_ok, Prod.mk.injEq] at h
        obtain ⟨deficit, ⟨-, rfl⟩, b, hfund, rfl, rfl⟩ := h
        exact ⟨rfl, rfl, current, hcurrent, hfund⟩
      next henough =>
        simp only [Except.pure_eq_ok, Prod.mk.injEq] at h
        obtain ⟨rfl, rfl⟩ := h
        -- nothing is lacking, and nothing is transferred
        have hle := UInt64.le_iff_toNat_le.mp (UInt64.not_lt.mp henough)
        refine ⟨rfl, rfl, current, hcurrent, ?_⟩
        rw [Nat.sub_eq_zero_of_le hle]
        rfl
  | false =>
      simp only [hexists, Bool.false_eq_true, ↓reduceIte, Except.bind_eq_ok, Except.pure_eq_ok,
        Prod.mk.injEq] at h
      obtain ⟨b₁, hcreate, b₂, hfund, rfl, rfl⟩ := h
      exact Or.inr ⟨rfl, rfl, b₁, hcreate, hfund⟩

/-- Only SOL without a ledger is set up. -/
theorem setupInput_cases {tokenProgram : AccountInfo} {created : Bool}
    (h : setupInput R ctx p tokenProgram = .ok (created, bank')) :
    (¬ (p.ledgerAmount = none ∧ isNativeMint R p.inputMint = true) ∧ created = false ∧ bank' = p.bank) ∨
    ((p.ledgerAmount = none ∧ isNativeMint R p.inputMint = true) ∧
      setupWsolInputAccount R ctx p.inputMint tokenProgram p.effectiveAmount p.bank =
        .ok (created, bank')) := by
  unfold setupInput at h
  split at h
  next hsetup =>
    rw [Bool.and_eq_true, Option.isNone_iff_eq_none] at hsetup
    exact Or.inr ⟨hsetup, h⟩
  next hno =>
    obtain ⟨rfl, rfl⟩ := Prod.mk.inj (Except.ok.inj h)
    refine Or.inl ⟨fun hwraps => hno ?_, rfl, rfl⟩
    rw [hwraps.1, hwraps.2]
    rfl

/-- The input account is set up, pays, and is closed again if it was opened. -/
theorem deposit_cases (h : deposit R ctx p = .ok bank') :
    ∃ first created b₁ b₂, ctx.remainingAccounts[0]? = some first ∧
      setupInput R ctx p (getTokenProgramForMint R ctx p.bank p.inputMint) = .ok (created, b₁) ∧
      transferTokens R (getTokenProgramForMint R ctx p.bank p.inputMint) ctx.inputTokenAccount first
        ctx.user (some p.inputMint) p.effectiveAmount p.inputMintDecimals [] b₁ = .ok b₂ ∧
      ((created = false ∧ bank' = b₂) ∨
       (created = true ∧ R.invokeToken (getTokenProgramForMint R ctx p.bank p.inputMint).key
        (.closeAccount ctx.inputTokenAccount.key ctx.payer.key ctx.user.key)
          [ctx.inputTokenAccount, ctx.payer, ctx.user] [] b₂ = .ok bank')) := by
  unfold deposit at h
  simp only [Except.bind_eq_ok, remainingAccount, Res.orErr_eq_ok] at h
  obtain ⟨first, hfirst, ⟨created, b₁⟩, hsetup, b₂, htransfer, hclose⟩ := h
  refine ⟨first, created, b₁, b₂, hfirst, hsetup, htransfer, ?_⟩
  cases created with
  | false => exact Or.inl ⟨rfl, (Except.ok.inj hclose).symm⟩
  | true  => exact Or.inr ⟨rfl, invoked_eq_ok.mp hclose⟩

/-! ## Legs, payout and closing -/

theorem legStep_cases {reserved : Vector UInt64 MAX_MINTS} {st st' : RouteState} {swap : SwapSpecInputV2}
    (h : legStep R ctx reserved st swap = .ok st') :
    st'.remainingAccountIndex = st.remainingAccountIndex + swap.nAccounts.toNat ∧
      st'.remainingAccountIndex ≤ ctx.remainingAccounts.length ∧
      ∃ n, legInputAmount ctx reserved st.bank swap = .ok n ∧
        legCpi R ctx n swap st.remainingAccountIndex swap.nAccounts.toNat st.bank = .ok st'.bank := by
  unfold legStep at h
  simp only [Except.bind_eq_ok, Except.pure_eq_ok, Res.require_eq_ok, Res.checkedAdd_eq_ok] at h
  obtain ⟨_, -, stop, ⟨-, rfl⟩, _, hstop, n, hn, b, hcpi, rfl⟩ := h
  exact ⟨rfl, hstop, n, hn, hcpi⟩

theorem openOutput_cases {tokenProgram : AccountInfo}
    (h : openOutput R ctx p tokenProgram bank = .ok bank') :
    bank' = bank ∨ createUserAta R ctx p.outputMint ctx.outputTokenAccount tokenProgram bank =
      .ok bank' := by
  unfold openOutput at h
  split at h
  · exact Or.inl (Except.ok.inj h).symm
  · exact Or.inr h

/-- What the output ATA holds above its recorded balance is sent to the user. -/
theorem payout_cases (h : payout R ctx p bank = .ok bank') :
    ∃ out raw reserved b₁, ctx.remainingAccounts[p.outputAtaIndex]? = some out ∧
      extractTokenAmount (bank out.key) = .ok raw ∧
      p.snapshot.reserved[p.outputAtaIndex]? = some reserved ∧
      openOutput R ctx p (getTokenProgramForMint R ctx bank p.outputMint) bank = .ok b₁ ∧
      transferTokens R (getTokenProgramForMint R ctx bank p.outputMint) out ctx.outputTokenAccount
        ctx.titanPda (some p.outputMint) (saturatingSub raw reserved) p.outputMintDecimals
          (signerSeeds ctx) b₁ = .ok bank' := by
  unfold payout at h
  simp only [Except.bind_eq_ok, remainingAccount, Res.orErr_eq_ok, Res.orPanic_eq_ok] at h
  obtain ⟨out, hout, raw, hraw, reserved, hreserved, b₁, hopen, htransfer⟩ := h
  exact ⟨out, raw, reserved, b₁, hout, hraw, hreserved, hopen, htransfer⟩

/-- A turn of the closing pass closes an account that is marked and empty. -/
theorem closeStep_cases {i : Nat} (h : closeStep R ctx p bank i = .ok bank') :
    i < 16 ∧
      ((p.createdAtas.getLsbD i = false ∧ bank' = bank) ∨
       (p.createdAtas.getLsbD i = true ∧ ∃ ata, ctx.remainingAccounts[i]? = some ata ∧
        ((tokenBalance (bank ata.key) ≠ 0 ∧ bank' = bank) ∨
         (tokenBalance (bank ata.key) = 0 ∧ ∃ tokenProgram, R.invokeToken tokenProgram
          (.closeAccount ata.key ctx.payer.key ctx.titanPda.key) [ata, ctx.payer, ctx.titanPda]
          (signerSeeds ctx) bank = .ok bank')))) := by
  unfold closeStep at h
  simp only [Except.bind_eq_ok, shl16_eq_ok] at h
  obtain ⟨bit, ⟨hi, rfl⟩, h⟩ := h
  refine ⟨hi, ?_⟩
  split at h
  next hunset =>
    refine Or.inl ⟨Bool.eq_false_iff.mpr fun hset => ?_, (Except.pure_eq_ok.mp h).symm⟩
    exact (and_bit_ne_zero hi).mpr hset hunset
  next hset =>
    simp only [Except.bind_eq_ok, remainingAccount, Res.orErr_eq_ok] at h
    obtain ⟨ata, hata, h⟩ := h
    refine Or.inr ⟨(and_bit_ne_zero hi).mp hset, ata, hata, ?_⟩
    split at h
    next hfull =>
      have hpos : 0 < tokenBalance (bank ata.key) := UInt64.lt_iff_toNat_lt.mp hfull
      exact Or.inl ⟨Nat.ne_of_gt hpos, (Except.pure_eq_ok.mp h).symm⟩
    next hempty =>
      simp only [Except.bind_eq_ok] at h
      obtain ⟨mint, -, hclose⟩ := h
      refine Or.inr ⟨?_, _, invoked_eq_ok.mp hclose⟩
      exact Nat.eq_zero_of_not_pos fun hpos => hempty (UInt64.lt_iff_toNat_lt.mpr hpos)

/-! ## The route -/

theorem trade_cases (h : trade R ctx p swaps = .ok bank') :
    ∃ b₀ st b₁, deposit R ctx p = .ok b₀ ∧ runLegs R ctx p swaps b₀ = .ok st ∧
    payout R ctx p st.bank = .ok b₁ ∧
      closeCreatedAtas R ctx p b₁ = .ok bank' := by
  unfold trade at h
  simp only [Except.bind_eq_ok] at h
  obtain ⟨b₀, hdeposit, st, hlegs, b₁, hpayout, hclose⟩ := h
  exact ⟨b₀, st, b₁, hdeposit, hlegs, hpayout, hclose⟩

theorem execute_cases (h : execute R ctx amount mints swaps bank = .ok bank') :
    ∃ p idx, prepare R ctx amount mints swaps bank = .ok p ∧ trade R ctx p swaps = .ok bank' ∧
      finalCheck ctx p.snapshot bank' = .ok idx := by
  unfold execute at h
  simp only [Except.bind_eq_ok, Except.pure_eq_ok] at h
  obtain ⟨p, hprep, b, htrade, idx, hcheck, rfl⟩ := h
  exact ⟨p, idx, hprep, htrade, hcheck⟩

end ByrealTitan.Program
