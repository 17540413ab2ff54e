import ByrealTitan.Correctness.Prepared

/-!
# `Correctness.Payout` — the payout is what the route gained

The payout transfers what the output ATA holds above its recorded balance, by a saturating subtraction.
Where that would clamp, the ATA ends below its record and the final check refuses the route. So every
route that returns has paid out exactly the gain, and leaves the ATA with its recorded balance: open, or
closed if that is zero and the route has opened it (`payout_is_gain`). Nothing is assumed of the venues.
-/

namespace ByrealTitan.Program

variable {R : Runtime} {ctx : Ctx} {amount : UInt64} {mints : UInt8} {swaps : List SwapSpecInputV2}
  {bank bank' : Bank} {p : Prepared} {k : Pubkey}

/-- What the payout relies on: a transfer debits its source exactly, an associated account exists once it
    was created, and opening or closing an account does nothing to another one. -/
structure PayoutLaws (R : Runtime) : Prop where
  transfer : ∀ {program source dest authority amount infos seeds b b' balance},
    R.invokeToken program (.transfer source dest authority amount) infos seeds b = .ok b' → source ≠ dest →
      extractTokenAmount (b source) = .ok balance →
        amount ≤ balance ∧ extractTokenAmount (b' source) = .ok (balance - amount)
  transferChecked : ∀ {program source mint dest authority amount decimals infos seeds b b' balance},
    R.invokeToken program (.transferChecked source mint dest authority amount decimals) infos seeds b =
      .ok b' →
      source ≠ dest → extractTokenAmount (b source) = .ok balance →
        amount ≤ balance ∧ extractTokenAmount (b' source) = .ok (balance - amount)
  createAta : ∀ {payer owner mint ata tokenProgram systemProgram b b'},
    R.createAssociatedTokenAccountIdempotent payer owner mint ata tokenProgram systemProgram b = .ok b' →
      accountExists (b' ata.key) = true ∧
      ∀ k, k ≠ ata.key → accountExists (b' k) = accountExists (b k) ∧ (b' k).data = (b k).data
  closeAccount : ∀ {program account destination authority infos seeds b b'},
    R.invokeToken program (.closeAccount account destination authority) infos seeds b = .ok b' →
      (b' account).data = [] ∧ ∀ k, k ≠ account → (b' k).data = (b k).data

theorem extractTokenAmount_congr {a a' : Account} (h : a'.data = a.data) :
    extractTokenAmount a' = extractTokenAmount a := by
  rw [extractTokenAmount, extractTokenAmount, h]

/-! ## The accounts the route opened -/

/-- A bit of the creation mask stands for this account. -/
def Marked (ctx : Ctx) (mask : BitVec 16) (k : Pubkey) : Prop :=
  ∃ i < 16, mask.getLsbD i = true ∧ ∃ a, ctx.remainingAccounts[i]? = some a ∧ a.key = k

/-- The creation loop so far: no account got lost, those passed exist, and the mask marks the new ones. -/
structure CreationMarks (ctx : Ctx) (bank : Bank) (passed : List Nat) (st : BitVec 16 × Bank) : Prop where
  kept : ∀ k, accountExists (bank k) = true → accountExists (st.2 k) = true
  opened : ∀ i ∈ passed, ∀ a, ctx.remainingAccounts[i]? = some a → accountExists (st.2 a.key) = true
  marks : ∀ k, accountExists (st.2 k) = true → (Marked ctx st.1 k ↔ accountExists (bank k) = false)
  passed : ∀ i < 16, st.1.getLsbD i = true → i ∈ passed

/-- Setting the bit of an account marks it. -/
theorem marked_or_iff {mask : BitVec 16} {i : Nat} {ata : AccountInfo} (hi : i < 16)
    (hata : ctx.remainingAccounts[i]? = some ata) :
    Marked ctx (mask ||| 1#16 <<< i) k ↔ Marked ctx mask k ∨ ata.key = k := by
  unfold Marked
  simp only [getLsbD_or_bit hi]
  constructor
  · rintro ⟨j, hj, hbit | rfl, a, ha, hkey⟩
    · exact Or.inl ⟨j, hj, hbit, a, ha, hkey⟩
    · rw [hata] at ha
      exact Or.inr (Option.some.inj ha ▸ hkey)
  · rintro (⟨j, hj, hbit, a, ha, hkey⟩ | hkey)
    · exact ⟨j, hj, Or.inl hbit, a, ha, hkey⟩
    · exact ⟨i, hi, Or.inr rfl, ata, hata, hkey⟩

section Laws

variable (laws : PayoutLaws R)

include laws

/-- One turn of the creation loop. -/
theorem CreationMarks.step {m i : Nat} {passed : List Nat} {st st' : BitVec 16 × Bank}
    (hst : CreationMarks ctx bank passed st) (h : createAtaStep R ctx m st i = .ok st') :
    CreationMarks ctx bank (passed ++ [i]) st' := by
  have hmem : ∀ j < 16, st.1.getLsbD j = true → j ∈ passed ++ [i] :=
    fun j hj hbit => List.mem_append_left _ (hst.passed j hj hbit)
  obtain ⟨ata, hata, hcases⟩ := createAtaStep_cases h
  -- the account of this turn exists afterwards, and so do those passed before
  have hopened : accountExists (st'.2 ata.key) = true →
      (∀ k, accountExists (st.2 k) = true → accountExists (st'.2 k) = true) →
      ∀ j ∈ passed ++ [i], ∀ a, ctx.remainingAccounts[j]? = some a →
      accountExists (st'.2 a.key) = true := by
    intro hexists hkeep j hj a ha
    rcases List.mem_append.mp hj with hj | hj
    · exact hkeep _ (hst.opened j hj a ha)
    · rw [List.mem_singleton.mp hj, hata] at ha
      exact Option.some.inj ha ▸ hexists
  rcases hcases with ⟨hexists, rfl⟩ | ⟨hnew, hi, hmask, mint, hcreate⟩
  · exact ⟨hst.kept, hopened hexists fun _ h => h, hst.marks, hmem⟩
  · obtain ⟨hexists, hother⟩ := laws.createAta hcreate
    have hstart : accountExists (bank ata.key) = false := by
      rw [Bool.eq_false_iff]
      intro hexisted
      rw [hst.kept _ hexisted] at hnew
      cases hnew
    have hkeep : ∀ k, accountExists (st.2 k) = true → accountExists (st'.2 k) = true := by
      intro k hk
      by_cases hne : k = ata.key
      · rw [hne]
        exact hexists
      · rw [(hother k hne).1]
        exact hk
    refine ⟨fun k hk => hkeep k (hst.kept k hk), hopened hexists hkeep, fun k hk => ?_,
      fun j hj hbit => ?_⟩
    · rw [hmask, marked_or_iff hi hata]
      by_cases hne : k = ata.key
      · subst hne
        exact iff_of_true (Or.inr rfl) hstart
      · rw [or_iff_left (Ne.symm hne)]
        rw [(hother k hne).1] at hk
        exact hst.marks k hk
    · rw [hmask, getLsbD_or_bit hi] at hbit
      rcases hbit with hbit | rfl
      · exact hmem j hj hbit
      · exact List.mem_append_right _ (List.mem_singleton.mpr rfl)

/-- **The creation mask** marks, of the accounts that exist after the loop, those that did not before. -/
theorem createAtas_marks {m : Nat} {st : BitVec 16 × Bank} (h : createAtas R ctx m bank = .ok st) :
    CreationMarks ctx bank (List.range m) st := by
  have hrun : Yields (createAtas R ctx m bank) (CreationMarks ctx bank (List.range m))
      (fun _ => True) := by
    refine Yields.foldlM (I := CreationMarks ctx bank) ⟨fun _ h => h, by simp, fun k hk => ?_, by simp⟩ ?_
    · refine iff_of_false (fun ⟨i, _, hbit, _⟩ => by simp at hbit) ?_
      rw [hk]
      simp
    · intro passed i _ st _ _ hst
      exact Yields.intro (fun st' hstep => hst.step laws hstep) (fun _ _ => trivial)
  exact hrun.of_ok h

/-! ## The closing pass -/

/-- Where an account stands in the closing pass: open, with its amount and, if that is zero, with no bit
    passed that stands for it; or closed, empty and marked. -/
def ClosingAt (ctx : Ctx) (mask : BitVec 16) (x : UInt64) (k : Pubkey) (passed : List Nat) (b : Bank) :
    Prop :=
  (extractTokenAmount (b k) = .ok x ∧ (x = 0 → ∀ i ∈ passed, mask.getLsbD i = true →
    ∀ a, ctx.remainingAccounts[i]? = some a → a.key ≠ k)) ∨
  (x = 0 ∧ Marked ctx mask k ∧ (b k).data = [])

/-- One turn of the closing pass. -/
theorem ClosingAt.step {x : UInt64} {passed : List Nat} {i : Nat} {b b' : Bank}
    (hb : ClosingAt ctx p.createdAtas x k passed b) (h : closeStep R ctx p b i = .ok b') :
    ClosingAt ctx p.createdAtas x k (passed ++ [i]) b' := by
  -- nothing happens to the account, and no bit of its own is passed
  have hpass : (x = 0 → p.createdAtas.getLsbD i = true → ∀ a, ctx.remainingAccounts[i]? = some a →
      a.key ≠ k) →
      (b' k).data = (b k).data → ClosingAt ctx p.createdAtas x k (passed ++ [i]) b' := by
    intro hnot hdata
    rcases hb with ⟨hx, hbits⟩ | ⟨hzero, hmarked, hnil⟩
    · refine Or.inl ⟨by rw [extractTokenAmount_congr hdata, hx], fun hzero j hj hbit a ha => ?_⟩
      rcases List.mem_append.mp hj with hj | hj
      · exact hbits hzero j hj hbit a ha
      · rw [List.mem_singleton.mp hj] at hbit ha
        exact hnot hzero hbit a ha
    · exact Or.inr ⟨hzero, hmarked, hdata.trans hnil⟩
  obtain ⟨hi, ⟨hunset, rfl⟩ | ⟨hset, ata, hata, ⟨hfull, rfl⟩ | ⟨hempty, program, hclose⟩⟩⟩ :=
    closeStep_cases h
  · refine hpass (fun _ hset => ?_) rfl
    rw [hunset] at hset
    cases hset
  · -- a funded account stays open, so it is not `k` if `k` is empty
    refine hpass (fun hzero _ a ha hkey => hfull ?_) rfl
    obtain rfl := Option.some.inj (hata.symm.trans ha)
    subst hkey
    rcases hb with ⟨hx, -⟩ | ⟨-, -, hnil⟩
    · rw [tokenBalance_of_extract hx, hzero]
      rfl
    · exact tokenBalance_of_nil hnil
  · obtain ⟨hnil, hother⟩ := laws.closeAccount hclose
    by_cases hkey : ata.key = k
    · subst hkey
      refine Or.inr ⟨?_, ⟨i, hi, hset, ata, hata, rfl⟩, hnil⟩
      rcases hb with ⟨hx, -⟩ | ⟨hzero, -⟩
      · rw [tokenBalance_of_extract hx] at hempty
        exact UInt64.toNat_inj.mp hempty
      · exact hzero
    · refine hpass (fun _ _ a ha hka => ?_) (hother k (Ne.symm hkey))
      rw [hata] at ha
      exact hkey (Option.some.inj ha ▸ hka)

/-- **The closing pass** closes an account exactly if it is marked and empty,
    and leaves every other one with its amount. -/
theorem closeCreatedAtas_closes {x : UInt64} {b : Bank}
    (hpassed : ∀ i < 16, p.createdAtas.getLsbD i = true → i < p.mintsCount)
    (hx : extractTokenAmount (b k) = .ok x) (h : closeCreatedAtas R ctx p b = .ok bank') :
    (extractTokenAmount (bank' k) = .ok x ∧ ¬ (x = 0 ∧ Marked ctx p.createdAtas k)) ∨
      (x = 0 ∧ Marked ctx p.createdAtas k ∧ (bank' k).data = []) := by
  have hrun : Yields (closeCreatedAtas R ctx p b)
      (ClosingAt ctx p.createdAtas x k (List.range p.mintsCount)) (fun _ => True) := by
    refine Yields.foldlM (I := ClosingAt ctx p.createdAtas x k) (Or.inl ⟨hx, by simp⟩) ?_
    intro passed i _ s _ _ hs
    exact Yields.intro (fun s' hstep => hs.step laws hstep) (fun _ _ => trivial)
  rcases hrun.of_ok h with ⟨hopen, hbits⟩ | hclosed
  · refine Or.inl ⟨hopen, fun ⟨hzero, i, hi, hbit, a, ha, hkey⟩ => ?_⟩
    exact hbits hzero i (List.mem_range.mpr (hpassed i hi hbit)) hbit a ha hkey
  · exact Or.inr hclosed

/-! ## The payout -/

/-- A transfer to another account takes exactly its amount. -/
theorem transferTokens_debits {tokenProgram source dest authority : AccountInfo}
    {mint : Option AccountInfo} {n balance : UInt64} {decimals : UInt8} {seeds : SignerSeeds}
    (h : transferTokens R tokenProgram source dest authority mint n decimals seeds bank = .ok bank')
    (hne : source.key ≠ dest.key) (hbalance : extractTokenAmount (bank source.key) = .ok balance) :
    extractTokenAmount (bank' source.key) = .ok (balance - n) := by
  rcases transferTokens_cases h with ⟨rfl, rfl⟩ | ⟨m, -, hchecked⟩ | hplain
  · rw [hbalance, UInt64.sub_zero]
  · exact (laws.transferChecked hchecked hne hbalance).2
  · exact (laws.transfer hplain hne hbalance).2

/-- Opening the user's output account leaves the amount of another one. -/
theorem openOutput_keeps {tokenProgram : AccountInfo}
    (h : openOutput R ctx p tokenProgram bank = .ok bank')
    (hne : k ≠ ctx.outputTokenAccount.key) :
    extractTokenAmount (bank' k) = extractTokenAmount (bank k) := by
  rcases openOutput_cases h with rfl | hcreate
  · rfl
  · exact extractTokenAmount_congr ((laws.createAta (invoked_eq_ok.mp hcreate)).2 k hne).2

end Laws

/-- The output ATA is that of the last leg's `to`. -/
theorem prepare_output (h : prepare R ctx amount mints swaps bank = .ok p) {last : SwapSpecInputV2}
    (hlast : swaps.getLast? = some last) : p.outputAtaIndex = last.toIdx.toNat := by
  obtain ⟨last', hlast', hindex⟩ := (prepare_ok h).output
  obtain rfl := Option.some.inj (hlast'.symm.trans hlast)
  exact hindex

/-- The payout is never clamped where the output ATA still holds its recorded balance `r` afterwards: it
    is the whole gain `raw - r`, and leaves `r`. -/
theorem payout_unclamped {raw r : UInt64} (h : r.toNat ≤ (raw - saturatingSub raw r).toNat) :
    r.toNat ≤ raw.toNat ∧ (saturatingSub raw r).toNat = raw.toNat - r.toNat ∧
    raw - saturatingSub raw r = r := by
  have hsaturating := saturatingSub_toNat raw r
  have hle : saturatingSub raw r ≤ raw := UInt64.le_iff_toNat_le.mpr (by omega)
  have hrest := UInt64.toNat_sub_of_le _ _ hle
  have hgain : r.toNat ≤ raw.toNat := by omega
  exact ⟨hgain, hsaturating, UInt64.toNat_inj.mp (by omega)⟩

/-- **The payout is exactly what the route gained.** In every route that returns, whatever its legs, mints
    and venues do, the user's output account is sent what the output ATA of the TitanPDA holds after the
    last leg minus its recorded balance, which it never falls short of. The ATA ends with the recorded
    balance; if that is zero and the route opened the account, it is closed instead. -/
theorem payout_is_gain (laws : PayoutLaws R) {last : SwapSpecInputV2} {out : AccountInfo}
    (hlast : swaps.getLast? = some last) (hout : ctx.remainingAccounts[last.toIdx.toNat]? = some out)
    (hne : ctx.outputTokenAccount.key ≠ out.key) (h : execute R ctx amount mints swaps bank = .ok bank') :
    ∃ p bank₀ st bank₁ bank₂ userOutput,
      prepare R ctx amount mints swaps bank = .ok p ∧ deposit R ctx p = .ok bank₀ ∧
      runLegs R ctx p swaps bank₀ = .ok st ∧
      openOutput R ctx p (getTokenProgramForMint R ctx st.bank p.outputMint) st.bank = .ok bank₁ ∧
      transferTokens R (getTokenProgramForMint R ctx st.bank p.outputMint) out ctx.outputTokenAccount
        ctx.titanPda (some p.outputMint) userOutput p.outputMintDecimals (signerSeeds ctx)
          bank₁ = .ok bank₂ ∧
      closeCreatedAtas R ctx p bank₂ = .ok bank' ∧
      tokenBalance (p.bank out.key) ≤ tokenBalance (st.bank out.key) ∧
      userOutput.toNat = tokenBalance (st.bank out.key) - tokenBalance (p.bank out.key) ∧
      ((extractTokenAmount (bank' out.key) = .ok (tokenAmountOrZero (p.bank out.key)) ∧
          ¬ (tokenBalance (p.bank out.key) = 0 ∧ accountExists (bank out.key) = false)) ∨
        (tokenBalance (p.bank out.key) = 0 ∧ accountExists (bank out.key) = false ∧
          (bank' out.key).data = [])) := by
  obtain ⟨p, idx, hprep, htrade, hcheck⟩ := execute_cases h
  obtain ⟨bank₀, st, bank₂, hdeposit, hlegs, hpayout, hclose⟩ := trade_cases htrade
  obtain ⟨out', raw, r, bank₁, hout', hraw, hr, hopen, htransfer⟩ := payout_cases hpayout
  have hp := prepare_spec hprep
  rw [prepare_output hprep hlast] at hout'
  obtain rfl : out = out' := Option.some.inj (hout.symm.trans hout')
  rw [← prepare_output hprep hlast] at hout
  rw [(hp.reserved_eq hp.output hout).1] at hr
  obtain rfl := Option.some.inj hr
  -- the amount on the ATA when the closing pass begins
  have hpaid := transferTokens_debits laws htransfer hne.symm
    ((openOutput_keeps laws hopen hne.symm).trans hraw)
  have hmarks := createAtas_marks laws hp.created
  have hmarked : Marked ctx p.createdAtas out.key ↔ accountExists (bank out.key) = false :=
    hmarks.marks out.key (hmarks.opened _ (List.mem_range.mpr hp.output) out hout)
  have hends := closeCreatedAtas_closes laws (fun i hi hbit => List.mem_range.mp
    (hmarks.passed i hi hbit)) hpaid hclose
  -- the final check finds at least the recorded balance there, so nothing was clamped
  have hrecorded : recorded R ctx p.bank out = true :=
    (hp.snapshot.reserved (out, _) (List.mk_mem_zipIdx_iff_getElem?.mpr hout) hp.output).1
  have hkept := (finalCheck_yields hp.snapshot).of_ok hcheck out (List.mem_of_getElem? hout) hrecorded
  have hfinal : tokenBalance (bank' out.key) =
      (raw - saturatingSub raw (tokenAmountOrZero (p.bank out.key))).toNat := by
    rcases hends with ⟨hopen, -⟩ | ⟨hzero, -, hnil⟩
    · exact tokenBalance_of_extract hopen
    · rw [hzero, tokenBalance_of_nil hnil]
      rfl
  rw [hfinal] at hkept
  obtain ⟨hgain, huserOutput, hleft⟩ := payout_unclamped hkept
  have hzero : tokenAmountOrZero (p.bank out.key) = 0 ↔ tokenBalance (p.bank out.key) = 0 :=
    UInt64.toNat_inj.symm
  rw [hleft, hmarked, hzero] at hends
  refine ⟨p, bank₀, st, bank₁, bank₂, _, hprep, hdeposit, hlegs, hopen, htransfer, hclose, ?_, ?_, hends⟩
  · rw [tokenBalance_of_extract hraw]
    exact hgain
  · rw [tokenBalance_of_extract hraw]
    exact huserOutput

/-! ## The sample route -/

section Sample

open Reference LittleEndian

variable {program source dest authority : Pubkey} {n : Nat} {signs : Pubkey → Bool} {b b' : Bank}

/-- A transfer to another account rewrites the amount of its source. -/
theorem moveTokens_debits {amount balance : UInt64}
    (h : moveTokens program source dest authority amount.toNat signs b = .ok b') (hne : source ≠ dest)
    (hbalance : extractTokenAmount (b source) = .ok balance) :
    amount ≤ balance ∧ extractTokenAmount (b' source) = .ok (balance - amount) := by
  unfold moveTokens at h
  simp only [Except.bind_eq_ok, ensure_eq_ok, isToken, Bool.and_eq_true, decide_eq_true_eq, hne,
    ↓reduceIte, Except.pure_eq_ok] at h
  obtain ⟨_, ⟨⟨-, hs⟩, -⟩, _, hfunds, _, -, _, -, _, -, rfl⟩ := h
  obtain ⟨-, hlen⟩ := spendDelegation_frame authority amount.toNat hs
  rw [tokenBalance_of_extract hbalance] at hfunds
  have hle : amount ≤ balance := UInt64.le_iff_toNat_le.mpr hfunds
  have hdata : 64 + (leBytes 8 (tokenBalance (b source) - amount.toNat)).length ≤
      (spendDelegation (b source) authority amount.toNat).data.length := by
    rw [length_leBytes]
    omega
  have hread : bytesAt (setAmount (spendDelegation (b source) authority amount.toNat)
      (tokenBalance (b source) - amount.toNat)).data 64 72 =
        some (leBytes 8 (tokenBalance (b source) - amount.toNat)) := bytesAt_writeAt_self hdata
  refine ⟨hle, ?_⟩
  simp only [movedBank, Function.update_of_ne hne, Function.update_self]
  rw [extractTokenAmount, hread, tokenBalance_of_extract hbalance, ← UInt64.toNat_sub_of_le _ _ hle]
  simp only [Res.orErr, Except.ok_bind]
  rw [leNat_leBytes (by simpa using UInt64.toNat_lt _), UInt64.ofNat_toNat]
  rfl

/-- **The reference runtime pays out** as the route relies on. -/
theorem payoutLaws (titanPda : Pubkey) (venue : VenueProgram) : PayoutLaws (runtime titanPda venue) where
  transfer h hne hbalance := by
    simp only [runtime, token] at h
    exact moveTokens_debits h hne hbalance
  transferChecked h hne hbalance := by
    simp only [runtime, token] at h
    exact moveTokens_debits h hne hbalance
  createAta h := ⟨(createAta_spec h).1, fun k hk => by rw [createAta_other h hk]; exact ⟨rfl, rfl⟩⟩
  closeAccount h := by
    simp only [runtime, token] at h
    obtain ⟨hnil, hother⟩ := closeToken_frame h
    exact ⟨hnil, fun k hk => (hother k hk).1⟩

/-- The longer sample route turns 1000 `A` into 451 `C`: the user is sent these, and the output ATA ends
    with the 40 tokens it was recorded with. -/
theorem payout_is_gain_sample :
    ∃ (p : Prepared) (bank₀ : Bank) (st : RouteState) (bank₁ bank₂ bank' : Bank),
      prepare (runtime Sample.titanPda Sample.dealer) Sample.longCtx 1000 3 Sample.longSwaps
        Sample.longBank = .ok p ∧
      deposit (runtime Sample.titanPda Sample.dealer) Sample.longCtx p = .ok bank₀ ∧
      runLegs (runtime Sample.titanPda Sample.dealer) Sample.longCtx p Sample.longSwaps bank₀ = .ok st ∧
      transferTokens (runtime Sample.titanPda Sample.dealer)
        (getTokenProgramForMint (runtime Sample.titanPda Sample.dealer) Sample.longCtx
          st.bank p.outputMint)
        (Sample.writable Sample.titanC) (Sample.writable Sample.userC) (Sample.readonly Sample.titanPda)
        (some p.outputMint) 451 p.outputMintDecimals (signerSeeds Sample.longCtx) bank₁ = .ok bank₂ ∧
      execute (runtime Sample.titanPda Sample.dealer) Sample.longCtx 1000 3 Sample.longSwaps
        Sample.longBank = .ok bank' ∧
      extractTokenAmount (bank' Sample.titanC) = .ok 40 := by
  obtain ⟨bank', hrun⟩ := Except.exists_of_failure? (show (execute (runtime Sample.titanPda Sample.dealer)
    Sample.longCtx 1000 3 Sample.longSwaps Sample.longBank).failure? = none by decide +kernel)
  have hout : Sample.longCtx.remainingAccounts[(2 : UInt8).toNat]? =
      some (Sample.writable Sample.titanC) := rfl
  obtain ⟨p, bank₀, st, bank₁, bank₂, userOutput, hprep, hdeposit, hlegs, -, htransfer, -, -,
      hgain, hends⟩ :=
    payout_is_gain (payoutLaws _ _) rfl hout (by decide) hrun
  -- what the legs came to
  have hbalance : (prepare (runtime Sample.titanPda Sample.dealer) Sample.longCtx 1000 3 Sample.longSwaps
      Sample.longBank).okAnd (fun p =>
        (deposit (runtime Sample.titanPda Sample.dealer) Sample.longCtx p).okAnd fun b =>
        (runLegs (runtime Sample.titanPda Sample.dealer) Sample.longCtx p Sample.longSwaps b).okAnd
          fun st => decide (tokenBalance (st.bank Sample.titanC) = 491)) = true := by
    decide +kernel
  rw [hprep, Except.okAnd, hdeposit, Except.okAnd, hlegs, Except.okAnd, decide_eq_true_eq] at hbalance
  have hrecorded : tokenAmountOrZero (Sample.longBank Sample.titanC) = 40 := by decide +kernel
  have hexists : accountExists (Sample.longBank Sample.titanC) = true := by decide +kernel
  rw [longRoute_prepared_bank hprep] at hgain hends
  have hsent : userOutput = 451 := by
    apply UInt64.toNat_inj.mp
    refine hgain.trans ?_
    show tokenBalance (st.bank Sample.titanC) - (tokenAmountOrZero
        (Sample.longBank Sample.titanC)).toNat = 451
    rw [hbalance, hrecorded]
    rfl
  subst hsent
  refine ⟨p, bank₀, st, bank₁, bank₂, bank', hprep, hdeposit, hlegs, htransfer, hrun, ?_⟩
  rcases hends with ⟨hopen, -⟩ | ⟨-, hnew, -⟩
  · exact hopen.trans (congrArg Except.ok hrecorded)
  · exact absurd (hexists.symm.trans hnew) (by simp)

end Sample

end ByrealTitan.Program
