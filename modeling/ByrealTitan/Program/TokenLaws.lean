import ByrealTitan.Lib.Reserve
import ByrealTitan.Program.Stages

/-!
# `Program.TokenLaws` — what the route relies on in the token programs

The documented behaviour of the SPL token, associated-token and system programs, as far as the route's
balances depend on it, and what follows for each helper of the source. A transfer debits exactly its
amount, a closed account reads as zero, and nothing else the route invokes lowers a token balance. What
arrives may be less where a Token-2022 mint has a transfer fee; `ExactTransfers` is for the mints that
have none.
-/

namespace ByrealTitan.Program

open Reserve

/-- The delegate of an SPL token account, an optional key behind a four-byte tag. -/
def tokenDelegate (a : Account) : Option Pubkey :=
  if bytesAt a.data 72 76 = some [1, 0, 0, 0] then (bytesAt a.data 76 108).bind Pubkey.ofSlice else none

/-- The token balance of every account. -/
def balances (bank : Bank) : Pubkey → Nat := fun k => tokenBalance (bank k)

/-- A balance is read from the data. -/
theorem balances_congr {b b' : Bank} {k : Pubkey} (h : (b' k).data = (b k).data) :
    balances b' k = balances b k := by
  simp only [balances, tokenBalance, tokenAmountOrZero, extractTokenAmount, h]

/-- The balances after a successful call. -/
structure TokenLaws (R : Runtime) : Prop where
  transfer : ∀ {program source dest authority amount infos seeds b b'},
    R.invokeToken program (.transfer source dest authority amount) infos seeds b = .ok b' →
      Debits source dest amount.toNat (balances b) (balances b')
  transferChecked : ∀ {program source mint dest authority amount decimals infos seeds b b'},
    R.invokeToken program (.transferChecked source mint dest authority amount decimals) infos seeds b
        = .ok b' →
      Debits source dest amount.toNat (balances b) (balances b')
  /-- A closed account reads as zero; no other account changes its balance. -/
  closeAccount : ∀ {program account destination authority infos seeds b b'},
    R.invokeToken program (.closeAccount account destination authority) infos seeds b = .ok b' →
      balances b' account = 0 ∧ ∀ k, k ≠ account → balances b' k = balances b k
  /-- `sync_native` refuses to lower a balance. -/
  syncNative : ∀ {program account infos seeds b b'},
    R.invokeToken program (.syncNative account) infos seeds b = .ok b' →
      ∀ k, balances b k ≤ balances b' k
  /-- The associated account exists afterwards; an account that existed is left as it was. -/
  createAta : ∀ {payer owner mint ata tokenProgram systemProgram b b'},
    R.createAssociatedTokenAccountIdempotent payer owner mint ata tokenProgram systemProgram b
        = .ok b' →
      accountExists (b' ata.key) = true ∧
      (∀ k, accountExists (b k) = true → accountExists (b' k) = true) ∧
      ∀ k, balances b k ≤ balances b' k
  systemTransfer : ∀ {source dest amount b b'},
    R.systemTransfer source dest amount b = .ok b' → ∀ k, balances b k ≤ balances b' k

/-- What is debited arrives: the SPL token program knows no fees, and this mint has none. -/
structure ExactTransfers (R : Runtime) (mint : Pubkey) : Prop where
  transfer : ∀ {source dest authority amount infos seeds b b'},
    R.invokeToken R.SPL_TOKEN_ID (.transfer source dest authority amount) infos seeds b = .ok b' →
      Moves source dest amount.toNat (balances b) (balances b')
  transferChecked : ∀ {program source dest authority amount decimals infos seeds b b'},
    R.invokeToken program (.transferChecked source mint dest authority amount decimals) infos seeds b
        = .ok b' →
      Moves source dest amount.toNat (balances b) (balances b')

variable {R : Runtime} {ctx : Ctx} {bank bank' : Bank} (laws : TokenLaws R)

theorem transferTokens_moves {tokenProgram source dest authority mint : AccountInfo} {amount : UInt64}
    {decimals : UInt8} {seeds : SignerSeeds} (hexact : ExactTransfers R mint.key)
    (h : transferTokens R tokenProgram source dest authority (some mint) amount decimals seeds bank
      = .ok bank') :
    Moves source.key dest.key amount.toNat (balances bank) (balances bank') := by
  rcases transferTokens_cases h with ⟨rfl, rfl⟩ | ⟨m, hm, hchecked⟩ | hplain
  · exact .zero _ _ _
  · obtain rfl := Option.some.inj hm
    exact hexact.transferChecked hchecked
  · exact hexact.transfer hplain

include laws

/-! ## The helpers of the source -/

theorem transferTokens_spends {tokenProgram source dest authority : AccountInfo}
    {mint : Option AccountInfo} {amount : UInt64} {decimals : UInt8} {seeds : SignerSeeds}
    (h : transferTokens R tokenProgram source dest authority mint amount decimals seeds bank
      = .ok bank') :
    Debits source.key dest.key amount.toNat (balances bank) (balances bank') := by
  rcases transferTokens_cases h with ⟨rfl, rfl⟩ | ⟨m, -, hchecked⟩ | hplain
  · exact (Moves.zero _ _ _).debits
  · exact laws.transferChecked hchecked
  · exact laws.transfer hplain

theorem transferSolAndSync_noLoss {source wsolAta tokenProgram : AccountInfo} {amount : UInt64}
    (h : transferSolAndSync R source wsolAta tokenProgram amount bank = .ok bank') :
    ∀ k, balances bank k ≤ balances bank' k := by
  intro k
  rcases transferSolAndSync_cases h with ⟨-, rfl⟩ | ⟨b₁, hpay, hsync⟩
  · exact Nat.le_refl _
  · exact Nat.le_trans (laws.systemTransfer hpay k) (laws.syncNative hsync k)

/-- Funding the wrapped-SOL input account lowers no balance, and reports a creation only of an account
    that did not exist. -/
theorem setupWsolInputAccount_spec {mint tokenProgram : AccountInfo} {amount : UInt64}
    {created : Bool}
    (h : setupWsolInputAccount R ctx mint tokenProgram amount bank = .ok (created, bank')) :
    (∀ k, balances bank k ≤ balances bank' k) ∧
      (created = true → accountExists (bank ctx.inputTokenAccount.key) = false) := by
  rcases setupWsolInputAccount_cases h with
    ⟨rfl, -, current, -, hfund⟩ | ⟨rfl, hnew, b₁, hcreate, hfund⟩
  · exact ⟨transferSolAndSync_noLoss laws hfund, by simp⟩
  · have hcreated := (laws.createAta (invoked_eq_ok.mp hcreate)).2.2
    have hfunded := transferSolAndSync_noLoss laws hfund
    exact ⟨fun k => Nat.le_trans (hcreated k) (hfunded k), fun _ => hnew⟩

/-! ## The creation loop -/

/-- The creation loop so far: the ATAs passed exist, and no balance fell. -/
structure AtasOpen (ctx : Ctx) (bank : Bank) (passed : List Nat) (b : Bank) : Prop where
  exist : ∀ i ∈ passed, ∀ a, ctx.remainingAccounts[i]? = some a → accountExists (b a.key) = true
  grown : ∀ k, balances bank k ≤ balances b k

/-- One turn of the creation loop. -/
theorem AtasOpen.step {m i : Nat} {passed : List Nat} {st st' : BitVec 16 × Bank}
    (hst : AtasOpen ctx bank passed st.2) (h : createAtaStep R ctx m st i = .ok st') :
    AtasOpen ctx bank (passed ++ [i]) st'.2 := by
  obtain ⟨ata, hata, hcases⟩ := createAtaStep_cases h
  have hthis : accountExists (st'.2 ata.key) = true →
      (∀ k, accountExists (st.2 k) = true → accountExists (st'.2 k) = true) →
      ∀ j ∈ passed ++ [i], ∀ a, ctx.remainingAccounts[j]? = some a →
      accountExists (st'.2 a.key) = true := by
    intro hexists hkeep j hj a ha
    rcases List.mem_append.mp hj with hj | hj
    · exact hkeep _ (hst.exist j hj a ha)
    · rw [List.mem_singleton.mp hj, hata] at ha
      exact Option.some.inj ha ▸ hexists
  rcases hcases with ⟨hexists, rfl⟩ | ⟨-, -, -, mint, hcreate⟩
  · exact ⟨hthis hexists fun _ h => h, hst.grown⟩
  · obtain ⟨hnew, hkeep, hgrown⟩ := laws.createAta hcreate
    exact ⟨hthis hnew hkeep, fun k => Nat.le_trans (hst.grown k) (hgrown k)⟩

/-- After the creation loop every ATA of the route exists, and no balance fell. -/
theorem createAtas_spec {m : Nat} {mask : BitVec 16}
    (h : createAtas R ctx m bank = .ok (mask, bank')) : AtasOpen ctx bank (List.range m) bank' := by
  have hrun : Yields (createAtas R ctx m bank) (fun st => AtasOpen ctx bank (List.range m) st.2)
      (fun _ => True) := by
    refine Yields.foldlM (I := fun passed (st : BitVec 16 × Bank) => AtasOpen ctx bank passed st.2)
      ⟨by simp, fun k => Nat.le_refl _⟩ ?_
    intro passed i _ st _ _ hst
    exact Yields.intro (fun st' hstep => hst.step laws hstep) (fun _ _ => trivial)
  exact hrun.of_ok h

end ByrealTitan.Program
