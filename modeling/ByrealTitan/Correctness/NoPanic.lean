import ByrealTitan.Correctness.Prepared

/-!
# `Correctness.NoPanic` — a malformed route is refused

The indexings, shifts and sums of a route are guarded by checks made far away: the counts by the
validation at the top, the leg slices by the requirements inside the loop, the running index of the
final check by the snapshot. Stage by stage, what was checked makes each of them succeed, for whatever
the caller passed and whatever the invoked programs did (`route_refused_or_done`). The same walk tells
which errors a stage can end in: none but the final check reports a violated reserve (`Quiet`).
-/

namespace ByrealTitan.Program

open Res

variable {R : Runtime} {ctx : Ctx} {amount : UInt64} {mints : UInt8} {swaps : List SwapSpecInputV2}
  {bank : Bank} {p : Prepared}

/-- The computation ends in a value or in an error, and the error is not the final check's. -/
abbrev Quiet {α : Type} (x : Exec α) : Prop := x.Raises (· ≠ .route .reservedBalanceViolation)

/-! ## Helpers of the source -/

theorem quiet_invoked {α : Type} {r : Except UInt64 α} : Quiet (invoked r) := by
  cases r with
  | error code => exact Raises.fail (by simp)
  | ok a => exact Raises.ok

theorem quiet_remainingAccount {i : Nat} : Quiet (remainingAccount ctx i) := Raises.orErr (by decide)

theorem quiet_extractTokenAmount {a : Account} : Quiet (extractTokenAmount a) := by
  unfold extractTokenAmount
  exact (Raises.orErr (by decide)).bind fun _ _ => Raises.ok

theorem quiet_shl16 {i : Nat} (h : i < 16) : Quiet (shl16 i) := by
  unfold shl16
  rw [if_pos h]
  exact Raises.ok

theorem quiet_readTokenLedger : Quiet (readTokenLedger ctx bank) := by
  unfold readTokenLedger
  cases ctx.tokenLedger with
  | none => exact Raises.ok
  | some ledgerAccount =>
      refine (Raises.require (by decide)).bind fun _ _ => ?_
      refine (Raises.orErr (by decide)).bind fun tokenAccountSlice _ => ?_
      refine (Raises.orErr (by decide)).bind fun tokenAccount _ => ?_
      refine (Raises.require (by decide)).bind fun _ _ => ?_
      exact (Raises.orErr (by decide)).bind fun _ _ => Raises.ok

theorem quiet_transferTokens {tokenProgram source dest authority : AccountInfo} {mint : Option AccountInfo}
    {n : UInt64} {decimals : UInt8} {seeds : SignerSeeds} :
    Quiet (transferTokens R tokenProgram source dest authority mint n decimals seeds bank) := by
  unfold transferTokens
  refine Raises.ite (fun _ => Raises.ok) fun _ => Raises.ite (fun _ => ?_) fun _ => quiet_invoked
  exact (Raises.orErr (by decide)).bind fun _ _ => quiet_invoked

theorem quiet_transferSolAndSync {source wsolAta tokenProgram : AccountInfo} {n : UInt64} :
    Quiet (transferSolAndSync R source wsolAta tokenProgram n bank) := by
  unfold transferSolAndSync
  exact Raises.ite (fun _ => Raises.ok) fun _ => quiet_invoked.bind fun _ _ => quiet_invoked

/-- The deficit is subtracted only where it is positive. -/
theorem quiet_setupWsolInputAccount {mint tokenProgram : AccountInfo} {n : UInt64} :
    Quiet (setupWsolInputAccount R ctx mint tokenProgram n bank) := by
  unfold setupWsolInputAccount
  refine Raises.ite (fun _ => ?_) fun _ => ?_
  · refine quiet_extractTokenAmount.bind fun current _ => Raises.ite (fun hlt => ?_) fun _ => Raises.ok
    have hle : current.toNat ≤ n.toNat := Nat.le_of_lt (UInt64.lt_iff_toNat_lt.mp hlt)
    refine (Raises.checkedSub hle).bind fun deficit _ => ?_
    exact quiet_transferSolAndSync.bind fun _ _ => Raises.ok
  · refine Raises.bind (quiet_invoked (r := _)) fun _ _ => ?_
    exact quiet_transferSolAndSync.bind fun _ _ => Raises.ok

/-! ## Validation, ATA creation and the snapshot -/

theorem quiet_validate : Quiet (validate ctx mints swaps) := by
  unfold validate
  refine (Raises.require (by decide)).bind fun _ hmints => ?_
  refine (Raises.require (by decide)).bind fun _ _ => ?_
  refine (Raises.require (by decide)).bind fun _ _ => ?_
  refine (Raises.require (by decide)).bind fun _ _ => ?_
  -- there is a leg to look at
  have hfirst : ∃ first, swaps[0]? = some first := by
    cases swaps with
    | nil => exact absurd rfl (Res.require_eq_ok.mp hmints).2
    | cons first rest => exact ⟨first, rfl⟩
  refine (Raises.orPanic hfirst).bind fun first _ => ?_
  refine (Raises.require (by decide)).bind fun _ _ => ?_
  exact Raises.forM fun swap _ => Raises.require (by decide)

/-- A route has at most twelve mints, so the mask has a bit for each. -/
theorem quiet_createAtas {m : Nat} (hm : m ≤ MAX_MINTS) : Quiet (createAtas R ctx m bank) := by
  refine Raises.foldlM (I := fun _ _ => True) trivial fun pre i post st hl _ => ⟨?_, fun _ _ => trivial⟩
  have hi : i < m := by
    have hmem : i ∈ List.range m := by
      rw [hl]
      simp
    exact List.mem_range.mp hmem
  have hbit : i < 16 := by
    unfold MAX_MINTS at hm
    omega
  unfold createAtaStep createTitanPdaAta
  refine quiet_remainingAccount.bind fun ata _ => Raises.ite (fun _ => Raises.ok) fun _ => ?_
  refine quiet_remainingAccount.bind fun mintAccount _ => quiet_invoked.bind fun _ _ => ?_
  exact (quiet_shl16 hbit).bind fun _ _ => Raises.ok

theorem quiet_setReserved {reserved : Vector UInt64 MAX_MINTS} {i : Nat} {balance : UInt64}
    (hi : i < MAX_MINTS) :
    Quiet (setReserved reserved i balance) := by
  unfold setReserved
  rw [dif_pos hi]
  exact Raises.ok

theorem quiet_takeSnapshot {m : Nat} (hm : m ≤ MAX_MINTS) : Quiet (takeSnapshot R ctx m bank) := by
  refine Raises.foldlM (I := fun _ _ => True) trivial fun pre entry post snap _ _ =>
    ⟨?_, fun _ _ => trivial⟩
  unfold snapshotStep
  simp only
  refine Raises.ite (fun hi => ?_) fun _ => Raises.ite (fun _ => ?_) fun _ => Raises.ok
  · refine (Raises.require (by decide)).bind fun _ _ => quiet_extractTokenAmount.bind fun balance _ => ?_
    exact (quiet_setReserved (by omega)).bind fun _ _ => Raises.ok
  · exact quiet_extractTokenAmount.bind fun _ _ => Raises.ok

theorem quiet_depositAmount {ledger : Option UInt64} : Quiet (depositAmount ctx bank ledger amount) := by
  cases ledger with
  | none => exact Raises.ok
  | some stored =>
      refine Raises.bind quiet_extractTokenAmount fun current _ => ?_
      refine (Raises.require (by decide)).bind fun _ _ => ?_
      exact (Raises.require (by decide)).bind fun _ _ => Raises.ok

theorem quiet_prepare : Quiet (prepare R ctx amount mints swaps bank) := by
  unfold prepare
  refine quiet_validate.bind fun _ hvalid => ?_
  obtain ⟨-, hswaps, hmints, -⟩ := validate_ok hvalid
  refine quiet_readTokenLedger.bind fun ledgerAmount _ => ?_
  refine quiet_remainingAccount.bind fun inputMint _ => ?_
  have hlast : ∃ last, swaps[swaps.length - 1]? = some last := by
    rw [← List.getLast?_eq_getElem?]
    exact ⟨swaps.getLast hswaps, List.getLast?_eq_some_getLast hswaps⟩
  refine (Raises.orPanic hlast).bind fun last _ => ?_
  refine quiet_remainingAccount.bind fun outputMint _ => ?_
  refine Raises.bind (Raises.orErr (by decide)) fun inputMintDecimals _ => ?_
  refine Raises.bind (Raises.orErr (by decide)) fun outputMintDecimals _ => ?_
  refine (quiet_createAtas hmints).bind fun created _ => ?_
  refine (quiet_takeSnapshot hmints).bind fun snapshot _ => ?_
  exact quiet_depositAmount.bind fun _ _ => Raises.ok

/-! ## Deposit, legs, payout and closing -/

theorem quiet_setupInput {tokenProgram : AccountInfo} : Quiet (setupInput R ctx p tokenProgram) := by
  unfold setupInput
  exact Raises.ite (fun _ => quiet_setupWsolInputAccount) fun _ => Raises.ok

theorem quiet_deposit : Quiet (deposit R ctx p) := by
  unfold deposit closeTokenAccount
  refine quiet_remainingAccount.bind fun firstTitanPdaAta _ => ?_
  refine quiet_setupInput.bind fun created _ => ?_
  refine quiet_transferTokens.bind fun _ _ => ?_
  exact Raises.ite (fun _ => quiet_invoked) fun _ => Raises.ok

theorem quiet_performCpiSwap {n : UInt64} {swap : SwapSpecInputV2} {metas : List AccountMeta}
    {infos : List AccountInfo} : Quiet (performCpiSwap R ctx n swap metas infos bank) := by
  unfold performCpiSwap
  refine (Raises.orErr (by decide)).bind fun venueProgram _ => ?_
  exact Raises.foldlM (I := fun _ _ => True) trivial fun _ _ _ _ _ _ => ⟨quiet_invoked, fun _ _ => trivial⟩

/-- The reserved balances have a slot for every mint of the route. -/
theorem reserved_getElem? {reserved : Vector UInt64 MAX_MINTS} {i : Nat} (h : i < MAX_MINTS) :
    ∃ balance, reserved[i]? = some balance := ⟨reserved[i], Vector.getElem?_eq_getElem h⟩

theorem quiet_legInputAmount {reserved : Vector UInt64 MAX_MINTS} {swap : SwapSpecInputV2}
    (hfrom : swap.fromIdx.toNat < MAX_MINTS) : Quiet (legInputAmount ctx reserved bank swap) := by
  unfold legInputAmount
  refine quiet_remainingAccount.bind fun inputTokenAccount _ => quiet_extractTokenAmount.bind
    fun balance _ => ?_
  exact (Raises.orPanic (reserved_getElem? hfrom)).bind fun _ _ => Raises.ok

/-- A leg whose accounts are there cuts them out. -/
theorem quiet_legCpi {n : UInt64} {swap : SwapSpecInputV2} {start increment : Nat} (hpos : 0 < increment)
    (hstop : start + increment ≤ ctx.remainingAccounts.length) :
    Quiet (legCpi R ctx n swap start increment bank) := by
  have hremaining := ctx.remaining_le
  unfold legCpi
  refine Raises.ite (fun _ => ?_) fun _ => Raises.ok
  refine (Raises.checkedAdd (by omega)).bind fun stop hsum => ?_
  obtain ⟨-, rfl⟩ := Res.checkedAdd_eq_ok.mp hsum
  refine (Raises.slice ⟨by omega, hstop⟩).bind fun accounts haccounts => ?_
  obtain ⟨-, rfl⟩ := Res.slice_eq_ok.mp haccounts
  refine (Raises.checkedSub hpos).bind fun count hcount => ?_
  obtain ⟨-, rfl⟩ := Res.checkedSub_eq_ok.mp hcount
  refine (Raises.slice ⟨Nat.zero_le _, ?_⟩).bind fun _ _ => quiet_performCpiSwap
  rw [List.length_take, List.length_drop]
  omega

/-- **One leg.** The index stays within the accounts, whatever the counts add up to. -/
theorem quiet_legStep {reserved : Vector UInt64 MAX_MINTS} {st : RouteState} {swap : SwapSpecInputV2}
    (hindex : st.remainingAccountIndex ≤ ctx.remainingAccounts.length)
    (hfrom : swap.fromIdx.toNat < MAX_MINTS) :
    Quiet (legStep R ctx reserved st swap) := by
  have hremaining := ctx.remaining_le
  have hincrement := swap.nAccounts.toNat_lt
  unfold legStep
  refine (Raises.require (by decide)).bind fun _ hpos => ?_
  refine (Raises.checkedAdd (by omega)).bind fun stop hsum => ?_
  obtain ⟨-, rfl⟩ := Res.checkedAdd_eq_ok.mp hsum
  refine (Raises.require (by decide)).bind fun _ hstop => ?_
  refine (quiet_legInputAmount hfrom).bind fun n _ => ?_
  exact (quiet_legCpi (Res.require_eq_ok.mp hpos) (Res.require_eq_ok.mp hstop)).bind fun _ _ => Raises.ok

theorem quiet_runLegs (hp : PreparedSpec R ctx mints swaps bank p) {bank₀ : Bank} :
    Quiet (runLegs R ctx p swaps bank₀) := by
  have hmints := hp.mints_le
  refine Raises.foldlM (I := fun _ (st : RouteState) => st.remainingAccountIndex ≤
    ctx.remainingAccounts.length) hp.remaining fun pre swap post st hl hindex => ⟨quiet_legStep hindex
    ?_, fun st' h => (legStep_cases h).2.1⟩
  have hfrom := (hp.legs swap (by rw [hl]; simp)).1
  omega

theorem quiet_payout (hp : PreparedSpec R ctx mints swaps bank p) {b : Bank} :
    Quiet (payout R ctx p b) := by
  have houtput := Nat.lt_of_lt_of_le hp.output hp.mints_le
  have hopen : ∀ tokenProgram, Quiet (openOutput R ctx p tokenProgram b) := by
    intro tokenProgram
    unfold openOutput createUserAta
    exact Raises.ite (fun _ => Raises.ok) fun _ => quiet_invoked
  unfold payout
  refine quiet_remainingAccount.bind fun titanPdaOutputTokenAccount _ => ?_
  refine quiet_extractTokenAmount.bind fun rawOutputBalance _ => ?_
  refine (Raises.orPanic (reserved_getElem? houtput)).bind fun reservedBalance _ => ?_
  exact (hopen _).bind fun _ _ => quiet_transferTokens

theorem quiet_closeCreatedAtas (hp : PreparedSpec R ctx mints swaps bank p) {b : Bank} :
    Quiet (closeCreatedAtas R ctx p b) := by
  have hmints := hp.mints_le
  refine Raises.foldlM (I := fun _ _ => True) trivial fun pre i post b hl _ => ⟨?_, fun _ _ => trivial⟩
  have hi : i < p.mintsCount := by
    have hmem : i ∈ List.range p.mintsCount := by
      rw [hl]
      simp
    exact List.mem_range.mp hmem
  unfold MAX_MINTS at hmints
  unfold closeStep closeTitanPdaAta
  refine (quiet_shl16 (by omega)).bind fun _ _ => Raises.ite (fun _ => Raises.ok) fun _ => ?_
  refine quiet_remainingAccount.bind fun ata _ => Raises.ite (fun _ => Raises.ok) fun _ => ?_
  exact quiet_remainingAccount.bind fun _ _ => quiet_invoked

/-- Only the final check can report `ReservedBalanceViolation`. -/
theorem quiet_trade (hp : PreparedSpec R ctx mints swaps bank p) : Quiet (trade R ctx p swaps) := by
  unfold trade
  refine quiet_deposit.bind fun bank₀ _ => ?_
  refine (quiet_runLegs hp).bind fun st _ => ?_
  exact (quiet_payout hp).bind fun _ _ => quiet_closeCreatedAtas hp

/-! ## The route -/

/-- **A malformed route is refused, never a panic.** Whatever the arguments, the accounts and the invoked
    programs, the route ends in `Ok` or in an error; the product of a weighted share fits a `u128`, its
    quotient a `u64`, and the deficit of an input account is what it lacks. -/
theorem route_refused_or_done (R : Runtime) (ctx : Ctx) (amount : UInt64) (mints : UInt8)
    (swaps : List SwapSpecInputV2) (bank : Bank) :
    ((∃ bank', execute R ctx amount mints swaps bank = .ok bank') ∨
      ∃ e, execute R ctx amount mints swaps bank = .error (.err e)) ∧
    (∀ (available : UInt64) (weightNanos : UInt32),
      available.toNat * min weightNanos.toNat 1000000000 < 2 ^ 128 ∧
      available.toNat * min weightNanos.toNat 1000000000 / 1000000000 < 2 ^ 64 ∧
      (weightedAmount available weightNanos).toNat =
        available.toNat * min weightNanos.toNat 1000000000 / 1000000000) ∧
    ∀ current n : UInt64, current < n → (UInt64.ofNat (n.toNat - current.toNat)).toNat = n.toNat -
      current.toNat := by
  refine ⟨?_, fun available weightNanos => ⟨?_, ?_, weightedAmount_toNat available weightNanos⟩,
    fun current n _ => ?_⟩
  · have horderly : Orderly (execute R ctx amount mints swaps bank) := by
      unfold execute
      refine (quiet_prepare.mono fun _ _ => trivial).bind fun p hprepare => ?_
      have hp := prepare_spec hprepare
      refine ((quiet_trade hp).mono fun _ _ => trivial).bind fun bank' _ => Raises.bind ?_ fun _ _ =>
        Raises.ok
      intro fault h
      exact ⟨_, ((finalCheck_yields hp.snapshot).of_error h).1, trivial⟩
    cases hrun : execute R ctx amount mints swaps bank with
    | ok bank' => exact Or.inl ⟨bank', rfl⟩
    | error fault =>
        obtain ⟨e, rfl, -⟩ := horderly fault hrun
        exact Or.inr ⟨e, rfl⟩
  · have hprod : available.toNat * min weightNanos.toNat 1000000000 ≤ 2 ^ 64 * 1000000000 :=
      Nat.mul_le_mul (Nat.le_of_lt available.toNat_lt) (Nat.min_le_right _ _)
    omega
  · rw [← weightedAmount_toNat]
    exact UInt64.toNat_lt _
  · exact UInt64.toNat_ofNat_of_lt' (Nat.lt_of_le_of_lt (Nat.sub_le _ _) n.toNat_lt)

end ByrealTitan.Program
