import ByrealTitan.Correctness.Prepared

/-!
# `Correctness.FinalCheck` — every recognised account against its own recorded amount

The snapshot is written by a loop with two branches and read by another one with a running index. At
every turn the index is the number of recognised positions passed (`finalCheck_index`), so it points at
the amount recorded for the position at hand, and the check fails exactly on an account that ended below
it.
-/

namespace ByrealTitan.Program

variable {R : Runtime} {ctx : Ctx} {m : Nat} {bank bank' : Bank} {snap : Snapshot}
  {pre post : List (AccountInfo × Nat)}

/-- One turn moves the running index on a recognised position only. -/
theorem finalCheckStep_index {entry : AccountInfo × Nat} {idx idx' : Nat}
    (h : finalCheckStep snap bank' idx entry = .ok idx') :
    idx' = idx + if snap.bitmap.isSet entry.2 then 1 else 0 := by
  unfold finalCheckStep at h
  simp only at h
  split at h
  next hset =>
    simp only [Except.bind_eq_ok, Res.orPanic_eq_ok, Res.require_eq_ok, Res.checkedAdd_eq_ok] at h
    obtain ⟨recorded, -, -, -, -, hidx⟩ := h
    rw [if_pos hset]
    exact hidx.symm
  next hset =>
    rw [if_neg hset]
    exact (Except.pure_eq_ok.mp h).symm

/-- **The running index counts the recognised positions passed.** -/
theorem finalCheck_index (hspec : SnapshotSpec R ctx m bank ctx.remainingAccounts.zipIdx snap)
    (hsplit : ctx.remainingAccounts.zipIdx = pre ++ post) {idx : Nat}
    (h : pre.foldlM (finalCheckStep snap bank') 0 = .ok idx) :
    idx = (pre.filter fun e => recorded R ctx bank e.1).length := by
  have hrun : Yields (pre.foldlM (finalCheckStep snap bank') 0)
      (fun idx => idx = (pre.filter fun e => recorded R ctx bank e.1).length) (fun _ => True) := by
    refine Yields.foldlM (I := fun (passed : List (AccountInfo × Nat)) idx =>
      idx = (passed.filter fun e => recorded R ctx bank e.1).length) rfl ?_
    rintro passed ⟨a, i⟩ rest idx hpre - rfl
    refine Yields.intro (fun idx' hstep => ?_) (fun _ _ => trivial)
    have hmem : (a, i) ∈ ctx.remainingAccounts.zipIdx := by
      rw [hsplit, hpre]
      simp
    rw [finalCheckStep_index hstep, hspec.isSet_eq hmem, List.filter_append, List.length_append]
    congr 1
    cases hrec : recorded R ctx bank a with
    | true => simp [hrec]
    | false => simp [hrec]
  exact hrun.of_ok h

/-- **The final check pairs every account with its own snapshot.** Whatever the accounts hold in the end,
    it returns `ReservedBalanceViolation` exactly where some recognised position ended below the amount
    recorded for it, and fails in no other way; at every turn it has come to, the position is compared
    exactly where it was recognised, and the running index points at the amount recorded for it. -/
theorem final_check_pairs (hsnap : takeSnapshot R ctx m bank = .ok snap) (bank' : Bank) :
    (finalCheck ctx snap bank' = .error (.err (.route .reservedBalanceViolation)) ↔
      ∃ (i : Nat) (a : AccountInfo), ctx.remainingAccounts[i]? = some a ∧ recorded R ctx bank a = true ∧
        tokenAmountOrZero (bank' a.key) < tokenAmountOrZero (bank a.key)) ∧
    (∀ fault, finalCheck ctx snap bank' = .error fault →
      fault = .err (.route .reservedBalanceViolation)) ∧
    ∀ pre a i post idx, ctx.remainingAccounts.zipIdx = pre ++ (a, i) :: post →
      pre.foldlM (finalCheckStep snap bank') 0 = .ok idx →
        ctx.remainingAccounts[i]? = some a ∧ snap.bitmap.isSet i = recorded R ctx bank a ∧
        (recorded R ctx bank a = true → snap.balances[idx]? = some (tokenAmountOrZero (bank a.key))) := by
  have hspec := takeSnapshot_spec hsnap
  have hends : Yields (finalCheck ctx snap bank') _ _ := finalCheck_yields hspec
  refine ⟨?_, fun fault h => (hends.of_error h).1, ?_⟩
  · constructor
    · intro h
      obtain ⟨-, a, ha, hrec, hbelow⟩ := hends.of_error h
      obtain ⟨i, hi⟩ := List.mem_iff_getElem?.mp ha
      exact ⟨i, a, hi, hrec, UInt64.lt_iff_toNat_lt.mpr hbelow⟩
    · rintro ⟨i, a, hi, hrec, hbelow⟩
      cases hrun : finalCheck ctx snap bank' with
      | error fault => rw [(hends.of_error hrun).1]
      | ok idx =>
          have hkept := hends.of_ok hrun a (List.mem_of_getElem? hi) hrec
          exact absurd (UInt64.lt_iff_toNat_lt.mp hbelow) (Nat.not_lt.mpr hkept)
  · intro pre a i post idx hsplit hidx
    have hmem : (a, i) ∈ ctx.remainingAccounts.zipIdx := by
      rw [hsplit]
      simp
    refine ⟨List.mk_mem_zipIdx_iff_getElem?.mp hmem, hspec.isSet_eq hmem, fun hrec => ?_⟩
    rw [finalCheck_index hspec hsplit hidx]
    exact hspec.balance_at hsplit hrec

open Reference in
/-- In the sample market, an account that the TitanPDA keeps apart and
    that lost a token fails the check. -/
theorem final_check_pairs_sample :
    ∃ snap, takeSnapshot (runtime Sample.titanPda Sample.exchange) (Sample.ctx Sample.userA)
      2 Sample.bank = .ok snap ∧
      finalCheck (Sample.ctx Sample.userA) snap
          (Function.update Sample.bank Sample.keptA
            (Sample.tokenAccount Sample.mintA Sample.titanPda 4999 none)) =
        .error (.err (.route .reservedBalanceViolation)) := by
  obtain ⟨snap, hsnap⟩ :=
    Except.exists_of_failure? (show (takeSnapshot (runtime Sample.titanPda Sample.exchange)
      (Sample.ctx Sample.userA) 2 Sample.bank).failure? = none by decide +kernel)
  exact ⟨snap, hsnap, (final_check_pairs hsnap _).1.mpr
    ⟨10, Sample.writable Sample.keptA, rfl, by decide +kernel, by decide +kernel⟩⟩

end ByrealTitan.Program
