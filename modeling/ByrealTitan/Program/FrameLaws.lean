import ByrealTitan.Program.TokenLaws

/-!
# `Program.FrameLaws` — what a call leaves alone

`TokenLaws` says what the token programs do to the accounts they are asked to change. Where a route is
followed balance by balance, one also needs that opening, funding or recounting one account changes no
other one.
-/

namespace ByrealTitan.Program

/-- The balances a call does not touch. -/
structure FrameLaws (R : Runtime) : Prop where
  /-- A new account is empty, and one that existed is left as it was. -/
  createAta : ∀ {payer owner mint ata tokenProgram systemProgram b b'},
    R.createAssociatedTokenAccountIdempotent payer owner mint ata tokenProgram systemProgram b = .ok b' →
      balances b' ata.key = (if accountExists (b ata.key) then balances b ata.key else 0) ∧
      ∀ k, k ≠ ata.key → balances b' k = balances b k
  syncNative : ∀ {program account infos seeds b b'},
    R.invokeToken program (.syncNative account) infos seeds b = .ok b' →
      ∀ k, k ≠ account → balances b' k = balances b k
  systemTransfer : ∀ {source dest amount b b'},
    R.systemTransfer source dest amount b = .ok b' → ∀ k, balances b' k = balances b k

variable {R : Runtime} {ctx : Ctx} {p : Prepared} {bank bank' : Bank} {k : Pubkey} (frames : FrameLaws R)

include frames

theorem transferSolAndSync_frame {source wsolAta tokenProgram : AccountInfo} {amount : UInt64}
    (h : transferSolAndSync R source wsolAta tokenProgram amount bank = .ok bank') (hk : k ≠ wsolAta.key) :
    balances bank' k = balances bank k := by
  rcases transferSolAndSync_cases h with ⟨-, rfl⟩ | ⟨b₁, hpay, hsync⟩
  · rfl
  · rw [frames.syncNative hsync k hk, frames.systemTransfer hpay k]

/-- Setting up the input account changes no other balance. -/
theorem setupInput_frame {tokenProgram : AccountInfo} {created : Bool}
    (h : setupInput R ctx p tokenProgram = .ok (created, bank')) (hk : k ≠ ctx.inputTokenAccount.key) :
    balances bank' k = balances p.bank k := by
  rcases setupInput_cases h with ⟨-, -, rfl⟩ | ⟨-, hwrapped⟩
  · rfl
  · rcases setupWsolInputAccount_cases hwrapped with ⟨-, -, current, -, hfund⟩ | ⟨-, -, b₁, hcreate, hfund⟩
    · exact transferSolAndSync_frame frames hfund hk
    · rw [transferSolAndSync_frame frames hfund hk, (frames.createAta (invoked_eq_ok.mp hcreate)).2 k hk]

/-- Opening the user's output account leaves it with what it held, or with nothing if it is new. -/
theorem openOutput_frame {tokenProgram : AccountInfo}
    (h : openOutput R ctx p tokenProgram bank = .ok bank') :
    balances bank' ctx.outputTokenAccount.key =
        (if accountExists (bank ctx.outputTokenAccount.key) then balances bank
          ctx.outputTokenAccount.key else 0) ∧
      ∀ k, k ≠ ctx.outputTokenAccount.key → balances bank' k = balances bank k := by
  unfold openOutput at h
  split at h
  next hexists =>
    obtain rfl := Except.ok.inj h
    exact ⟨by rw [if_pos hexists], fun _ _ => rfl⟩
  next => exact frames.createAta (invoked_eq_ok.mp h)

end ByrealTitan.Program
