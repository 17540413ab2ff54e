import ByrealTitan.Correctness.Prepared

/-!
# `Correctness.Effects` — what a route does is what its calls do

The program writes to no account itself: everything between the bank before a route and the bank after
it is done by a program it called. So a relation between banks that every call establishes is
established by the route, whatever the route is (`execute_keeps`). Which calls there are is read off
`Program.Stages` once, here.
-/

namespace ByrealTitan.Program

variable {R : Runtime} {ctx : Ctx} {amount : UInt64} {mints : UInt8} {swaps : List SwapSpecInputV2}
  {bank bank' : Bank} {p : Prepared} {Rel : Bank → Bank → Prop}

/-- A relation that no call of a route breaks. Of the CPIs to venue programs only those are asked for that
    carry the data of a leg. -/
structure CallsKeep (R : Runtime) (Rel : Bank → Bank → Prop) : Prop where
  refl : ∀ b, Rel b b
  trans : ∀ {b₁ b₂ b₃}, Rel b₁ b₂ → Rel b₂ b₃ → Rel b₁ b₃
  invokeToken : ∀ {program ix infos seeds b b'}, R.invokeToken program ix infos seeds b = .ok b' → Rel b b'
  createAta : ∀ {payer owner mint ata tokenProgram systemProgram b b'},
    R.createAssociatedTokenAccountIdempotent payer owner mint ata tokenProgram systemProgram
    b = .ok b' → Rel b b'
  systemTransfer : ∀ {source dest n b b'}, R.systemTransfer source dest n b = .ok b' → Rel b b'
  invokeSigned : ∀ {ix infos seeds b b'}, SWAP_V3_DYN_DISCRIMINATOR <+: ix.data →
    R.invokeSigned ix infos seeds b = .ok b' → Rel b b'

namespace CallsKeep

variable (keeps : CallsKeep R Rel)

include keeps

/-- **Loops.** What every turn keeps, the loop keeps. -/
theorem foldlM {α σ : Type} (bankOf : σ → Bank) {f : σ → α → Exec σ} {l : List α} {s s' : σ}
    (hstep : ∀ t a t', f t a = .ok t' → Rel (bankOf t) (bankOf t')) (h : l.foldlM f s = .ok s') :
    Rel (bankOf s) (bankOf s') := by
  induction l generalizing s with
  | nil =>
      obtain rfl := Except.pure_eq_ok.mp h
      exact keeps.refl _
  | cons a l ih =>
      rw [List.foldlM_cons, Except.bind_eq_ok] at h
      obtain ⟨t, ha, hrest⟩ := h
      exact keeps.trans (hstep s a t ha) (ih hrest)

theorem transferTokens {tokenProgram source dest authority : AccountInfo} {mint : Option AccountInfo}
    {decimals : UInt8} {seeds : SignerSeeds}
    (h : transferTokens R tokenProgram source dest authority mint amount decimals seeds bank = .ok bank') :
    Rel bank bank' := by
  rcases transferTokens_cases h with ⟨-, rfl⟩ | ⟨m, -, hmove⟩ | hmove
  · exact keeps.refl bank'
  · exact keeps.invokeToken hmove
  · exact keeps.invokeToken hmove

theorem transferSolAndSync {source wsolAta tokenProgram : AccountInfo}
    (h : transferSolAndSync R source wsolAta tokenProgram amount bank = .ok bank') : Rel bank bank' := by
  rcases transferSolAndSync_cases h with ⟨-, rfl⟩ | ⟨b₁, hpay, hsync⟩
  · exact keeps.refl bank'
  · exact keeps.trans (keeps.systemTransfer hpay) (keeps.invokeToken hsync)

theorem createAtas {m : Nat} {st : BitVec 16 × Bank} (h : createAtas R ctx m bank = .ok st) :
    Rel bank st.2 := by
  refine keeps.foldlM Prod.snd ?_ h
  intro t i t' hstep
  obtain ⟨ata, -, ⟨-, rfl⟩ | ⟨-, -, -, mint, hcreate⟩⟩ := createAtaStep_cases hstep
  · exact keeps.refl _
  · exact keeps.createAta hcreate

theorem setupInput {tokenProgram : AccountInfo} {created : Bool}
    (h : setupInput R ctx p tokenProgram = .ok (created, bank')) : Rel p.bank bank' := by
  rcases setupInput_cases h with ⟨-, -, rfl⟩ | ⟨-, hwrapped⟩
  · exact keeps.refl p.bank
  · rcases setupWsolInputAccount_cases hwrapped with ⟨-, -, _, -, hfund⟩ | ⟨-, -, b₁, hcreate, hfund⟩
    · exact keeps.transferSolAndSync hfund
    · exact keeps.trans (keeps.createAta (invoked_eq_ok.mp hcreate)) (keeps.transferSolAndSync hfund)

theorem deposit (h : deposit R ctx p = .ok bank') : Rel p.bank bank' := by
  obtain ⟨first, created, b₁, b₂, -, hsetup, htransfer, hclose⟩ := deposit_cases h
  have hpaid : Rel p.bank b₂ := keeps.trans (keeps.setupInput hsetup) (keeps.transferTokens htransfer)
  rcases hclose with ⟨-, rfl⟩ | ⟨-, hclose⟩
  · exact hpaid
  · exact keeps.trans hpaid (keeps.invokeToken hclose)

/-- The CPI of a leg carries the discriminator of `swap_v3_dyn`. -/
theorem legCpi {n : UInt64} {swap : SwapSpecInputV2} {start increment : Nat}
    (h : legCpi R ctx n swap start increment bank = .ok bank') : Rel bank bank' := by
  rcases legCpi_spec h with ⟨-, rfl⟩ | ⟨_, -, ix, hix, hinvoke⟩
  · exact keeps.refl bank'
  · have hdata : SWAP_V3_DYN_DISCRIMINATOR <+: ix.data := by
      obtain rfl := List.mem_singleton.mp hix
      simp only [List.append_assoc]
      exact List.prefix_append _ _
    exact keeps.invokeSigned hdata hinvoke

theorem runLegs {st : RouteState} (h : runLegs R ctx p swaps bank = .ok st) : Rel bank st.bank := by
  refine keeps.foldlM RouteState.bank ?_ h
  intro t swap t' hstep
  obtain ⟨-, -, n, -, hcpi⟩ := legStep_cases hstep
  exact keeps.legCpi hcpi

theorem payout (h : payout R ctx p bank = .ok bank') : Rel bank bank' := by
  obtain ⟨out, raw, r, b₁, -, -, -, hopen, htransfer⟩ := payout_cases h
  have hopened : Rel bank b₁ := by
    rcases openOutput_cases hopen with rfl | hcreate
    · exact keeps.refl _
    · exact keeps.createAta (invoked_eq_ok.mp hcreate)
  exact keeps.trans hopened (keeps.transferTokens htransfer)

theorem closeCreatedAtas (h : closeCreatedAtas R ctx p bank = .ok bank') : Rel bank bank' := by
  refine keeps.foldlM id ?_ h
  intro t i t' hstep
  obtain ⟨-, ⟨-, rfl⟩ | ⟨-, ata, -, ⟨-, rfl⟩ | ⟨-, program, hclose⟩⟩⟩ := closeStep_cases hstep
  · exact keeps.refl _
  · exact keeps.refl _
  · exact keeps.invokeToken hclose

/-- **A route keeps what its calls keep.** -/
theorem execute (h : execute R ctx amount mints swaps bank = .ok bank') : Rel bank bank' := by
  obtain ⟨p, idx, hprep, htrade, -⟩ := execute_cases h
  obtain ⟨b₀, st, b₁, hdeposit, hlegs, hpayout, hclose⟩ := trade_cases htrade
  have hcreated : Rel bank p.bank := keeps.createAtas (prepare_ok hprep).created
  have hdeposited : Rel bank b₀ := keeps.trans hcreated (keeps.deposit hdeposit)
  have htraded : Rel bank st.bank := keeps.trans hdeposited (keeps.runLegs hlegs)
  exact keeps.trans htraded (keeps.trans (keeps.payout hpayout) (keeps.closeCreatedAtas hclose))

end CallsKeep

end ByrealTitan.Program
