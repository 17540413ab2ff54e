import ByrealTitan.Correctness.Prepared
import ByrealTitan.Program.Reference

/-!
# `Correctness.Custody` — when a route keeps the TitanPDA's custody

The program hands the TitanPDA's signature to the venue program that each leg names, and afterwards
compares amounts only. Custody is more than the amount: the account must still belong to the TitanPDA and
carry no new delegate. `custody_kept` gives the condition under which a successful route preserves it: no
token instruction that a venue makes takes the custody of a recorded account (`TakesCustody`). The route's
own calls never do, and the accounts its closing pass closes are those it created and found empty.
-/

namespace ByrealTitan.Program

variable {R : Runtime} {ctx : Ctx} {amount : UInt64} {mints : UInt8} {swaps : List SwapSpecInputV2}
  {bank bank' : Bank} {p : Prepared} {k : Pubkey}

/-! ## Custody of one account -/

/-- A token account that was initialised: it has a state, and names its type where it is longer than the
    base layout (355 bytes are a multisig's). -/
structure Initialised (a : Account) : Prop where
  length : 165 ≤ a.data.length
  state : bytesAt a.data 108 109 = some [1] ∨ bytesAt a.data 108 109 = some [2]
  type : a.data.length = 165 ∨ (a.data.length ≠ 355 ∧ bytesAt a.data 165 166 = some [2])

/-- An initialised token account of either SPL token program. -/
structure TokenAccount (R : Runtime) (a : Account) : Prop where
  program : a.owner = R.SPL_TOKEN_ID ∨ a.owner = R.TOKEN_PROGRAM_2022_ID
  initialised : Initialised a

theorem TokenAccount.data_ne_nil {a : Account} (h : TokenAccount R a) : a.data ≠ [] := by
  intro hnil
  have hlen := h.initialised.length
  rw [hnil] at hlen
  exact absurd hlen (by simp)

/-- A token account exists. -/
theorem TokenAccount.exists_of_pos {a : Account} (h : TokenAccount R a) (hpos : 0 < a.lamports) :
    accountExists a = true := by
  simp [accountExists, hpos, List.length_pos_iff.mpr h.data_ne_nil]

/-- The same holder: program, mint and authority are unchanged, and no delegate was added. -/
structure HeldAlike (a a' : Account) : Prop where
  owner : a'.owner = a.owner
  initialised : Initialised a → Initialised a'
  mint : bytesAt a'.data 0 32 = bytesAt a.data 0 32
  authority : bytesAt a'.data 32 64 = bytesAt a.data 32 64
  delegate : tokenDelegate a' = tokenDelegate a ∨ tokenDelegate a' = none

namespace HeldAlike

theorem refl {a : Account} : HeldAlike a a := ⟨rfl, id, rfl, rfl, Or.inl rfl⟩

theorem trans {a b c : Account} (h : HeldAlike a b) (h' : HeldAlike b c) : HeldAlike a c := by
  refine ⟨h'.owner.trans h.owner, fun ha => h'.initialised (h.initialised ha), h'.mint.trans h.mint,
    h'.authority.trans h.authority, ?_⟩
  rcases h'.delegate with h' | h'
  · rw [h']
    exact h.delegate
  · exact Or.inr h'

/-- The delegate is read from two ranges of the data. -/
theorem tokenDelegate_congr {a a' : Account} (htag : bytesAt a'.data 72 76 = bytesAt a.data 72 76)
    (hkey : bytesAt a'.data 76 108 = bytesAt a.data 76 108) : tokenDelegate a' = tokenDelegate a := by
  simp only [tokenDelegate, htag, hkey]

/-- Accounts with the same data and owner are held alike. -/
theorem of_eq {a a' : Account} (hdata : a'.data = a.data) (howner : a'.owner = a.owner) :
    HeldAlike a a' := by
  refine ⟨howner, fun ha => ?_, by rw [hdata], by rw [hdata],
    Or.inl (tokenDelegate_congr (by rw [hdata]) (by rw [hdata]))⟩
  obtain ⟨hlength, hstate, htype⟩ := ha
  rw [← hdata] at hlength hstate htype
  exact ⟨hlength, hstate, htype⟩

theorem tokenAccount {a a' : Account} (h : HeldAlike a a') (ha : TokenAccount R a) :
    TokenAccount R a' :=
  ⟨by rw [h.owner]; exact ha.program, h.initialised ha.initialised⟩

end HeldAlike

/-- Being recognised as the TitanPDA's account depends only on program, size and authority. -/
theorem isTitanPdaTokenAccount_iff {a : Account} {authority : Pubkey} :
    isTitanPdaTokenAccount R a authority = true ↔
      ((a.owner = R.SPL_TOKEN_ID ∨ a.owner = R.TOKEN_PROGRAM_2022_ID) ∧ 165 ≤ a.data.length) ∧
        bytesAt a.data 32 64 = some authority.bytes := by
  unfold isTitanPdaTokenAccount extractTokenOwner
  split
  next h =>
    constructor
    · exact fun hf => absurd hf (by simp)
    · rintro ⟨⟨h1 | h1, -⟩, -⟩
      · exact absurd h1 h.1
      · exact absurd h1 h.2
  next h =>
    have howner : a.owner = R.SPL_TOKEN_ID ∨ a.owner = R.TOKEN_PROGRAM_2022_ID := by
      by_contra hne
      exact h (not_or.mp hne)
    split
    next hlen =>
      constructor
      · exact fun hf => absurd hf (by simp)
      · rintro ⟨⟨-, h165⟩, -⟩
        omega
    next hlen =>
      have h165 : 165 ≤ a.data.length := Nat.le_of_not_lt hlen
      cases hbytes : bytesAt a.data 32 64 with
      | none => simp [Res.orErr, Res.fail]
      | some bs =>
          have h32 : bs.length = 32 := by
            rw [bytesAt, if_pos (by omega)] at hbytes
            rw [← Option.some.inj hbytes, List.length_take, List.length_drop]
            omega
          simp only [Res.orErr, Except.ok_bind, Pubkey.ofSlice, h32, dite_true, decide_eq_true_eq,
            howner, h165, and_self, true_and, Option.some.injEq]
          constructor
          · rintro rfl
            rfl
          · rintro rfl
            rfl

theorem HeldAlike.recognised {a a' : Account} {authority : Pubkey} (h : HeldAlike a a')
    (ha : TokenAccount R a) (hrec : isTitanPdaTokenAccount R a authority = true) :
    isTitanPdaTokenAccount R a' authority = true := by
  obtain ⟨-, hbytes⟩ := isTitanPdaTokenAccount_iff.mp hrec
  have ha' := h.tokenAccount ha
  exact isTitanPdaTokenAccount_iff.mpr
    ⟨⟨ha'.program, ha'.initialised.length⟩, h.authority.trans hbytes⟩

/-! ## What the programs promise about custody -/

/-- The token instruction reassigns this account, delegates it or closes it. -/
def TakesCustody : TokenInstruction → Pubkey → Prop
  | .approve account _ _ _, k                    => account = k
  | .setAuthority account _ .accountOwner _, k   => account = k
  | .closeAccount account _ _, k                 => account = k
  | _, _                                         => False

/-- Every account that keeps data is funded, as the runtime demands between transactions. -/
def Funded (bank : Bank) : Prop := ∀ k, (bank k).data ≠ [] → 0 < (bank k).lamports

theorem Funded.update {b : Bank} {k : Pubkey} {a : Account} (hb : Funded b)
    (ha : a.data ≠ [] → 0 < a.lamports) :
    Funded (Function.update b k a) := by
  intro x hdata
  by_cases hx : x = k
  · rw [hx, Function.update_self] at hdata ⊢
    exact ha hdata
  · rw [Function.update_of_ne hx] at hdata ⊢
    exact hb x hdata

/-- The accounts that closing, creating and funding an account leave as they are. -/
structure AccountLaws (R : Runtime) : Prop where
  closed : ∀ {program account destination authority infos seeds b b'},
    R.invokeToken program (.closeAccount account destination authority) infos seeds b = .ok b' →
      (b' account).data = [] ∧ ∀ k, k ≠ account → (b' k).data = (b k).data ∧ (b' k).owner = (b k).owner
  createAta : ∀ {payer owner mint ata tokenProgram systemProgram b b'},
    R.createAssociatedTokenAccountIdempotent payer owner mint ata tokenProgram systemProgram b
        = .ok b' →
      (Funded b → Funded b') ∧
      ∀ k, (b k).data ≠ [] → (b' k).data = (b k).data ∧ (b' k).owner = (b k).owner
  systemTransfer : ∀ {source dest amount b b'}, R.systemTransfer source dest amount b = .ok b' →
    ∀ k, (b' k).data = (b k).data ∧ (b' k).owner = (b k).owner

/-- The documented effect of the programs on accounts they are not asked to take: an initialised token
    account keeps its program, its mint and its authority, and gets no delegate. -/
structure CustodyLaws (R : Runtime) : Prop extends AccountLaws R where
  token : ∀ {program ix infos seeds b b'}, R.invokeToken program ix infos seeds b = .ok b' →
    ∀ k, TokenAccount R (b k) → ¬ TakesCustody ix k → HeldAlike (b k) (b' k)

/-- A relation between a token account before and after, which no token instruction breaks but those that
    `Takes` names, and of the route's own ones at most a closing. -/
structure Guards (R : Runtime) (Alike : Account → Account → Prop)
    (Takes : TokenInstruction → Pubkey → Prop) : Prop where
  of_eq : ∀ {a a'}, a'.data = a.data → a'.owner = a.owner → Alike a a'
  trans : ∀ {a b c}, Alike a b → Alike b c → Alike a c
  tokenAccount : ∀ {a a'}, Alike a a' → TokenAccount R a → TokenAccount R a'
  token : ∀ {program ix infos seeds b b'}, R.invokeToken program ix infos seeds b = .ok b' →
    ∀ k, TokenAccount R (b k) → ¬ Takes ix k → Alike (b k) (b' k)
  transfer : ∀ {source dest authority amount k}, ¬ Takes (.transfer source dest authority amount) k
  transferChecked : ∀ {source mint dest authority amount decimals k},
    ¬ Takes (.transferChecked source mint dest authority amount decimals) k
  syncNative : ∀ {account k}, ¬ Takes (.syncNative account) k

theorem CustodyLaws.guards (laws : CustodyLaws R) : Guards R HeldAlike TakesCustody where
  of_eq := HeldAlike.of_eq
  trans := HeldAlike.trans
  tokenAccount := HeldAlike.tokenAccount
  token := laws.token
  transfer := id
  transferChecked := id
  syncNative := id

/-- What a CPI does to the bank: a sequence of token instructions (what a transfer hook calls in between
    is one of them), among changes of the venue's own that leave the data of token accounts alone. -/
inductive VenueRun (R : Runtime) : List TokenInstruction → Bank → Bank → Prop where
  | done (b : Bank) : VenueRun R [] b b
  | token {program ix infos seeds b b₁ b₂ ixs} :
      R.invokeToken program ix infos seeds b = .ok b₁ → VenueRun R ixs b₁ b₂ →
        VenueRun R (ix :: ixs) b b₂
  | own {b b₁ b₂ ixs} :
      (∀ k, TokenAccount R (b k) → (b₁ k).data = (b k).data ∧ (b₁ k).owner = (b k).owner) →
        VenueRun R ixs b₁ b₂ → VenueRun R ixs b b₂

section Guards

variable {Alike : Account → Account → Prop} {Takes : TokenInstruction → Pubkey → Prop}

/-- A run without an instruction that takes `k` keeps the relation at `k`. -/
theorem VenueRun.alike (guards : Guards R Alike Takes) {ixs : List TokenInstruction}
    (hrun : VenueRun R ixs bank bank') (hk : ∀ ix ∈ ixs, ¬ Takes ix k)
    (htoken : TokenAccount R (bank k)) : Alike (bank k) (bank' k) := by
  induction hrun with
  | done b => exact guards.of_eq rfl rfl
  | token hix _ ih =>
      have hstep := guards.token hix k htoken (hk _ (by simp))
      exact guards.trans hstep (ih (fun ix hmem => hk ix (by simp [hmem]))
        (guards.tokenAccount hstep htoken))
  | own hown _ ih =>
      have hstep : Alike _ _ := guards.of_eq (hown k htoken).1 (hown k htoken).2
      exact guards.trans hstep (ih hk (guards.tokenAccount hstep htoken))

/-- The token accounts among the recorded ones. -/
def recordedVaults (R : Runtime) (ctx : Ctx) (bank : Bank) : Set Pubkey :=
  { k | k ∈ recordedKeys R ctx bank ∧ TokenAccount R (bank k) }

/-- The effect of every CPI of the run is that of token instructions none of which takes a recorded token
    account. -/
def VenuesSpare (Takes : TokenInstruction → Pubkey → Prop) (R : Runtime) (ctx : Ctx) (p : Prepared)
    (swaps : List SwapSpecInputV2) : Prop :=
  ∀ pre swap post bank₀ st n bank', swaps = pre ++ swap :: post →
    deposit R ctx p = .ok bank₀ → runLegs R ctx p pre bank₀ = .ok st →
    legInputAmount ctx p.snapshot.reserved st.bank swap = .ok n →
    legCpi R ctx n swap st.remainingAccountIndex swap.nAccounts.toNat st.bank = .ok bank' →
      ∃ ixs, VenueRun R ixs st.bank bank' ∧ ∀ ix ∈ ixs, ∀ k ∈ recordedVaults R ctx p.bank, ¬ Takes ix k

/-- **The condition**: no venue takes the custody of a recorded token account. -/
abbrev VenuesKeepCustody (R : Runtime) (ctx : Ctx) (p : Prepared) (swaps : List SwapSpecInputV2) : Prop :=
  VenuesSpare TakesCustody R ctx p swaps

/-! ## The run -/

/-- Every recorded token account is as it was recorded. -/
def Held (Alike : Account → Account → Prop) (R : Runtime) (ctx : Ctx) (p : Prepared)
    (bank : Bank) : Prop :=
  ∀ k ∈ recordedVaults R ctx p.bank, Alike (p.bank k) (bank k)

/-- The creation mask names only accounts that did not exist, and creation leaves every account that held
    data as it was. -/
structure CreatedSpec (ctx : Ctx) (bank : Bank) (st : BitVec 16 × Bank) : Prop where
  funded : Funded bank → Funded st.2
  data : ∀ k, (bank k).data ≠ [] → (st.2 k).data = (bank k).data
  mask : Funded bank → ∀ i < 16, st.1.getLsbD i = true →
    ∃ a, ctx.remainingAccounts[i]? = some a ∧ accountExists (bank a.key) = false

section Creation

variable (laws : AccountLaws R)

include laws

/-- One turn of the creation loop: what existed at the start still exists, so what is created did not. -/
theorem CreatedSpec.step {m i : Nat} {st st' : BitVec 16 × Bank} (hs : CreatedSpec ctx bank st)
    (h : createAtaStep R ctx m st i = .ok st') : CreatedSpec ctx bank st' := by
  obtain ⟨ata, hata, ⟨-, rfl⟩ | ⟨hnew, hi, hmask, mint, hcreate⟩⟩ := createAtaStep_cases h
  · exact hs
  · obtain ⟨hfunded, hdata⟩ := laws.createAta hcreate
    refine ⟨fun hf => hfunded (hs.funded hf), fun k hk => ?_, fun hf j hj hbit => ?_⟩
    · rw [(hdata k (by rw [hs.data k hk]; exact hk)).1, hs.data k hk]
    · rw [hmask, getLsbD_or_bit hi] at hbit
      rcases hbit with hbit | rfl
      · exact hs.mask hf j hj hbit
      · refine ⟨ata, hata, Bool.eq_false_iff.mpr fun hstart => ?_⟩
        have hne : (bank ata.key).data ≠ [] := by
          intro hnil
          simp [accountExists, hnil] at hstart
        have hsame : (st.2 ata.key).data = (bank ata.key).data := hs.data ata.key hne
        have hlam : 0 < (st.2 ata.key).lamports := hs.funded hf ata.key (by rw [hsame]; exact hne)
        simp [accountExists, hlam, hsame, List.length_pos_iff.mpr hne] at hnew

theorem createAtas_created {m : Nat} {st : BitVec 16 × Bank}
    (h : createAtas R ctx m bank = .ok st) : CreatedSpec ctx bank st := by
  have hrun : Yields (createAtas R ctx m bank) (CreatedSpec ctx bank) (fun _ => True) := by
    refine Yields.foldlM (I := fun _ => CreatedSpec ctx bank) ⟨id, fun _ _ => rfl, by simp⟩ ?_
    intro _ i _ st _ _ hs
    exact Yields.intro (fun st' hstep => hs.step laws hstep) (fun _ _ => trivial)
  exact hrun.of_ok h

end Creation

section Run

variable (guards : Guards R Alike Takes) (laws : AccountLaws R)

include guards

/-- A step that keeps the relation at recorded token accounts. -/
theorem Held.step {b b' : Bank} (h : Held Alike R ctx p b)
    (hstep : ∀ k ∈ recordedVaults R ctx p.bank, TokenAccount R (b k) → Alike (b k) (b' k)) :
    Held Alike R ctx p b' :=
  fun k hk => guards.trans (h k hk) (hstep k hk (guards.tokenAccount (h k hk) hk.2))

theorem transferTokens_held {tokenProgram source dest authority : AccountInfo}
    {mint : Option AccountInfo} {n : UInt64} {decimals : UInt8} {seeds : SignerSeeds} {b b' : Bank}
    (hheld : Held Alike R ctx p b)
    (h : transferTokens R tokenProgram source dest authority mint n decimals seeds b = .ok b') :
    Held Alike R ctx p b' := by
  rcases transferTokens_cases h with ⟨-, rfl⟩ | ⟨m, -, hchecked⟩ | hplain
  · exact hheld
  · exact hheld.step guards fun k _ ht => guards.token hchecked k ht guards.transferChecked
  · exact hheld.step guards fun k _ ht => guards.token hplain k ht guards.transfer

include laws

theorem transferSolAndSync_held {source wsolAta tokenProgram : AccountInfo} {n : UInt64} {b b' : Bank}
    (hheld : Held Alike R ctx p b)
    (h : transferSolAndSync R source wsolAta tokenProgram n b = .ok b') : Held Alike R ctx p b' := by
  rcases transferSolAndSync_cases h with ⟨-, rfl⟩ | ⟨b₁, hpay, hsync⟩
  · exact hheld
  · have hheld₁ : Held Alike R ctx p b₁ := hheld.step guards fun k _ _ =>
      guards.of_eq (laws.systemTransfer hpay k).1 (laws.systemTransfer hpay k).2
    exact hheld₁.step guards fun k _ ht => guards.token hsync k ht guards.syncNative

theorem createUserAta_held {mint ata tokenProgram : AccountInfo} {b b' : Bank}
    (hheld : Held Alike R ctx p b) (h : createUserAta R ctx mint ata tokenProgram b = .ok b') :
    Held Alike R ctx p b' := by
  have hcreate := (laws.createAta (invoked_eq_ok.mp h)).2
  refine hheld.step guards fun k _ ht => ?_
  obtain ⟨hdata, howner⟩ := hcreate k ht.data_ne_nil
  exact guards.of_eq hdata howner

/-- Setting up the input account takes nothing over, and reports a creation only of an account that did not
    exist. -/
theorem setupInput_held {tokenProgram : AccountInfo} {created : Bool} {b : Bank}
    (h : setupInput R ctx p tokenProgram = .ok (created, b)) :
    Held Alike R ctx p b ∧ (created = true → accountExists (p.bank ctx.inputTokenAccount.key) = false)
      := by
  have hstart : Held Alike R ctx p p.bank := fun k _ => guards.of_eq rfl rfl
  rcases setupInput_cases h with ⟨-, rfl, rfl⟩ | ⟨-, hwrapped⟩
  · exact ⟨hstart, by simp⟩
  · rcases setupWsolInputAccount_cases hwrapped with
      ⟨rfl, -, current, -, hfund⟩ | ⟨rfl, hnew, b₁, hcreate, hfund⟩
    · exact ⟨transferSolAndSync_held guards laws hstart hfund, by simp⟩
    · have hcreated := createUserAta_held guards laws hstart hcreate
      exact ⟨transferSolAndSync_held guards laws hcreated hfund, fun _ => hnew⟩

theorem deposit_held (hfunded : Funded p.bank) (h : deposit R ctx p = .ok bank') :
    Held Alike R ctx p bank' := by
  obtain ⟨first, created, b₁, b₂, -, hsetup, htransfer, hclose⟩ := deposit_cases h
  obtain ⟨hheld₁, hnew⟩ := setupInput_held guards laws hsetup
  have hheld₂ := transferTokens_held guards hheld₁ htransfer
  rcases hclose with ⟨-, rfl⟩ | ⟨hcreated, hclose⟩
  · exact hheld₂
  · -- a recorded account existed, so it is not the one the deposit created and closes
    have hother := (laws.closed hclose).2
    refine hheld₂.step guards fun k hk _ => ?_
    have hne : k ≠ ctx.inputTokenAccount.key := by
      rintro rfl
      have hexists := hk.2.exists_of_pos (hfunded _ hk.2.data_ne_nil)
      rw [hnew hcreated] at hexists
      cases hexists
    exact guards.of_eq (hother k hne).1 (hother k hne).2

omit laws in
theorem runLegs_held (hvenues : VenuesSpare Takes R ctx p swaps) {bank₀ : Bank} {st : RouteState}
    (hdeposit : deposit R ctx p = .ok bank₀) (hheld : Held Alike R ctx p bank₀)
    (h : runLegs R ctx p swaps bank₀ = .ok st) : Held Alike R ctx p st.bank := by
  have hrun : Yields (runLegs R ctx p swaps bank₀) (fun st => Held Alike R ctx p st.bank)
      (fun _ => True) := by
    refine Yields.foldlM (I := fun _ (st : RouteState) => Held Alike R ctx p st.bank) hheld ?_
    intro pre swap post s hsplit hreach hs
    refine Yields.intro (fun s' hs' => ?_) (fun _ _ => trivial)
    obtain ⟨-, -, n, hn, hcpi⟩ := legStep_cases hs'
    obtain ⟨ixs, hixs, hkeep⟩ := hvenues pre swap post bank₀ s n _ hsplit hdeposit hreach hn hcpi
    exact hs.step guards fun k hk ht => hixs.alike guards (fun ix hix => hkeep ix hix k hk) ht
  exact hrun.of_ok h

theorem payout_held {b : Bank} (hheld : Held Alike R ctx p b) (h : payout R ctx p b = .ok bank') :
    Held Alike R ctx p bank' := by
  obtain ⟨out, raw, reserved, b₁, -, -, -, hopen, htransfer⟩ := payout_cases h
  rcases openOutput_cases hopen with rfl | hcreate
  · exact transferTokens_held guards hheld htransfer
  · exact transferTokens_held guards (createUserAta_held guards laws hheld hcreate) htransfer

end Run

/-- An account the route created and has closed. -/
def ClosedByRoute (ctx : Ctx) (start : Bank) (m : Nat) (bank : Bank) (k : Pubkey) : Prop :=
  (bank k).data = [] ∧ accountExists (start k) = false ∧
    ∃ i < m, ∃ a, ctx.remainingAccounts[i]? = some a ∧ a.key = k

/-- What the closing pass makes of a recorded token account: it stays as it was
    recorded, or the route has created and closed it. -/
def HeldOrClosed (Alike : Account → Account → Prop) (R : Runtime) (ctx : Ctx) (p : Prepared)
    (start b : Bank) : Prop :=
  ∀ k ∈ recordedVaults R ctx p.bank, Alike (p.bank k) (b k) ∨ ClosedByRoute ctx start p.mintsCount b k

section Closing

variable (guards : Guards R Alike Takes) (laws : AccountLaws R)

include guards laws

/-- One turn of the closing pass closes an account that the mask names. -/
theorem HeldOrClosed.step {start b : Bank} {i : Nat} (him : i < p.mintsCount)
    (hmask : ∀ i < 16, p.createdAtas.getLsbD i = true →
      ∃ a, ctx.remainingAccounts[i]? = some a ∧ accountExists (start a.key) = false)
    (hb : HeldOrClosed Alike R ctx p start b) (h : closeStep R ctx p b i = .ok bank') :
    HeldOrClosed Alike R ctx p start bank' := by
  obtain ⟨hi, ⟨-, rfl⟩ | ⟨hbit, ata, hata, ⟨-, rfl⟩ | ⟨-, program, hclose⟩⟩⟩ := closeStep_cases h
  · exact hb
  · exact hb
  · obtain ⟨hnil, hother⟩ := laws.closed hclose
    obtain ⟨a, ha, hnew⟩ := hmask i hi hbit
    obtain rfl : a = ata := Option.some.inj (ha.symm.trans hata)
    intro k hk
    by_cases hka : k = a.key
    · subst hka
      exact Or.inr ⟨hnil, hnew, i, him, a, ha, rfl⟩
    · obtain ⟨hdata, howner⟩ := hother k hka
      rcases hb k hk with hk' | ⟨hk', rest⟩
      · exact Or.inl (guards.trans hk' (guards.of_eq hdata howner))
      · exact Or.inr ⟨hdata.trans hk', rest⟩

/-- The closing pass closes only accounts the route created. -/
theorem closeCreatedAtas_held {start b : Bank}
    (hmask : ∀ i < 16, p.createdAtas.getLsbD i = true →
      ∃ a, ctx.remainingAccounts[i]? = some a ∧ accountExists (start a.key) = false)
    (hheld : Held Alike R ctx p b) (h : closeCreatedAtas R ctx p b = .ok bank') :
    HeldOrClosed Alike R ctx p start bank' := by
  have hrun : Yields (closeCreatedAtas R ctx p b) (HeldOrClosed Alike R ctx p start) (fun _ => True) := by
    refine Yields.foldlM (I := fun _ => HeldOrClosed Alike R ctx p start)
      (fun k hk => Or.inl (hheld k hk)) ?_
    intro pre i post s hsplit _ hs
    have him : i < p.mintsCount := List.mem_range.mp (by rw [hsplit]; simp)
    exact Yields.intro (fun s' hstep => hs.step guards laws him hmask hstep) (fun _ _ => trivial)
  exact hrun.of_ok h

/-- **What a route makes of the token accounts it recorded**: each is as it was recorded, or the route
    created and closed it, and none holds less. -/
theorem execute_held (hfunded : Funded bank) (hprep : prepare R ctx amount mints swaps bank = .ok p)
    (hvenues : VenuesSpare Takes R ctx p swaps) (h : execute R ctx amount mints swaps bank = .ok bank') :
    HeldOrClosed Alike R ctx p bank bank' ∧
      ∀ k ∈ recordedKeys R ctx p.bank, tokenBalance (p.bank k) ≤ tokenBalance (bank' k) := by
  have hp := prepare_spec hprep
  have hcreated := createAtas_created laws hp.created
  obtain ⟨p', idx, hprep', htrade, hcheck⟩ := execute_cases h
  obtain rfl : p' = p := Except.ok.inj (hprep'.symm.trans hprep)
  obtain ⟨b₀, st, b₂, hdeposit, hlegs, hpayout, hclose⟩ := trade_cases htrade
  have hheld₀ := deposit_held guards laws (hcreated.funded hfunded) hdeposit
  have hheld₁ := runLegs_held guards hvenues hdeposit hheld₀ hlegs
  have hheld₂ := payout_held guards laws hheld₁ hpayout
  refine ⟨closeCreatedAtas_held guards laws (hcreated.mask hfunded) hheld₂ hclose, ?_⟩
  rintro k ⟨a, ha, rfl, hrec⟩
  exact (finalCheck_yields hp.snapshot).of_ok hcheck a ha hrec

end Closing

end Guards

/-! ## The route -/

/-- **A route whose venues take no custody preserves it.** If no token instruction that a venue makes
    reassigns, delegates or closes a recorded token account, then after a successful route each of them
    still belongs to the TitanPDA, carries no delegate it did not carry when it was recorded, and holds at
    least its recorded balance; or the route created it, recorded it empty and closed it. -/
theorem custody_kept (laws : CustodyLaws R) (hfunded : Funded bank)
    (hprep : prepare R ctx amount mints swaps bank = .ok p)
    (hvenues : VenuesKeepCustody R ctx p swaps)
    (h : execute R ctx amount mints swaps bank = .ok bank') :
    ∀ a ∈ ctx.remainingAccounts, TokenAccount R (p.bank a.key) →
      isTitanPdaTokenAccount R (p.bank a.key) ctx.titanPda.key = true →
        (isTitanPdaTokenAccount R (bank' a.key) ctx.titanPda.key = true ∧
          (tokenDelegate (bank' a.key) = tokenDelegate (p.bank a.key) ∨
            tokenDelegate (bank' a.key) = none) ∧
          tokenBalance (p.bank a.key) ≤ tokenBalance (bank' a.key)) ∨
        (accountExists (bank a.key) = false ∧ tokenBalance (p.bank a.key) = 0 ∧
          (bank' a.key).data = []) := by
  obtain ⟨hheld, hbalance⟩ := execute_held laws.guards laws.toAccountLaws hfunded hprep hvenues h
  intro a ha htoken hrec
  have hle := hbalance a.key ⟨a, ha, rfl, hrec⟩
  rcases hheld a.key ⟨⟨a, ha, rfl, hrec⟩, htoken⟩ with halike | ⟨hnil, hnew, -⟩
  · exact Or.inl ⟨halike.recognised htoken hrec, halike.delegate, hle⟩
  · have hzero : tokenBalance (bank' a.key) = 0 := tokenBalance_of_nil hnil
    exact Or.inr ⟨hnew, by omega, hnil⟩

/-! ## The reference token program keeps custody, the program does not -/

section Sample

open Reference LittleEndian

variable {program source dest authority newOwner : Pubkey} {n : Nat} {signs : Pubkey → Bool}
  {b b' : Bank}

/-- Only the amount and the delegation of an account are rewritten, and nobody is delegated. -/
structure Rewritten (a a' : Account) : Prop where
  owner : a'.owner = a.owner
  length : a'.data.length = a.data.length
  bytes : ∀ i j, j ≤ 64 ∨ (108 ≤ i ∧ j ≤ 121) ∨ 129 ≤ i → bytesAt a'.data i j = bytesAt a.data i j
  delegate : tokenDelegate a' = tokenDelegate a ∨ tokenDelegate a' = none

theorem Rewritten.refl {a : Account} : Rewritten a a := ⟨rfl, rfl, fun _ _ _ => rfl, Or.inl rfl⟩

theorem Rewritten.trans {a a' a'' : Account} (h : Rewritten a a') (h' : Rewritten a' a'') :
    Rewritten a a'' := by
  refine ⟨h'.owner.trans h.owner, h'.length.trans h.length,
    fun i j hij => (h'.bytes i j hij).trans (h.bytes i j hij), ?_⟩
  rcases h'.delegate with hsame | hnone
  · rw [hsame]
    exact h.delegate
  · exact Or.inr hnone

/-- That leaves it in the same hands. -/
theorem Rewritten.heldAlike {a a' : Account} (h : Rewritten a a') : HeldAlike a a' := by
  refine ⟨h.owner, fun ha => ?_, h.bytes 0 32 (by decide), h.bytes 32 64 (by decide), h.delegate⟩
  obtain ⟨hlength, hstate, htype⟩ := ha
  rw [← h.length] at hlength htype
  rw [← h.bytes 108 109 (by decide)] at hstate
  rw [← h.bytes 165 166 (by decide)] at htype
  exact ⟨hlength, hstate, htype⟩

theorem setAmount_rewritten {a : Account} (h : 165 ≤ a.data.length) : Rewritten a (setAmount a n) := by
  have h64 : 64 + (leBytes 8 n).length ≤ a.data.length := by simp; omega
  have hbehind : ∀ i j, 72 ≤ i → bytesAt (setAmount a n).data i j = bytesAt a.data i j :=
    fun i j hi => bytesAt_writeAt_of_ge (by simpa using hi) h64
  refine ⟨rfl, length_writeAt h64, fun i j hij => ?_,
    Or.inl (HeldAlike.tokenDelegate_congr (hbehind _ _ (by decide)) (hbehind _ _ (by decide)))⟩
  rcases hij with hj | ⟨hi, -⟩ | hi
  · exact bytesAt_writeAt_of_le hj h64
  · exact hbehind i j (by omega)
  · exact hbehind i j (by omega)

/-- The delegated amount, rewritten, touches neither side of it. -/
theorem bytesAt_delegatedAmount {data : List UInt8} {m i j : Nat} (h : 165 ≤ data.length)
    (hij : j ≤ 121 ∨ 129 ≤ i) :
    bytesAt (writeAt data 121 (leBytes 8 m)) i j = bytesAt data i j := by
  have h121 : 121 + (leBytes 8 m).length ≤ data.length := by simp; omega
  rcases hij with hj | hi
  · exact bytesAt_writeAt_of_le hj h121
  · exact bytesAt_writeAt_of_ge (by simpa using hi) h121

theorem spendDelegation_rewritten (authority : Pubkey) (n : Nat) {a : Account} (h : 165 ≤ a.data.length) :
    Rewritten a (spendDelegation a authority n) := by
  unfold spendDelegation
  split
  · exact Rewritten.refl
  · split
    · -- the delegation ends
      have hlen : (writeAt a.data 121 (leBytes 8 0)).length = a.data.length :=
        length_writeAt (by simp; omega)
      have h72 : 72 + [(0 : UInt8), 0, 0, 0].length ≤ (writeAt a.data 121 (leBytes 8 0)).length := by
        rw [hlen]
        simp
        omega
      refine ⟨rfl, by rw [length_writeAt h72, hlen], fun i j hij => ?_, Or.inr ?_⟩
      · rcases hij with hj | ⟨hi, hj⟩ | hi
        · rw [bytesAt_writeAt_of_le (by omega) h72, bytesAt_delegatedAmount h (Or.inl (by omega))]
        · rw [bytesAt_writeAt_of_ge (by simp; omega) h72, bytesAt_delegatedAmount h (Or.inl hj)]
        · rw [bytesAt_writeAt_of_ge (by simp; omega) h72, bytesAt_delegatedAmount h (Or.inr hi)]
      · have htag := bytesAt_writeAt_self h72
        simp only [List.length_cons, List.length_nil] at htag
        simp [tokenDelegate, htag]
    · exact ⟨rfl, length_writeAt (by simp; omega), fun i j hij => bytesAt_delegatedAmount h (by omega),
        Or.inl (HeldAlike.tokenDelegate_congr (bytesAt_delegatedAmount h (by decide))
          (bytesAt_delegatedAmount h (by decide)))⟩

theorem moveTokens_rewritten (h : moveTokens program source dest authority n signs b = .ok b')
    (k : Pubkey) : Rewritten (b k) (b' k) := by
  unfold moveTokens at h
  simp only [Except.bind_eq_ok, ensure_eq_ok, isToken, Bool.and_eq_true, decide_eq_true_eq] at h
  obtain ⟨_, ⟨⟨-, hs⟩, -, hd⟩, _, -, _, -, _, -, h⟩ := h
  split at h
  · obtain rfl := Except.pure_eq_ok.mp h
    exact Rewritten.refl
  · simp only [Except.bind_eq_ok, ensure_eq_ok, Except.pure_eq_ok] at h
    obtain ⟨_, -, rfl⟩ := h
    unfold movedBank
    by_cases hkd : k = dest
    · subst hkd
      rw [Function.update_self]
      exact setAmount_rewritten hd
    · rw [Function.update_of_ne hkd]
      by_cases hks : k = source
      · subst hks
        rw [Function.update_self]
        have hspent := spendDelegation_rewritten authority n hs
        exact hspent.trans (setAmount_rewritten (by rw [hspent.length]; exact hs))
      · rw [Function.update_of_ne hks]
        exact Rewritten.refl

theorem moveTokens_heldAlike (h : moveTokens program source dest authority n signs b = .ok b')
    (k : Pubkey) : HeldAlike (b k) (b' k) := (moveTokens_rewritten h k).heldAlike

theorem setOwner_frame {account : Pubkey}
    (h : setOwner program account authority newOwner signs b = .ok b') :
    ∀ k, k ≠ account → b' k = b k := by
  unfold setOwner at h
  simp only [Except.bind_eq_ok, ensure_eq_ok, Except.pure_eq_ok] at h
  obtain ⟨_, -, _, -, rfl⟩ := h
  exact fun k hk => Function.update_of_ne hk _ _

theorem createAta_frame {owner mint ata : Pubkey} (h : createAta program owner mint ata b = .ok b') :
    (Funded b → Funded b') ∧
      ∀ k, (b k).data ≠ [] → (b' k).data = (b k).data ∧ (b' k).owner = (b k).owner := by
  rcases createAta_cases h with ⟨-, rfl⟩ | ⟨hempty, a, ha, rfl⟩
  · exact ⟨id, fun _ _ => ⟨rfl, rfl⟩⟩
  · refine ⟨fun hf k hk => ?_, fun k hk => ?_⟩
    · by_cases hka : k = ata
      · rw [hka, Function.update_self]
        exact of_decide_eq_true (Bool.and_eq_true_iff.mp ha).1
      · rw [Function.update_of_ne hka] at hk ⊢
        exact hf k hk
    · have hka : k ≠ ata := by
        rintro rfl
        exact hk hempty
      rw [Function.update_of_ne hka]
      exact ⟨rfl, rfl⟩

theorem token_heldAlike {ix : TokenInstruction} (h : token program signs b ix = .ok b') (k : Pubkey)
    (hk : ¬ TakesCustody ix k) : HeldAlike (b k) (b' k) := by
  unfold token at h
  split at h
  · exact moveTokens_heldAlike h k
  · exact moveTokens_heldAlike h k
  · have hframe := (closeToken_frame h).2 k (Ne.symm hk)
    exact HeldAlike.of_eq hframe.1 hframe.2
  · rw [setOwner_frame h k (Ne.symm hk)]
    exact HeldAlike.refl
  · exact absurd h (by simp)

/-- **The reference token program obeys the custody laws.** -/
theorem custodyLaws (titanPda : Pubkey) (venue : VenueProgram) :
    CustodyLaws (runtime titanPda venue) where
  closed h := by
    simp only [runtime, token] at h
    exact closeToken_frame h
  createAta h := createAta_frame h
  systemTransfer h := moveLamports_frame h
  token h k _ hk := token_heldAlike h k hk

/-- What a reference venue does is a sequence of token instructions, the ones it responds with. -/
theorem venueRun_of_invokeSigned {titanPda : Pubkey} {venue : VenueProgram} {ix : Instruction}
    {infos : List AccountInfo} {seeds : SignerSeeds}
    (h : (runtime titanPda venue).invokeSigned ix infos seeds b = .ok b') :
    VenueRun (runtime titanPda venue) (venue.respond ix) b b' := by
  -- the venue's signers, as accounts of the token instruction
  have hsigns : ∀ (c : Bank) (i : TokenInstruction), token SPL_TOKEN_ID (venue.signs ix) c i
      = (runtime titanPda venue).invokeToken SPL_TOKEN_ID i
          (ix.accounts.map (fun m => ⟨m.pubkey, m.isSigner, m.isWritable⟩)
            ++ [⟨venue.authority, true, false⟩]) [] c := by
    intro c i
    simp only [runtime]
    congr 1
    funext k
    simp [VenueProgram.signs, List.any_map, Function.comp_def, eq_comm]
  simp only [runtime] at h
  generalize venue.respond ix = is at h
  induction is generalizing b with
  | nil =>
      obtain rfl := Except.pure_eq_ok.mp h
      exact VenueRun.done b
  | cons i is ih =>
      simp only [List.foldlM_cons, Except.bind_eq_ok] at h
      obtain ⟨b₁, hi, hrest⟩ := h
      exact VenueRun.token ((hsigns b i).symm.trans hi) (ih hrest)

/-- Every leg of a reference venue is a run of what the venue responds with. -/
theorem legCpi_venueRun {titanPda : Pubkey} {venue : VenueProgram} {n : UInt64}
    {swap : SwapSpecInputV2} {start increment : Nat}
    (h : legCpi (runtime titanPda venue) ctx n swap start increment b = .ok b') :
    ∃ ixs, VenueRun (runtime titanPda venue) ixs b b' ∧ (ixs = [] ∨ ∃ ix, ixs = venue.respond ix) := by
  rcases legCpi_spec h with ⟨-, rfl⟩ | ⟨_, -, ix, -, hinvoke⟩
  · exact ⟨[], VenueRun.done _, Or.inl rfl⟩
  · exact ⟨_, venueRun_of_invokeSigned hinvoke, Or.inr ⟨ix, rfl⟩⟩

theorem sample_funded : Funded Sample.bank := by
  intro k _
  have hpos : ∀ mint owner amount delegate,
      0 < (Sample.tokenAccount mint owner amount delegate).lamports :=
    fun _ _ _ _ => Nat.succ_pos _
  unfold Sample.bank
  repeat' split
  all_goals first | exact hpos _ _ _ _ | exact Nat.succ_pos _

/-- The account the TitanPDA keeps apart is an initialised token account. -/
theorem keptA_tokenAccount (venue : VenueProgram) :
    TokenAccount (runtime Sample.titanPda venue) (Sample.bank Sample.keptA) :=
  ⟨Or.inl rfl, by decide +kernel, Or.inl (by decide +kernel), Or.inl (by decide +kernel)⟩

/-- The sample route ends well, with the account the TitanPDA keeps apart still in its hands. -/
theorem custody_kept_sample :
    ∃ bank', execute (runtime Sample.titanPda Sample.exchange) (Sample.ctx Sample.userA) 1000 2
        Sample.swaps Sample.bank = .ok bank' ∧
      isTitanPdaTokenAccount (runtime Sample.titanPda Sample.exchange) (bank' Sample.keptA)
        Sample.titanPda = true := by
  obtain ⟨bank', hrun, -⟩ := Except.okAnd_eq_true.mp (show (execute (runtime Sample.titanPda
    Sample.exchange) (Sample.ctx Sample.userA) 1000 2 Sample.swaps Sample.bank).okAnd (fun _ => true)
      = true by decide +kernel)
  refine ⟨bank', hrun, ?_⟩
  obtain ⟨p, hprep, -⟩ := Except.bind_eq_ok.mp hrun
  have hvenues : VenuesKeepCustody (runtime Sample.titanPda Sample.exchange)
      (Sample.ctx Sample.userA) p Sample.swaps := by
    intro _ _ _ _ _ _ _ _ _ _ _ hcpi
    obtain ⟨ixs, hixs, hrespond⟩ := legCpi_venueRun hcpi
    refine ⟨ixs, hixs, fun ix hix k _ => ?_⟩
    rcases hrespond with rfl | ⟨_, rfl⟩
    · exact absurd hix (by simp)
    · simp only [Sample.exchange, List.mem_cons, List.not_mem_nil, or_false] at hix
      rcases hix with rfl | rfl <;> simp [TakesCustody]
  have hrecorded : isTitanPdaTokenAccount (runtime Sample.titanPda Sample.exchange)
      (p.bank Sample.keptA) Sample.titanPda = true := by
    rw [sample_prepared_bank hprep]
    decide +kernel
  have htoken : TokenAccount (runtime Sample.titanPda Sample.exchange) (p.bank Sample.keptA) := by
    rw [sample_prepared_bank hprep]
    exact keptA_tokenAccount _
  rcases custody_kept (custodyLaws _ _) sample_funded hprep hvenues hrun
    (Sample.writable Sample.keptA) (by decide) htoken hrecorded with ⟨hheld, -⟩ | ⟨hnew, -⟩
  · exact hheld
  · have hexists : accountExists (Sample.bank Sample.keptA) = true := by decide +kernel
    exact absurd (hexists.symm.trans hnew) (by simp)

/-- Only its holder can have a token account reassigned, delegated or closed: the holder signed the
    instruction, or is the TitanPDA and the seeds were given. -/
def OnlyHolderActs (R : Runtime) (titanPda : Pubkey) : Prop :=
  ∀ program ix infos seeds b b' k, R.invokeToken program ix infos seeds b = .ok b' →
    TokenAccount R (b k) → ¬ HeldAlike (b k) (b' k) →
      ∃ holder : Pubkey, bytesAt (b k).data 32 64 = some holder.bytes ∧
        ((∃ a ∈ infos, a.key = holder ∧ a.isSigner = true) ∨ (seeds ≠ [] ∧ holder = titanPda))

theorem onlyHolderActs (titanPda : Pubkey) (venue : VenueProgram) :
    OnlyHolderActs (runtime titanPda venue) titanPda := by
  intro program ix infos seeds b b' k h _ hnot
  -- the two instructions that take custody check the owner and its signature
  have hsigned : ∀ {account authority : Pubkey}, k = account →
      (ownerIs (b account) authority = true ∧
        (infos.any (fun a => decide (a.key = authority) && a.isSigner)
          || (!seeds.isEmpty && decide (authority = titanPda))) = true) →
      ∃ holder : Pubkey, bytesAt (b k).data 32 64 = some holder.bytes ∧
        ((∃ a ∈ infos, a.key = holder ∧ a.isSigner = true) ∨ (seeds ≠ [] ∧ holder = titanPda)) := by
    rintro account authority rfl ⟨howner, hsig⟩
    refine ⟨authority, of_decide_eq_true howner, ?_⟩
    simpa [List.any_eq_true] using hsig
  simp only [runtime] at h
  unfold token at h
  split at h
  · exact absurd (moveTokens_heldAlike h k) hnot
  · exact absurd (moveTokens_heldAlike h k) hnot
  next account destination authority =>
    by_cases hk : k = account
    · simp only [closeToken, Except.bind_eq_ok, ensure_eq_ok] at h
      obtain ⟨_, -, _, -, _, -, _, hauth, -⟩ := h
      exact hsigned hk hauth
    · have hframe := (closeToken_frame h).2 k hk
      exact absurd (HeldAlike.of_eq hframe.1 hframe.2) hnot
  next account authority newOwner =>
    by_cases hk : k = account
    · simp only [setOwner, Except.bind_eq_ok, ensure_eq_ok] at h
      obtain ⟨_, -, _, hauth, -⟩ := h
      exact hsigned hk hauth
    · rw [setOwner_frame h k hk] at hnot
      exact absurd HeldAlike.refl hnot
  · exact absurd h (by simp)

/-- **Against an arbitrary venue program custody is lost**: the program named by a leg has a recorded
    account assigned to a stranger under the TitanPDA's signature, leaves the amounts alone, and the route
    returns `Ok`. -/
theorem custody_lost :
    ¬ ∀ (R : Runtime) (ctx : Ctx) (amount : UInt64) (mints : UInt8) (swaps : List SwapSpecInputV2)
      (bank bank' : Bank) (p : Prepared), TokenLaws R → CustodyLaws R →
      OnlyHolderActs R ctx.titanPda.key →
      (∀ ix infos seeds b b', R.invokeSigned ix infos seeds b = .ok b' → ∃ ixs, VenueRun R ixs b b') →
      Funded bank → prepare R ctx amount mints swaps bank = .ok p →
      execute R ctx amount mints swaps bank = .ok bank' →
      ∀ a ∈ ctx.remainingAccounts, TokenAccount R (p.bank a.key) →
        isTitanPdaTokenAccount R (p.bank a.key) ctx.titanPda.key = true →
          isTitanPdaTokenAccount R (bank' a.key) ctx.titanPda.key = true ∨
          accountExists (bank a.key) = false := by
  intro hclaim
  obtain ⟨bank', hrun, hlost⟩ := Except.okAnd_eq_true.mp (show (execute (runtime Sample.titanPda
    Sample.thief) (Sample.ctx Sample.userA) 1000 2 Sample.swaps Sample.bank).okAnd
      (fun b => !isTitanPdaTokenAccount (runtime Sample.titanPda Sample.thief) (b Sample.keptA)
        Sample.titanPda) = true by decide +kernel)
  obtain ⟨p, hprep, -⟩ := Except.bind_eq_ok.mp hrun
  have hrecorded : isTitanPdaTokenAccount (runtime Sample.titanPda Sample.thief) (p.bank Sample.keptA)
      Sample.titanPda = true := by
    rw [sample_prepared_bank hprep]
    decide +kernel
  have htoken : TokenAccount (runtime Sample.titanPda Sample.thief) (p.bank Sample.keptA) := by
    rw [sample_prepared_bank hprep]
    exact keptA_tokenAccount _
  rcases hclaim (runtime Sample.titanPda Sample.thief) (Sample.ctx Sample.userA) 1000 2 Sample.swaps
    Sample.bank bank' p (tokenLaws _ _) (custodyLaws _ _) (onlyHolderActs _ _)
    (fun _ _ _ _ _ h => ⟨_, venueRun_of_invokeSigned h⟩) sample_funded hprep hrun
    (Sample.writable Sample.keptA) (by decide) htoken hrecorded with hheld | hnew
  · have hheld' : isTitanPdaTokenAccount (runtime Sample.titanPda Sample.thief) (bank' Sample.keptA)
        Sample.titanPda = true := hheld
    rw [hheld'] at hlost
    exact absurd hlost (by simp)
  · have hexists : accountExists (Sample.bank Sample.keptA) = true := by decide +kernel
    exact absurd (hexists.symm.trans hnew) (by simp)

end Sample

end ByrealTitan.Program
