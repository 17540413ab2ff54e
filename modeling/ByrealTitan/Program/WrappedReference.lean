import ByrealTitan.Program.LamportLaws
import ByrealTitan.Program.Reference

/-!
# `Program.WrappedReference` — the concrete token program, with wrapped SOL

`Reference` keeps to accounts that are not native. Here the same token program also moves the lamports
of wrapped-SOL accounts, recounts them, and opens them at the payer's cost, so that deposits of SOL can
be run. `depositLaws` shows that it behaves as `DepositLaws` asks.
-/

namespace ByrealTitan.Program.Reference

open LittleEndian Reserve

/-- The rent of a token account of 165 bytes. -/
def TOKEN_ACCOUNT_RENT : Nat := 2039280

def shiftLamports (source dest : Pubkey) (n : Nat) (b : Bank) : Bank :=
  let b₁ := Function.update b source { b source with lamports := (b source).lamports - n }
  Function.update b₁ dest { b₁ dest with lamports := (b₁ dest).lamports + n }

/-- `transfer`, which takes the lamports of a wrapped-SOL account along. -/
def moveWrapped (program source dest authority : Pubkey) (n : Nat) (signs : Pubkey → Bool) (b : Bank) :
    Except UInt64 Bank := do
  let b' ← moveTokens program source dest authority n signs b
  if source = dest ∨ nativeReserve (b source) = none then return b'
  else
    ensure (n ≤ (b source).lamports) 14
    return shiftLamports source dest n b'

/-- `sync_native`. -/
def syncNative (program account : Pubkey) (b : Bank) : Except UInt64 Bank := do
  ensure (isToken program (b account)) 2
  match nativeReserve (b account) with
  | none => .error 19
  | some reserve => do
    ensure (tokenBalance (b account) + reserve ≤ (b account).lamports) 13
    ensure ((b account).lamports - reserve < 2 ^ 64) 14
    return Function.update b account (setAmount (b account) ((b account).lamports - reserve))

def wrappedToken (program : Pubkey) (signs : Pubkey → Bool) (b : Bank) : TokenInstruction →
    Except UInt64 Bank
  | .transfer source dest authority amount =>
      moveWrapped program source dest authority amount.toNat signs b
  | .transferChecked source _ dest authority amount _ =>
      moveWrapped program source dest authority amount.toNat signs b
  | .closeAccount account destination authority =>
      closeToken program account destination authority signs b
  | .syncNative account => syncNative program account b
  | _ => .error 12

/-- The data of a new token account; one of the native mint keeps its rent as a reserve. -/
def newTokenData (mint owner : Pubkey) : List UInt8 :=
  mint.bytes ++ owner.bytes ++ leBytes 8 0 ++ List.replicate 36 0 ++ [1]
    ++ (if mint = NATIVE_MINT_ID then [1, 0, 0, 0] ++ leBytes 8 TOKEN_ACCOUNT_RENT
      else List.replicate 12 0)
    ++ List.replicate 44 0

/-- `create_associated_token_account_idempotent`, at an address without lamports. -/
def openToken (program payer owner mint ata : Pubkey) (b : Bank) : Except UInt64 Bank :=
  if accountExists (b ata) then do
    ensure (ownerIs (b ata) owner) 2
    return b
  else do
    ensure ((b ata).data = [] ∧ (b ata).lamports = 0 ∧ payer ≠ ata) 2
    ensure ((b payer).data = [] ∧ TOKEN_ACCOUNT_RENT ≤ (b payer).lamports) 1
    return Function.update (shiftLamports payer ata TOKEN_ACCOUNT_RENT b) ata
      ⟨TOKEN_ACCOUNT_RENT, newTokenData mint owner, program⟩

/-- The runtime of `Reference`, with wrapped SOL. -/
def wrappedRuntime (titanPda : Pubkey) (venue : VenueProgram) : Runtime :=
  { runtime titanPda venue with
    invokeToken := fun program ix infos seeds b =>
      wrappedToken program (fun k => infos.any (fun a => decide (a.key = k) && a.isSigner)
        || (!seeds.isEmpty && decide (k = titanPda))) b ix
    createAssociatedTokenAccountIdempotent := fun payer owner mint ata tokenProgram _ b =>
      openToken tokenProgram.key payer.key owner.key mint.key ata.key b
    invokeSigned := fun ix _ _ b => (venue.respond ix).foldlM
      (wrappedToken SPL_TOKEN_ID (venue.signs ix)) b }

/-! ## It obeys the laws -/

variable {program source dest account authority k : Pubkey} {n : Nat} {signs : Pubkey → Bool} {b b' : Bank}

/-- Tokens that move leave the lamports and the length of every account. -/
theorem moveTokens_frame (h : moveTokens program source dest authority n signs b = .ok b') (k : Pubkey) :
    lamports b' k = lamports b k ∧ (b' k).data.length = (b k).data.length := by
  unfold moveTokens at h
  simp only [Except.bind_eq_ok, ensure_eq_ok, isToken, Bool.and_eq_true, decide_eq_true_eq] at h
  obtain ⟨_, ⟨⟨-, hs⟩, -, hd⟩, _, -, _, -, _, -, h⟩ := h
  have hset : ∀ {a : Account} (x : Nat), 165 ≤ a.data.length →
      (setAmount a x).lamports = a.lamports ∧ (setAmount a x).data.length = a.data.length := by
    intro a x ha
    exact ⟨rfl, length_writeAt (by rw [length_leBytes]; omega)⟩
  split at h
  · obtain rfl := Except.pure_eq_ok.mp h
    exact ⟨rfl, rfl⟩
  · simp only [Except.bind_eq_ok, ensure_eq_ok, Except.pure_eq_ok] at h
    obtain ⟨_, -, rfl⟩ := h
    unfold movedBank lamports
    by_cases hkd : k = dest
    · subst hkd
      rw [Function.update_self]
      exact hset _ hd
    · rw [Function.update_of_ne hkd]
      by_cases hks : k = source
      · subst hks
        rw [Function.update_self]
        obtain ⟨-, hlen⟩ := spendDelegation_frame authority n hs
        have hspent : (spendDelegation (b k) authority n).lamports = (b k).lamports := by
          unfold spendDelegation
          split
          · rfl
          · split <;> rfl
        obtain ⟨hlamports, hlength⟩ := hset (tokenBalance (b k) - n) (hlen ▸ hs)
        exact ⟨hlamports.trans hspent, hlength.trans hlen⟩
      · rw [Function.update_of_ne hks]
        exact ⟨rfl, rfl⟩

theorem shiftLamports_data (source dest : Pubkey) (n : Nat) (b : Bank) (k : Pubkey) :
    (shiftLamports source dest n b k).data = (b k).data := by
  have hfirst := update_lamports_frame b source ((b source).lamports - n) k
  exact (update_lamports_frame (Function.update b source _) dest _ k).1.trans hfirst.1

theorem shiftLamports_moves (hne : source ≠ dest) (hfunds : n ≤ lamports b source) :
    Moves source dest n (lamports b) (lamports (shiftLamports source dest n b)) := by
  refine ⟨hfunds, fun _ => ?_, fun _ => ?_, fun h => absurd h hne, fun k hks hkd => ?_⟩
  · simp only [lamports, shiftLamports, Function.update_of_ne hne, Function.update_self]
  · simp only [lamports, shiftLamports, Function.update_self, Function.update_of_ne hne.symm]
  · simp only [lamports, shiftLamports, Function.update_of_ne hks, Function.update_of_ne hkd]

theorem moveWrapped_moves (h : moveWrapped program source dest authority n signs b = .ok b') :
    TokenMove source dest n b b' := by
  unfold moveWrapped at h
  simp only [Except.bind_eq_ok] at h
  obtain ⟨b₁, hmove, h⟩ := h
  have htokens := moveTokens_moves hmove
  have hframe := moveTokens_frame hmove
  split at h
  next hplain =>
    obtain rfl := Except.pure_eq_ok.mp h
    refine ⟨htokens, fun hnative hne => ?_, fun _ k => (hframe k).1, fun k => (hframe k).2⟩
    exact absurd hplain (not_or.mpr ⟨hne, hnative⟩)
  next hwrapped =>
    rw [not_or] at hwrapped
    simp only [Except.bind_eq_ok, ensure_eq_ok, Except.pure_eq_ok] at h
    obtain ⟨_, hfunds, rfl⟩ := h
    have hbalances : balances (shiftLamports source dest n b₁) = balances b₁ :=
      funext fun k => balances_congr (shiftLamports_data source dest n b₁ k)
    have hlamports : lamports b₁ = lamports b := funext fun k => (hframe k).1
    refine ⟨hbalances ▸ htokens, fun _ hne => ?_, fun hplain => ?_, fun k => ?_⟩
    · have hmoves := shiftLamports_moves (n := n) (b := b₁) hne (by rw [hlamports]; exact hfunds)
      rwa [hlamports] at hmoves
    · exact absurd hplain (not_or.mpr ⟨hwrapped.2, hwrapped.1⟩)
    · rw [shiftLamports_data, (hframe k).2]

theorem syncNative_recounts (h : syncNative program account b = .ok b') : Recount account b b' := by
  unfold syncNative at h
  simp only [Except.bind_eq_ok, ensure_eq_ok, isToken, Bool.and_eq_true, decide_eq_true_eq] at h
  obtain ⟨_, ⟨-, hlen⟩, h⟩ := h
  cases hreserve : nativeReserve (b account) with
  | none =>
      rw [hreserve] at h
      cases h
  | some reserve =>
      simp only [hreserve, Except.bind_eq_ok, ensure_eq_ok, Except.pure_eq_ok] at h
      obtain ⟨_, hfunds, _, hroom, rfl⟩ := h
      have hdata : 64 + (leBytes 8 ((b account).lamports - reserve)).length ≤ (b account).data.length := by
        rw [length_leBytes]
        omega
      have hkeep : nativeReserve (setAmount (b account) ((b account).lamports - reserve)) =
          nativeReserve (b account) := by
        have hend : 64 + (leBytes 8 ((b account).lamports - reserve)).length ≤ 109 := by
          rw [length_leBytes]
          omega
        rw [nativeReserve, setAmount, bytesAt_writeAt_of_ge hend hdata,
          bytesAt_writeAt_of_ge (Nat.le_trans hend (by decide)) hdata]
        rfl
      refine ⟨⟨reserve, hreserve, ?_, ?_⟩, fun k hk => ?_, fun k => ?_, fun k => ?_⟩
      · rw [Function.update_self, hkeep, hreserve]
      · simp only [balances, lamports, Function.update_self]
        rw [tokenBalance_setAmount (by omega) hroom]
        omega
      · simp only [balances, Function.update_of_ne hk]
      · by_cases hk : k = account
        · subst hk
          simp only [lamports, Function.update_self]
          rfl
        · simp only [lamports, Function.update_of_ne hk]
      · by_cases hk : k = account
        · subst hk
          rw [Function.update_self]
          exact length_writeAt hdata
        · rw [Function.update_of_ne hk]

theorem closeToken_closes {destination : Pubkey}
    (h : closeToken program account destination authority signs b = .ok b') :
    Closes account destination b b' := by
  obtain ⟨hnil, hother⟩ := closeToken_frame h
  unfold closeToken at h
  simp only [Except.bind_eq_ok, ensure_eq_ok, Except.pure_eq_ok] at h
  obtain ⟨_, -, _, hne, _, -, _, -, rfl⟩ := h
  refine ⟨hne, ⟨?_, hnil⟩, ?_, fun k hk => (hother k hk).1, fun k hk hkd => ?_⟩
  · simp only [closedBank, Function.update_self]
  · simp only [lamports, closedBank, Function.update_of_ne hne.symm, Function.update_self]
  · simp only [lamports, closedBank, Function.update_of_ne hk, Function.update_of_ne hkd]

/-- The bytes in the middle of a list. -/
theorem bytesAt_append {pre mid post : List UInt8} {i j : Nat} (hi : pre.length = i)
    (hj : i + mid.length = j) :
    bytesAt (pre ++ mid ++ post) i j = some mid := by
  subst hi
  subst hj
  rw [bytesAt, if_pos (by simp only [List.length_append]; omega), Nat.add_sub_cancel_left,
    List.append_assoc, List.drop_left, List.take_left]

/-- A new token account is empty; one of the native mint keeps its rent. -/
theorem newTokenData_reads (mint owner : Pubkey) (l : Nat) (program : Pubkey) :
    tokenBalance ⟨l, newTokenData mint owner, program⟩ = 0 ∧
      (mint = NATIVE_MINT_ID → nativeReserve ⟨l, newTokenData mint owner, program⟩ =
        some TOKEN_ACCOUNT_RENT) := by
  have hhead : (mint.bytes ++ owner.bytes).length = 64 := by
    rw [List.length_append, mint.length_eq, owner.length_eq]
  refine ⟨?_, fun hmint => ?_⟩
  · have hread : bytesAt (newTokenData mint owner) 64 72 = some (leBytes 8 0) := by
      unfold newTokenData
      simp only [List.append_assoc]
      rw [← List.append_assoc, ← List.append_assoc]
      exact bytesAt_append hhead rfl
    simp only [tokenBalance, tokenAmountOrZero, extractTokenAmount, hread]
    rfl
  · have hfront : (mint.bytes ++ owner.bytes ++ leBytes 8 0 ++ List.replicate 36 0 ++ [1]).length =
        109 := by
      simp only [List.length_append, hhead, length_leBytes, List.length_replicate, List.length_singleton]
    have htag : bytesAt (newTokenData mint owner) 109 113 = some [1, 0, 0, 0] := by
      unfold newTokenData
      rw [if_pos hmint, ← List.append_assoc _ [1, 0, 0, 0], List.append_assoc _ (leBytes 8 _)]
      exact bytesAt_append hfront rfl
    have hrent : bytesAt (newTokenData mint owner) 113 121 = some (leBytes 8 TOKEN_ACCOUNT_RENT) := by
      unfold newTokenData
      rw [if_pos hmint, ← List.append_assoc _ [1, 0, 0, 0]]
      exact bytesAt_append (by rw [List.length_append, hfront]; rfl) rfl
    rw [nativeReserve, if_pos htag, hrent, Option.map_some, leNat_leBytes (by decide)]

theorem openToken_opens {payer owner mint ata : Pubkey}
    (h : openToken program payer owner mint ata b = .ok b')
    (hmint : mint = NATIVE_MINT_ID) (habsent : Absent (b ata)) :
    OpensWrapped payer ata TOKEN_ACCOUNT_RENT b b' := by
  unfold openToken at h
  have hnew : accountExists (b ata) = false := by
    rw [accountExists, habsent.data]
    simp
  simp only [hnew, Bool.false_eq_true, ↓reduceIte, Except.bind_eq_ok, ensure_eq_ok, Except.pure_eq_ok] at h
  obtain ⟨_, ⟨-, hnone, hne⟩, _, ⟨-, hfunds⟩, rfl⟩ := h
  obtain ⟨hempty, hreserve⟩ := newTokenData_reads mint owner TOKEN_ACCOUNT_RENT program
  have hshift := shiftLamports_moves hne hfunds
  refine ⟨?_, ⟨hfunds, fun _ => ?_, fun _ => ?_, fun hself => absurd hself hne, fun k hkp hka => ?_⟩,
    ?_, fun k hk => ?_⟩
  · rw [Function.update_self]
    exact hreserve hmint
  · rw [← hshift.source_eq hne]
    simp only [lamports, Function.update_of_ne hne]
  · have hzero : lamports b ata = 0 := hnone
    rw [hzero, Nat.zero_add]
    simp only [lamports, Function.update_self]
  · rw [← hshift.frame k hkp hka]
    simp only [lamports, Function.update_of_ne hka]
  · simp only [balances, Function.update_self]
    exact hempty
  · rw [Function.update_of_ne hk]
    exact shiftLamports_data payer ata _ b k

theorem moveLamports_moves (h : moveLamports source dest n b = .ok b') :
    Moves source dest n (lamports b) (lamports b') ∧ ∀ k, (b' k).data = (b k).data := by
  unfold moveLamports at h
  simp only [Except.bind_eq_ok, ensure_eq_ok, Except.pure_eq_ok] at h
  obtain ⟨_, ⟨-, hfunds⟩, rfl⟩ := h
  refine ⟨?_, shiftLamports_data source dest n b⟩
  by_cases hne : source = dest
  · subst hne
    have hself : lamports (shiftLamports source source n b) = lamports b := by
      funext k
      by_cases hk : k = source
      · subst hk
        simp only [lamports, shiftLamports, Function.update_self]
        exact Nat.sub_add_cancel hfunds
      · simp only [lamports, shiftLamports, Function.update_of_ne hk]
    exact ⟨hfunds, fun h => absurd rfl h, fun h => absurd rfl h, fun _ => congrFun hself source,
      fun k _ _ => congrFun hself k⟩
  · exact shiftLamports_moves hne hfunds

/-- **The reference token program with wrapped SOL obeys the laws** the deposit relies on. -/
theorem depositLaws (titanPda : Pubkey) (venue : VenueProgram) :
    DepositLaws (wrappedRuntime titanPda venue) where
  transfer h := moveWrapped_moves h
  transferChecked h := moveWrapped_moves h
  syncNative h := syncNative_recounts h
  closeAccount h := by
    simp only [wrappedRuntime, wrappedToken] at h
    exact closeToken_closes h
  systemTransfer h := moveLamports_moves h
  createWrapped h hmint habsent := ⟨_, openToken_opens h hmint habsent⟩

/-! ## A sample deposit of SOL -/

namespace Sample

def wrappedInput := Pubkey.fill 16
def titanWrapped := Pubkey.fill 17

def wrappedAccount (owner : Pubkey) (amount : Nat) (delegate : Option Pubkey) : Account :=
  let plain := tokenAccount NATIVE_MINT_ID owner amount delegate
  { plain with
    lamports := TOKEN_ACCOUNT_RENT + amount
    data := writeAt plain.data 109 ([1, 0, 0, 0] ++ leBytes 8 TOKEN_ACCOUNT_RENT) }

/-- The TitanPDA holds some wrapped SOL, of which a delegate may move some; `input` is what stands at the
    address of the input account. -/
def wrappedBank (input : Account) (delegate : Option Pubkey) : Bank := fun k =>
  if k = payer ∨ k = user then ⟨10000000, [], ZERO_PUBKEY⟩
  else if k = wrappedInput then input
  else if k = titanWrapped then wrappedAccount titanPda 70 delegate
  else if k = titanB then tokenAccount mintB titanPda 0 none
  else if k = NATIVE_MINT_ID ∨ k = mintB then mintAccount
  else ⟨0, [], ZERO_PUBKEY⟩

/-- The accounts of a route from SOL to mint `B`, with these as the user's wallet and input account. -/
def wrappedCtx (wallet input : Pubkey) : Ctx :=
  { ctx input with
    user := signer wallet
    remainingAccounts := [writable titanWrapped, writable titanB, readonly NATIVE_MINT_ID, readonly mintB]
    remaining_le := by decide }

end Sample

end ByrealTitan.Program.Reference
