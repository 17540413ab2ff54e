import ByrealTitan.Program.TokenLaws

/-!
# `Program.Reference` — a concrete token program

An executable `Runtime`, so that routes can be run: the SPL token program on the 165-byte account layout
(mint, owner, amount, delegate, state, …) for non-native accounts, and venue programs that answer a CPI
with a list of token instructions, carried out under the signatures the CPI grants them. Instructions
outside that scope are refused. `tokenLaws` shows that it behaves as `TokenLaws` asks.
-/

namespace ByrealTitan.Program.Reference

open LittleEndian Reserve

/-! ## Writing into account data -/

/-- Overwrite the bytes from `pos` on. -/
def writeAt (data : List UInt8) (pos : Nat) (bs : List UInt8) : List UInt8 :=
  data.take pos ++ bs ++ data.drop (pos + bs.length)

theorem length_writeAt {data bs : List UInt8} {pos : Nat} (h : pos + bs.length ≤ data.length) :
    (writeAt data pos bs).length = data.length := by
  simp only [writeAt, List.length_append, List.length_take, List.length_drop]
  omega

theorem bytesAt_writeAt_self {data bs : List UInt8} {pos : Nat} (h : pos + bs.length ≤ data.length) :
    bytesAt (writeAt data pos bs) pos (pos + bs.length) = some bs := by
  have hlen : (data.take pos).length = pos := by rw [List.length_take]; omega
  rw [bytesAt, if_pos (by rw [length_writeAt h]; exact h), Nat.add_sub_cancel_left]
  rw [writeAt, List.append_assoc, List.drop_left' hlen, List.take_left' rfl]

/-- Reading before the bytes that were written. -/
theorem bytesAt_writeAt_of_le {data bs : List UInt8} {pos a b : Nat} (hb : b ≤ pos)
    (h : pos + bs.length ≤ data.length) : bytesAt (writeAt data pos bs) a b = bytesAt data a b := by
  have hlen : (data.take pos).length = pos := by rw [List.length_take]; omega
  rw [bytesAt, bytesAt, length_writeAt h]
  split
  · congr 1
    rw [← List.drop_take, ← List.drop_take, writeAt, List.append_assoc,
      List.take_append_of_le_length (by omega), List.take_take, Nat.min_eq_left hb]
  · rfl

/-- Reading behind the bytes that were written. -/
theorem bytesAt_writeAt_of_ge {data bs : List UInt8} {pos a b : Nat} (ha : pos + bs.length ≤ a)
    (h : pos + bs.length ≤ data.length) : bytesAt (writeAt data pos bs) a b = bytesAt data a b := by
  have hlen : (data.take pos ++ bs).length = pos + bs.length := by
    rw [List.length_append, List.length_take]; omega
  have hdrop : (writeAt data pos bs).drop a = data.drop a := by
    obtain ⟨k, rfl⟩ := Nat.exists_eq_add_of_le ha
    rw [writeAt, ← List.drop_drop, List.drop_left' hlen, List.drop_drop]
  rw [bytesAt, bytesAt, length_writeAt h, hdrop]

/-! ## Token accounts -/

def setAmount (a : Account) (n : Nat) : Account := { a with data := writeAt a.data 64 (leBytes 8 n) }

theorem tokenBalance_setAmount {a : Account} {n : Nat} (h : 72 ≤ a.data.length) (hn : n < 2 ^ 64) :
    tokenBalance (setAmount a n) = n := by
  have hread : bytesAt (setAmount a n).data 64 72 = some (leBytes 8 n) :=
    bytesAt_writeAt_self (by simpa using h)
  rw [tokenBalance, tokenAmountOrZero, extractTokenAmount, hread]
  simp only [Res.orErr, Except.ok_bind, pure, Except.pure]
  rw [leNat_leBytes (by simpa using hn), UInt64.toNat_ofNat_of_lt' hn]

/-- Bytes behind the amount do not change it. -/
theorem tokenBalance_writeAt {a : Account} {bs : List UInt8} {pos : Nat} (hpos : 72 ≤ pos)
    (h : pos + bs.length ≤ a.data.length) :
    tokenBalance { a with data := writeAt a.data pos bs } = tokenBalance a := by
  simp only [tokenBalance, tokenAmountOrZero, extractTokenAmount, bytesAt_writeAt_of_le hpos h]

/-- `delegated_amount`. -/
def delegatedAmount (a : Account) : Nat := leNat ((a.data.drop 121).take 8)

/-- A token account of this program. -/
def isToken (program : Pubkey) (a : Account) : Bool :=
  decide (a.owner = program) && decide (165 ≤ a.data.length)

def ownerIs (a : Account) (authority : Pubkey) :
    Bool := decide (bytesAt a.data 32 64 = some authority.bytes)

/-! ## The token program -/

/-- What a delegate may still move shrinks with what it moved. -/
def spendDelegation (a : Account) (authority : Pubkey) (amount : Nat) : Account :=
  if tokenDelegate a ≠ some authority then a
  else if delegatedAmount a ≤ amount then
    { a with data := writeAt (writeAt a.data 121 (leBytes 8 0)) 72 [0, 0, 0, 0] }
  else { a with data := writeAt a.data 121 (leBytes 8 (delegatedAmount a - amount)) }

def mayMove (a : Account) (authority : Pubkey) (amount : Nat) : Bool :=
  if tokenDelegate a = some authority then decide (amount ≤ delegatedAmount a) else ownerIs a authority

/-- Fail with a code unless `p` holds. -/
def ensure (p : Prop) [Decidable p] (code : UInt64) : Except UInt64 Unit :=
  if p then .ok () else .error code

@[simp] theorem ensure_eq_ok {p : Prop} [Decidable p] {code : UInt64} {u : Unit} :
    ensure p code = .ok u ↔ p := by
  unfold ensure
  split
  next h => simp [h]
  next h => simp [h]

/-- The two accounts after the amount has moved. -/
def movedBank (source dest authority : Pubkey) (amount : Nat) (b : Bank) : Bank :=
  let source' := setAmount (spendDelegation (b source) authority amount)
    (tokenBalance (b source) - amount)
  let dest' := setAmount (b dest) (tokenBalance (b dest) + amount)
  Function.update (Function.update b source source') dest dest'

def moveTokens (program source dest authority : Pubkey) (amount : Nat) (signs : Pubkey → Bool)
    (b : Bank) : Except UInt64 Bank := do
  ensure (isToken program (b source) ∧ isToken program (b dest)) 2
  ensure (amount ≤ tokenBalance (b source)) 1
  ensure (bytesAt (b source).data 0 32 = bytesAt (b dest).data 0 32) 3
  ensure (mayMove (b source) authority amount ∧ signs authority) 4
  if source = dest then return b
  else
    ensure (tokenBalance (b dest) + amount < 2 ^ 64) 14
    return movedBank source dest authority amount b

def closedBank (account destination : Pubkey) (b : Bank) : Bank :=
  let lamports := (b destination).lamports + (b account).lamports
  Function.update (Function.update b destination { b destination with lamports := lamports }) account
    ⟨0, [], ZERO_PUBKEY⟩

def closeToken (program account destination authority : Pubkey) (signs : Pubkey → Bool) (b : Bank) :
    Except UInt64 Bank := do
  ensure (isToken program (b account)) 2
  ensure (account ≠ destination) 2
  ensure (tokenBalance (b account) = 0) 11
  ensure (ownerIs (b account) authority ∧ signs authority) 4
  return closedBank account destination b

/-- `set_authority` of the account owner, which also ends a delegation. -/
def setOwner (program account authority newOwner : Pubkey) (signs : Pubkey → Bool) (b : Bank) :
    Except UInt64 Bank := do
  ensure (isToken program (b account)) 2
  ensure (ownerIs (b account) authority ∧ signs authority) 4
  let data := writeAt (writeAt (b account).data 32 newOwner.bytes) 72 [0, 0, 0, 0]
  return Function.update b account { b account with data := data }

def token (program : Pubkey) (signs : Pubkey → Bool) (b : Bank) : TokenInstruction → Except UInt64 Bank
  | .transfer source dest authority amount =>
      moveTokens program source dest authority amount.toNat signs b
  | .transferChecked source _ dest authority amount _ =>
      moveTokens program source dest authority amount.toNat signs b
  | .closeAccount account destination authority =>
      closeToken program account destination authority signs b
  | .setAuthority account authority .accountOwner (some newOwner) =>
      setOwner program account authority newOwner signs b
  | _ => .error 12

/-- `create_associated_token_account_idempotent`, on the address it is given. -/
def createAta (program owner mint ata : Pubkey) (b : Bank) : Except UInt64 Bank :=
  if accountExists (b ata) then do
    ensure (ownerIs (b ata) owner) 2
    return b
  else do
    ensure ((b ata).data = []) 2
    let data := mint.bytes ++ owner.bytes ++ leBytes 8 0 ++ List.replicate 36 0 ++ [1]
      ++ List.replicate 56 0
    return Function.update b ata ⟨2039280, data, program⟩

def moveLamports (source dest : Pubkey) (amount : Nat) (b : Bank) : Except UInt64 Bank := do
  ensure ((b source).data = [] ∧ amount ≤ (b source).lamports) 1
  let b₁ := Function.update b source { b source with lamports := (b source).lamports - amount }
  return Function.update b₁ dest { b₁ dest with lamports := (b₁ dest).lamports + amount }

/-! ## The runtime -/

def SPL_TOKEN_ID : Pubkey := Pubkey.fill 201
def TOKEN_PROGRAM_2022_ID : Pubkey := Pubkey.fill 202
def NATIVE_MINT_ID : Pubkey := Pubkey.fill 203

/-- A venue program: the token instructions it answers a CPI with, and the address it signs for. -/
structure VenueProgram where
  respond : Instruction → List TokenInstruction
  authority : Pubkey

/-- Who signs the instructions of a venue: whoever signed the CPI it was called with, and itself. -/
def VenueProgram.signs (venue : VenueProgram) (ix : Instruction) (k : Pubkey) : Bool :=
  ix.accounts.any (fun m => decide (m.pubkey = k) && m.isSigner) || decide (k = venue.authority)

/-- The runtime of a TitanPDA and a venue program. With seeds the TitanPDA signs. -/
def runtime (titanPda : Pubkey) (venue : VenueProgram) : Runtime where
  SPL_TOKEN_ID := SPL_TOKEN_ID
  TOKEN_PROGRAM_2022_ID := TOKEN_PROGRAM_2022_ID
  NATIVE_MINT_ID := NATIVE_MINT_ID
  invokeToken program ix infos seeds b :=
    token program (fun k => infos.any (fun a => decide (a.key = k) && a.isSigner)
      || (!seeds.isEmpty && decide (k = titanPda))) b ix
  createAssociatedTokenAccountIdempotent _ owner mint ata tokenProgram _ b :=
    createAta tokenProgram.key owner.key mint.key ata.key b
  systemTransfer source dest amount b := moveLamports source.key dest.key amount.toNat b
  invokeSigned ix _ _ b :=
    (venue.respond ix).foldlM (token SPL_TOKEN_ID (venue.signs ix)) b

/-! ## It obeys the laws -/

variable {program source dest authority k : Pubkey} {n : Nat} {signs : Pubkey → Bool} {b b' : Bank}

/-- Spending a delegation leaves the balance and the length. -/
theorem spendDelegation_frame (authority : Pubkey) (n : Nat) {a : Account}
    (h : 165 ≤ a.data.length) :
    tokenBalance (spendDelegation a authority n) = tokenBalance a ∧
      (spendDelegation a authority n).data.length = a.data.length := by
  have h121 : 121 + (leBytes 8 0).length ≤ a.data.length := by simp; omega
  unfold spendDelegation
  split
  · exact ⟨rfl, rfl⟩
  · split
    · have h72 : 72 + [(0 : UInt8), 0, 0, 0].length ≤ (writeAt a.data 121 (leBytes 8 0)).length := by
        rw [length_writeAt h121]
        simp
        omega
      refine ⟨?_, by rw [length_writeAt h72, length_writeAt h121]⟩
      rw [← tokenBalance_writeAt (a := a) (by omega) h121]
      exact tokenBalance_writeAt (a := { a with data := writeAt a.data 121 (leBytes 8 0) }) (by omega) h72
    · have h121' : 121 + (leBytes 8 (delegatedAmount a - n)).length ≤ a.data.length := by simp; omega
      exact ⟨tokenBalance_writeAt (by omega) h121', length_writeAt h121'⟩

theorem movedBank_moves (hs : 165 ≤ (b source).data.length) (hd : 165 ≤ (b dest).data.length)
    (hfunds : n ≤ tokenBalance (b source)) (hroom : tokenBalance (b dest) + n < 2 ^ 64)
    (hne : source ≠ dest) :
    Moves source dest n (balances b) (balances (movedBank source dest authority n b)) := by
  have hlt := tokenBalance_lt (b source)
  obtain ⟨-, hlen⟩ := spendDelegation_frame authority n hs
  refine ⟨hfunds, fun _ => ?_, fun _ => ?_, fun h => absurd h hne, ?_⟩
  · simp only [balances, movedBank, Function.update_of_ne hne, Function.update_self]
    exact tokenBalance_setAmount (by omega) (by omega)
  · simp only [balances, movedBank, Function.update_self]
    exact tokenBalance_setAmount (by omega) hroom
  · intro k hks hkd
    simp only [balances, movedBank, Function.update_of_ne hks, Function.update_of_ne hkd]

theorem moveTokens_moves (h : moveTokens program source dest authority n signs b = .ok b') :
    Moves source dest n (balances b) (balances b') := by
  unfold moveTokens at h
  simp only [Except.bind_eq_ok, ensure_eq_ok, isToken, Bool.and_eq_true, decide_eq_true_eq] at h
  obtain ⟨_, ⟨⟨-, hs⟩, -, hd⟩, _, hfunds, _, -, _, -, h⟩ := h
  split at h
  next hself =>
    obtain rfl := Except.pure_eq_ok.mp h
    exact ⟨hfunds, fun hne => absurd hself hne, fun hne => absurd hself hne, fun _ => rfl,
      fun _ _ _ => rfl⟩
  next hne =>
    simp only [Except.bind_eq_ok, ensure_eq_ok, Except.pure_eq_ok] at h
    obtain ⟨_, hroom, rfl⟩ := h
    exact movedBank_moves hs hd hfunds hroom hne

theorem closeToken_frame {account destination : Pubkey}
    (h : closeToken program account destination authority signs b = .ok b') :
    (b' account).data = [] ∧
      ∀ k, k ≠ account → (b' k).data = (b k).data ∧ (b' k).owner = (b k).owner := by
  unfold closeToken at h
  simp only [Except.bind_eq_ok, ensure_eq_ok, Except.pure_eq_ok] at h
  obtain ⟨_, -, _, -, _, -, _, -, rfl⟩ := h
  refine ⟨by simp [closedBank], fun k hk => ?_⟩
  unfold closedBank
  rw [Function.update_of_ne hk]
  by_cases hkd : k = destination
  · subst hkd
    rw [Function.update_self]
    exact ⟨rfl, rfl⟩
  · rw [Function.update_of_ne hkd]
    exact ⟨rfl, rfl⟩

theorem closeToken_balances {account destination : Pubkey}
    (h : closeToken program account destination authority signs b = .ok b') :
    balances b' account = 0 ∧ ∀ k, k ≠ account → balances b' k = balances b k := by
  obtain ⟨hnil, hother⟩ := closeToken_frame h
  exact ⟨tokenBalance_of_nil hnil, fun k hk => balances_congr (hother k hk).1⟩

/-- What a creation does: nothing to an account that exists, and otherwise one account is written that was
    empty. -/
theorem createAta_cases {owner mint ata : Pubkey} (h : createAta program owner mint ata b = .ok b') :
    (accountExists (b ata) = true ∧ b' = b) ∨
      ((b ata).data = [] ∧ ∃ a, accountExists a = true ∧ b' = Function.update b ata a) := by
  unfold createAta at h
  split at h
  next hexists =>
    simp only [Except.bind_eq_ok, ensure_eq_ok, Except.pure_eq_ok] at h
    obtain ⟨_, -, rfl⟩ := h
    exact Or.inl ⟨hexists, rfl⟩
  next =>
    simp only [Except.bind_eq_ok, ensure_eq_ok, Except.pure_eq_ok] at h
    obtain ⟨_, hempty, rfl⟩ := h
    refine Or.inr ⟨hempty, _, ?_, rfl⟩
    simp only [accountExists, List.length_append, List.length_replicate, mint.length_eq,
      owner.length_eq, length_leBytes]
    rfl

theorem createAta_other {owner mint ata : Pubkey} (h : createAta program owner mint ata b = .ok b')
    {k : Pubkey} (hk : k ≠ ata) : b' k = b k := by
  rcases createAta_cases h with ⟨-, rfl⟩ | ⟨-, a, -, rfl⟩
  · rfl
  · exact Function.update_of_ne hk _ _

theorem createAta_spec {owner mint ata : Pubkey} (h : createAta program owner mint ata b = .ok b') :
    accountExists (b' ata) = true ∧ (∀ k, accountExists (b k) = true → accountExists (b' k) = true) ∧
      ∀ k, balances b k ≤ balances b' k := by
  rcases createAta_cases h with ⟨hexists, rfl⟩ | ⟨hempty, a, ha, rfl⟩
  · exact ⟨hexists, fun _ hk => hk, fun _ => Nat.le_refl _⟩
  · refine ⟨by rwa [Function.update_self], fun k hk => ?_, fun k => ?_⟩
    · by_cases hka : k = ata
      · rw [hka, Function.update_self]
        exact ha
      · rwa [Function.update_of_ne hka]
    · by_cases hka : k = ata
      · have hzero : balances b k = 0 := by
          rw [hka]
          exact tokenBalance_of_nil hempty
        omega
      · simp only [balances, Function.update_of_ne hka]
        exact Nat.le_refl _

/-- Lamports written to an account leave data and owners alone. -/
theorem update_lamports_frame (b : Bank) (x : Pubkey) (lamports : Nat) (k : Pubkey) :
    (Function.update b x { b x with lamports } k).data = (b k).data ∧
      (Function.update b x { b x with lamports } k).owner = (b k).owner := by
  by_cases hk : k = x
  · subst hk
    rw [Function.update_self]
    exact ⟨rfl, rfl⟩
  · rw [Function.update_of_ne hk]
    exact ⟨rfl, rfl⟩

theorem moveLamports_frame (h : moveLamports source dest n b = .ok b') (k : Pubkey) :
    (b' k).data = (b k).data ∧ (b' k).owner = (b k).owner := by
  unfold moveLamports at h
  simp only [Except.bind_eq_ok, ensure_eq_ok, Except.pure_eq_ok] at h
  obtain ⟨_, -, rfl⟩ := h
  obtain ⟨hdata, howner⟩ := update_lamports_frame b source ((b source).lamports - n) k
  obtain ⟨hdata', howner'⟩ := update_lamports_frame (Function.update b source _) dest _ k
  exact ⟨hdata'.trans hdata, howner'.trans howner⟩

/-- **The reference token program obeys the laws** the route relies on, whatever the venues do. -/
theorem tokenLaws (titanPda : Pubkey) (venue : VenueProgram) : TokenLaws (runtime titanPda venue) where
  transfer h := by
    simp only [runtime, token] at h
    exact (moveTokens_moves h).debits
  transferChecked h := by
    simp only [runtime, token] at h
    exact (moveTokens_moves h).debits
  closeAccount h := by
    simp only [runtime, token] at h
    exact closeToken_balances h
  syncNative h := absurd h (by simp [runtime, token])
  createAta h := createAta_spec h
  systemTransfer h k := Nat.le_of_eq (balances_congr (moveLamports_frame h k).1).symm

/-- None of its mints has a fee. -/
theorem exactTransfers (titanPda : Pubkey) (venue : VenueProgram) (mint : Pubkey) :
    ExactTransfers (runtime titanPda venue) mint where
  transfer h := by
    simp only [runtime, token] at h
    exact moveTokens_moves h
  transferChecked h := by
    simp only [runtime, token] at h
    exact moveTokens_moves h

/-! ## A sample route

One leg over two mints `A` and `B`: the user's input account, the ATAs of the TitanPDA, a pool with two
vaults, and one more account the TitanPDA keeps tokens of mint `A` in. -/

namespace Sample

def payer := Pubkey.fill 1
def user := Pubkey.fill 2
def titanPda := Pubkey.fill 3
def userA := Pubkey.fill 4
def userB := Pubkey.fill 5
def titanA := Pubkey.fill 6
def titanB := Pubkey.fill 7
def vaultA := Pubkey.fill 8
def vaultB := Pubkey.fill 9
def pool := Pubkey.fill 10
def mintA := Pubkey.fill 11
def mintB := Pubkey.fill 12
def venueProgram := Pubkey.fill 13
def keptA := Pubkey.fill 14
def stranger := Pubkey.fill 15

/-- A token account; with a delegate, all of the amount is delegated. -/
def tokenAccount (mint owner : Pubkey) (amount : Nat) (delegate : Option Pubkey) : Account :=
  let delegation := match delegate with
    | some k => [1, 0, 0, 0] ++ k.bytes
    | none   => List.replicate 36 0
  let delegated := if delegate.isSome then amount else 0
  { lamports := 2039280
    data := mint.bytes ++ owner.bytes ++ leBytes 8 amount ++ delegation ++ [1] ++ List.replicate 12 0
      ++ leBytes 8 delegated ++ List.replicate 36 0
    owner := SPL_TOKEN_ID }

def mintAccount : Account :=
  ⟨1461600, List.replicate 44 0 ++ [6] ++ List.replicate 37 0, SPL_TOKEN_ID⟩

/-- The user is a delegate of the account the TitanPDA keeps apart. -/
def bank : Bank := fun k =>
  if k = userA then tokenAccount mintA user 3000 none
  else if k = userB then tokenAccount mintB user 0 none
  else if k = titanA then tokenAccount mintA titanPda 70 none
  else if k = titanB then tokenAccount mintB titanPda 0 none
  else if k = vaultA then tokenAccount mintA pool 50000 none
  else if k = vaultB then tokenAccount mintB pool 50000 none
  else if k = keptA then tokenAccount mintA titanPda 5000 (some user)
  else if k = mintA ∨ k = mintB then mintAccount
  else ⟨1000000, [], ZERO_PUBKEY⟩

def signer (k : Pubkey) : AccountInfo := ⟨k, true, true⟩
def writable (k : Pubkey) : AccountInfo := ⟨k, false, true⟩
def readonly (k : Pubkey) : AccountInfo := ⟨k, false, false⟩

/-- The accounts of the route, with `input` as the user's input account. -/
def ctx (input : Pubkey) : Ctx where
  payer := signer payer
  user := signer user
  titanPda := readonly titanPda
  bump := 254
  inputTokenAccount := writable input
  outputTokenAccount := writable userB
  tokenProgram := readonly SPL_TOKEN_ID
  token2022Program := readonly TOKEN_PROGRAM_2022_ID
  systemProgram := readonly ZERO_PUBKEY
  tokenLedger := none
  remainingAccounts := [writable titanA, writable titanB, readonly mintA, readonly mintB,
    readonly titanPda, writable titanA, writable vaultA, writable vaultB, writable titanB, readonly pool,
    writable keptA, readonly venueProgram]
  remaining_le := by decide

/-- The whole deposit goes through the pool. -/
def swaps : List SwapSpecInputV2 := [⟨.byrealClmm true, 0, 1, 1000000000, 8⟩]

/-- The amount of a `swap_v3_dyn` instruction. -/
def amountOf (ix : Instruction) : UInt64 := UInt64.ofNat (leNat ((ix.data.drop 8).take 8))

theorem amountOf_swapV3Dyn (program : Pubkey) (n : UInt64) (metas : List AccountMeta) :
    ∀ ix ∈ swapV3Dyn program n metas, amountOf ix = n := by
  intro ix h
  obtain rfl := List.mem_singleton.mp h
  have hfield : ((SWAP_V3_DYN_DISCRIMINATOR ++ leBytes 8 n.toNat ++ leBytes 8 0 ++ leBytes 16 0
      ++ [1]).drop 8).take 8 = leBytes 8 n.toNat := rfl
  rw [amountOf, hfield, leNat_leBytes (by simpa using n.toNat_lt), UInt64.ofNat_toNat]

/-- A pool that takes the amount it is given and pays out as much. -/
def exchange : VenueProgram where
  respond ix := [.transfer titanA vaultA titanPda (amountOf ix),
    .transfer vaultB titanB pool (amountOf ix)]
  authority := pool

/-- A program that moves nothing, and has the account the TitanPDA keeps apart assigned to a stranger. -/
def thief : VenueProgram where
  respond _ := [.setAuthority keptA titanPda .accountOwner (some stranger)]
  authority := stranger

/-! A longer route goes over a third mint `C` in four legs: half of the deposit to `B`, half of that to
    `C`, and the rest of both the same way. -/

def mintC := Pubkey.fill 16
def titanC := Pubkey.fill 17
def vaultC := Pubkey.fill 18
def userC := Pubkey.fill 19

def longBank : Bank := fun k =>
  if k = titanB then tokenAccount mintB titanPda 9 none
  else if k = titanC then tokenAccount mintC titanPda 40 none
  else if k = vaultC then tokenAccount mintC pool 50000 none
  else if k = userC then tokenAccount mintC user 0 none
  else if k = mintC then mintAccount
  else bank k

/-- The accounts of a leg from `source` to `dest`, with the vaults that it trades with. -/
def legOf (source sourceVault destVault dest : Pubkey) : List AccountInfo :=
  [readonly titanPda, writable source, writable sourceVault, writable destVault, writable dest,
    readonly pool, readonly venueProgram]

def longCtx : Ctx :=
  { ctx userA with
    outputTokenAccount := writable userC
    remainingAccounts :=
      [writable titanA, writable titanB, writable titanC, readonly mintA, readonly mintB,
        readonly mintC] ++ legOf titanA vaultA vaultB titanB ++ legOf titanB vaultB vaultC titanC ++
        legOf titanA vaultA vaultB titanB ++ legOf titanB vaultB vaultC titanC ++ [writable keptA]
    remaining_le := by decide }

def longSwaps : List SwapSpecInputV2 :=
  [⟨.byrealClmm true, 0, 1, 500000000, 7⟩, ⟨.byrealClmm true, 1, 2, 500000000, 7⟩,
    ⟨.byrealClmm true, 0, 1, 1000000000, 7⟩, ⟨.byrealClmm true, 1, 2, 1000000000, 7⟩]

/-- What the dealer pays: one `B` for two `A`, and `C` less a tenth. -/
def paid (dest : Pubkey) (n : UInt64) : UInt64 := if dest = titanB then n / 2 else n - n / 10

/-- A venue that trades between the accounts it is called with. -/
def dealer : VenueProgram where
  respond ix :=
    match ix.accounts.map AccountMeta.pubkey with
    | [_, source, sourceVault, destVault, dest, _] =>
        [.transfer source sourceVault titanPda (amountOf ix),
          .transfer destVault dest pool (paid dest (amountOf ix))]
    | _ => []
  authority := pool

end Sample

end ByrealTitan.Program.Reference
