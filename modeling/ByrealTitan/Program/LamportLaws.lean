import ByrealTitan.Program.TokenLaws

/-!
# `Program.LamportLaws` — what the deposit relies on where SOL is wrapped

A wrapped-SOL account holds its tokens as lamports, above a reserve that pays its rent: lamports move
with the tokens, and `sync_native` recounts the tokens. `DepositLaws` is the documented behaviour of the
token, associated-token and system programs on tokens and lamports together, as far as the deposit calls
them.
-/

namespace ByrealTitan.Program

open LittleEndian Reserve

/-- The lamports of every account. -/
def lamports (bank : Bank) : Pubkey → Nat := fun k => (bank k).lamports

/-- `is_native` of an SPL token account: the reserve of a wrapped-SOL account, behind a four-byte tag. -/
def nativeReserve (a : Account) : Option Nat :=
  if bytesAt a.data 109 113 = some [1, 0, 0, 0] then (bytesAt a.data 113 121).map leNat else none

/-- There is no account at the address. -/
structure Absent (a : Account) : Prop where
  lamports : a.lamports = 0
  data : a.data = []

/-- A wrapped-SOL account counts as tokens what it holds above its reserve. -/
def InSync (a : Account) : Prop :=
  ∀ reserve, nativeReserve a = some reserve → a.lamports = tokenBalance a + reserve

/-- Tokens that move; those of a wrapped-SOL account take their lamports along. -/
structure TokenMove (source dest : Pubkey) (n : Nat) (b b' : Bank) : Prop where
  tokens : Moves source dest n (balances b) (balances b')
  wrapped : nativeReserve (b source) ≠ none → source ≠ dest →
    Moves source dest n (lamports b) (lamports b')
  plain : nativeReserve (b source) = none ∨ source = dest → ∀ k, lamports b' k = lamports b k
  length : ∀ k, (b' k).data.length = (b k).data.length

/-- A recount of the tokens of a wrapped-SOL account. -/
structure Recount (account : Pubkey) (b b' : Bank) : Prop where
  counted : ∃ reserve, nativeReserve (b account) = some reserve ∧
    nativeReserve (b' account) = some reserve ∧
    lamports b account = balances b' account + reserve
  other : ∀ k, k ≠ account → balances b' k = balances b k
  lamports : ∀ k, lamports b' k = lamports b k
  length : ∀ k, (b' k).data.length = (b k).data.length

/-- A new wrapped-SOL account without tokens, whose rent the payer has paid. -/
structure OpensWrapped (payer account : Pubkey) (rent : Nat) (b b' : Bank) : Prop where
  reserve : nativeReserve (b' account) = some rent
  rent : Moves payer account rent (lamports b) (lamports b')
  empty : balances b' account = 0
  other : ∀ k, k ≠ account → (b' k).data = (b k).data

/-- An account that is closed, and leaves its lamports to the destination. -/
structure Closes (account destination : Pubkey) (b b' : Bank) : Prop where
  distinct : account ≠ destination
  absent : Absent (b' account)
  paid : lamports b' destination = lamports b destination + lamports b account
  other : ∀ k, k ≠ account → (b' k).data = (b k).data
  lamports : ∀ k, k ≠ account → k ≠ destination → lamports b' k = lamports b k

/-- The effect of every call the deposit makes. -/
structure DepositLaws (R : Runtime) : Prop where
  transfer : ∀ {program source dest authority amount infos seeds b b'},
    R.invokeToken program (.transfer source dest authority amount) infos seeds b = .ok b' →
      TokenMove source dest amount.toNat b b'
  transferChecked : ∀ {program source mint dest authority amount decimals infos seeds b b'},
    R.invokeToken program (.transferChecked source mint dest authority amount decimals) infos seeds b =
      .ok b' →
      TokenMove source dest amount.toNat b b'
  syncNative : ∀ {program account infos seeds b b'},
    R.invokeToken program (.syncNative account) infos seeds b = .ok b' → Recount account b b'
  closeAccount : ∀ {program account destination authority infos seeds b b'},
    R.invokeToken program (.closeAccount account destination authority) infos seeds b = .ok b' →
      Closes account destination b b'
  systemTransfer : ∀ {source dest amount b b'}, R.systemTransfer source dest amount b = .ok b' →
    Moves source.key dest.key amount.toNat (lamports b) (lamports b') ∧ ∀ k, (b' k).data = (b k).data
  createWrapped : ∀ {payer owner mint ata tokenProgram systemProgram b b'},
    R.createAssociatedTokenAccountIdempotent payer owner mint ata tokenProgram systemProgram b = .ok b' →
      mint.key = R.NATIVE_MINT_ID → Absent (b ata.key) → ∃ rent, OpensWrapped payer.key ata.key rent b b'

/-! ## What follows for the rest of the bank -/

variable {source dest account k : Pubkey} {n : Nat} {b b' : Bank}

theorem nativeReserve_congr {a a' : Account} (h : a'.data = a.data) :
    nativeReserve a' = nativeReserve a := by
  rw [nativeReserve, nativeReserve, h]

theorem TokenMove.zero (source dest : Pubkey) (b : Bank) : TokenMove source dest 0 b b where
  tokens := .zero source dest _
  wrapped _ _ := .zero source dest _
  plain _ _ := rfl
  length _ := rfl

/-- The lamports of other accounts stay. -/
theorem TokenMove.lamports_frame (h : TokenMove source dest n b b') (hs : k ≠ source) (hd : k ≠ dest) :
    lamports b' k = lamports b k := by
  by_cases hplain : nativeReserve (b source) = none ∨ source = dest
  · exact h.plain hplain k
  · rw [not_or] at hplain
    exact (h.wrapped hplain.1 hplain.2).frame k hs hd

end ByrealTitan.Program
