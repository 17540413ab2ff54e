import Mathlib.Algebra.Order.Ring.Int

/-!
# `Base.Account` — addresses and accounts

The two Solana types every layer shares: the 32-byte `Pubkey` (its length is a field, so no address of
another size can be built) and the `Account` with the parts the integration reads. `executable` and
`rent_epoch` are never read and are left out.
-/

namespace ByrealTitan

/-- A 32-byte address. -/
structure Pubkey where
  bytes : List UInt8
  length_eq : bytes.length = 32
deriving DecidableEq

namespace Pubkey

theorem eq_of_bytes {a b : Pubkey} (h : a.bytes = b.bytes) : a = b := by
  cases a
  cases b
  cases h
  rfl

/-- `Pubkey::new_from_array([b; 32])`. -/
def fill (b : UInt8) : Pubkey := ⟨List.replicate 32 b, List.length_replicate⟩

/-- The `try_into` of a byte slice: only 32 bytes make an address. -/
def ofSlice (bs : List UInt8) : Option Pubkey :=
  if h : bs.length = 32 then some ⟨bs, h⟩ else none

def base58Alphabet : List Char :=
  "123456789ABCDEFGHJKLMNPQRSTUVWXYZabcdefghijkmnopqrstuvwxyz".toList

/-- The base-58 digits of `n`, most significant first, in front of `acc`. -/
def base58Digits : Nat → Nat → List Char → List Char
  | 0,        _, acc => acc
  | fuel + 1, n, acc =>
    if n = 0 then acc
    else base58Digits fuel (n / 58) (base58Alphabet.getD (n % 58) '1' :: acc)

/-- `Display`: base 58, a leading `1` for each leading zero byte. A 32-byte number has at most 44
    digits. -/
def toText (k : Pubkey) : String :=
  let n := k.bytes.foldl (fun acc b => 256 * acc + b.toNat) 0
  String.ofList ((k.bytes.takeWhile (· == 0)).map (fun _ => '1') ++ base58Digits 44 n [])

end Pubkey

/-- `const ZERO_PUBKEY`. -/
def ZERO_PUBKEY : Pubkey := Pubkey.fill 0

/-- An account as the integration and the program read it. -/
structure Account where
  lamports : Nat
  data : List UInt8
  owner : Pubkey
deriving DecidableEq

end ByrealTitan
