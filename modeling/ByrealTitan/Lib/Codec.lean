import ByrealTitan.Lib.LittleEndian

/-!
# `Lib.Codec` — prefix codecs that are inverse both ways

A `Codec α` is an encoder and a prefix decoder with the two round-trip laws as fields: what was encoded
decodes back and leaves the following bytes alone (`decode_encode`), and whatever decodes *is* the
encoding of the decoded value (`encode_decode`). The second law is what excludes a second encoding of
one value, so a codec is a bijection between the values that `Fits` and the byte strings it accepts
(`read_eq_some`).

The combinators (`byte`, `word`, `flag`, `tag`, `prod`, `iso`, `counted`, `vec`) keep both laws, so a
format assembled from them needs no proof of its own.
-/

open LittleEndian

/-- An encoder and a prefix decoder, inverse to each other on the values that `Fits`. -/
structure Codec (α : Type) where
  encode : α → List UInt8
  decode : List UInt8 → Option (α × List UInt8)
  /-- The values the format has room for. -/
  Fits : α → Prop
  decode_encode : ∀ {a}, Fits a → ∀ rest, decode (encode a ++ rest) = some (a, rest)
  encode_decode : ∀ {bs a rest}, decode bs = some (a, rest) → Fits a ∧ bs = encode a ++ rest

namespace Codec

variable {α β : Type}

/-! ## Whole-input reading -/

/-- Decode an input that must be used up to its last byte. -/
def read (c : Codec α) (bs : List UInt8) : Option α :=
  match c.decode bs with
  | some (a, []) => some a
  | _            => none

/-- **A codec is a bijection**: the inputs it reads are exactly the encodings of the values that fit. -/
theorem read_eq_some (c : Codec α) {bs : List UInt8} {a : α} :
    c.read bs = some a ↔ c.Fits a ∧ bs = c.encode a := by
  constructor
  · intro h
    unfold read at h
    split at h
    next a' hdec =>
      obtain ⟨hfit, hbs⟩ := c.encode_decode hdec
      obtain rfl : a' = a := Option.some.inj h
      exact ⟨hfit, by simpa using hbs⟩
    · exact absurd h (by simp)
  · rintro ⟨hfit, rfl⟩
    have hdec := c.decode_encode hfit []
    rw [List.append_nil] at hdec
    simp only [read, hdec]

/-! ## Leaves -/

/-- One byte. -/
def byte : Codec UInt8 where
  encode b := [b]
  decode
    | b :: rest => some (b, rest)
    | []        => none
  Fits _ := True
  decode_encode := by intro b _ rest; rfl
  encode_decode := by
    intro bs b rest h
    cases bs with
    | nil => exact absurd h (by simp)
    | cons c cs =>
        simp only [Option.some.injEq, Prod.mk.injEq] at h
        exact ⟨trivial, by simp [h.1, h.2]⟩

/-- A little-endian word of `k` bytes. -/
def word (k : Nat) : Codec Nat where
  encode n := leBytes k n
  decode bs := if k ≤ bs.length then some (leNat (bs.take k), bs.drop k) else none
  Fits n := n < 256 ^ k
  decode_encode := by
    intro n hn rest
    have hlen : (leBytes k n).length = k := length_leBytes k n
    rw [if_pos (by simp [hlen]), List.take_left' hlen, List.drop_left' hlen, leNat_leBytes hn]
  encode_decode := by
    intro bs n rest h
    split at h
    next hk =>
      simp only [Option.some.injEq, Prod.mk.injEq] at h
      obtain ⟨rfl, rfl⟩ := h
      have hlen : (bs.take k).length = k := by rw [List.length_take]; omega
      refine ⟨?_, ?_⟩
      · have := leNat_lt (bs.take k)
        rwa [hlen] at this
      · have := leBytes_leNat (bs.take k)
        rw [hlen] at this
        rw [this, List.take_append_drop]
    · exact absurd h (by simp)

/-- A Boolean as one byte, `0` or `1`; any other byte is refused. -/
def flag : Codec Bool where
  encode b := [if b then 1 else 0]
  decode
    | 0 :: rest => some (false, rest)
    | 1 :: rest => some (true, rest)
    | _         => none
  Fits _ := True
  decode_encode := by intro b _ rest; cases b <;> rfl
  encode_decode := by
    intro bs b rest h
    split at h
    · simp only [Option.some.injEq, Prod.mk.injEq] at h
      obtain ⟨rfl, rfl⟩ := h
      exact ⟨trivial, rfl⟩
    · simp only [Option.some.injEq, Prod.mk.injEq] at h
      obtain ⟨rfl, rfl⟩ := h
      exact ⟨trivial, rfl⟩
    · exact absurd h (by simp)

/-- A fixed byte in front, such as the tag of an enum variant. -/
def tag (t : UInt8) : Codec Unit where
  encode _ := [t]
  decode
    | b :: rest => if b = t then some ((), rest) else none
    | []        => none
  Fits _ := True
  decode_encode := by intro _ _ rest; simp
  encode_decode := by
    intro bs a rest h
    cases bs with
    | nil => exact absurd h (by simp)
    | cons b bs =>
        by_cases hb : b = t
        · simp only [hb, if_true, Option.some.injEq, Prod.mk.injEq, true_and] at h
          exact ⟨trivial, by simp [hb, h]⟩
        · simp [hb] at h

/-! ## Combinators -/

/-- One value after the other. -/
def prod (c : Codec α) (d : Codec β) : Codec (α × β) where
  encode p := c.encode p.1 ++ d.encode p.2
  decode bs := do
    let (a, bs) ← c.decode bs
    let (b, bs) ← d.decode bs
    pure ((a, b), bs)
  Fits p := c.Fits p.1 ∧ d.Fits p.2
  decode_encode := by
    rintro ⟨a, b⟩ ⟨ha, hb⟩ rest
    simp [List.append_assoc, c.decode_encode ha, d.decode_encode hb]
  encode_decode := by
    rintro bs ⟨a, b⟩ rest h
    cases hc : c.decode bs with
    | none => simp [hc] at h
    | some p =>
        obtain ⟨a', bs'⟩ := p
        cases hd : d.decode bs' with
        | none => simp [hc, hd] at h
        | some q =>
            obtain ⟨b', rest'⟩ := q
            simp only [hc, hd, Option.bind_eq_bind, Option.bind_some, Option.pure_def,
              Option.some.injEq, Prod.mk.injEq] at h
            obtain ⟨⟨rfl, rfl⟩, rfl⟩ := h
            obtain ⟨ha, rfl⟩ := c.encode_decode hc
            obtain ⟨hb, rfl⟩ := d.encode_decode hd
            exact ⟨⟨ha, hb⟩, by simp⟩

/-- The same bytes read as another type, along functions that are inverse on the values that fit. -/
def iso (c : Codec α) (f : α → β) (g : β → α) (hgf : ∀ {a}, c.Fits a → g (f a) = a)
    (hfg : ∀ b, f (g b) = b) : Codec β where
  encode b := c.encode (g b)
  decode bs := (c.decode bs).map fun p => (f p.1, p.2)
  Fits b := c.Fits (g b)
  decode_encode := by
    intro b hb rest
    simp [c.decode_encode hb, hfg]
  encode_decode := by
    intro bs b rest h
    obtain ⟨⟨a, rest'⟩, hdec, heq⟩ := Option.map_eq_some_iff.mp h
    simp only [Prod.mk.injEq] at heq
    obtain ⟨rfl, rfl⟩ := heq
    rw [hgf (c.encode_decode hdec).1]
    exact c.encode_decode hdec

/-- Exactly `n` values in a row. -/
def decodeCounted (c : Codec α) : Nat → List UInt8 → Option (List α × List UInt8)
  | 0,     bs => some ([], bs)
  | n + 1, bs => do
      let (a, bs) ← c.decode bs
      let (as, bs) ← decodeCounted c n bs
      pure (a :: as, bs)

theorem decodeCounted_encode (c : Codec α) {as : List α} (h : ∀ a ∈ as, c.Fits a)
    (rest : List UInt8) :
    decodeCounted c as.length (as.flatMap c.encode ++ rest) = some (as, rest) := by
  induction as with
  | nil => rfl
  | cons a as ih =>
      have ha : c.Fits a := h a (by simp)
      have has := ih (fun b hb => h b (by simp [hb]))
      simp [decodeCounted, List.append_assoc, c.decode_encode ha, has]

theorem encode_decodeCounted (c : Codec α) :
    ∀ {n : Nat} {bs : List UInt8} {as : List α} {rest : List UInt8},
      decodeCounted c n bs = some (as, rest) →
        as.length = n ∧ (∀ a ∈ as, c.Fits a) ∧ bs = as.flatMap c.encode ++ rest := by
  intro n
  induction n with
  | zero =>
      intro bs as rest h
      simp only [decodeCounted, Option.some.injEq, Prod.mk.injEq] at h
      obtain ⟨rfl, rfl⟩ := h
      simp
  | succ n ih =>
      intro bs as rest h
      cases hc : c.decode bs with
      | none => simp [decodeCounted, hc] at h
      | some p =>
          obtain ⟨a, bs'⟩ := p
          cases hd : decodeCounted c n bs' with
          | none => simp [decodeCounted, hc, hd] at h
          | some q =>
              obtain ⟨as', rest'⟩ := q
              simp only [decodeCounted, hc, hd, Option.bind_eq_bind, Option.bind_some,
                Option.pure_def, Option.some.injEq, Prod.mk.injEq] at h
              obtain ⟨rfl, rfl⟩ := h
              obtain ⟨hlen, hfit, rfl⟩ := ih hd
              obtain ⟨ha, rfl⟩ := c.encode_decode hc
              refine ⟨by simp [hlen], ?_, by simp⟩
              intro b hb
              rcases List.mem_cons.mp hb with rfl | hb
              · exact ha
              · exact hfit b hb

/-- A list behind its own length, a little-endian word of `k` bytes. -/
def vec (k : Nat) (c : Codec α) : Codec (List α) where
  encode as := (word k).encode as.length ++ as.flatMap c.encode
  decode bs := do
    let (n, bs) ← (word k).decode bs
    decodeCounted c n bs
  Fits as := as.length < 256 ^ k ∧ ∀ a ∈ as, c.Fits a
  decode_encode := by
    rintro as ⟨hlen, hfit⟩ rest
    rw [List.append_assoc, (word k).decode_encode hlen]
    exact decodeCounted_encode c hfit rest
  encode_decode := by
    intro bs as rest h
    cases hn : (word k).decode bs with
    | none => simp [hn] at h
    | some p =>
        obtain ⟨n, bs'⟩ := p
        simp only [hn, Option.bind_eq_bind, Option.bind_some] at h
        obtain ⟨rfl, hfit, rfl⟩ := encode_decodeCounted c h
        obtain ⟨hlt, rfl⟩ := (word k).encode_decode hn
        exact ⟨⟨hlt, hfit⟩, by simp⟩

end Codec
