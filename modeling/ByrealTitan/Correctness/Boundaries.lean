import ByrealTitan.Lib.Bisect
import ByrealTitan.TradingVenue.Bounds

/-!
# `Correctness.Boundaries` — what the boundary search finds

`findBoundaries` asks a quoting function about powers of two until one quotes validly, then doubles on
until one no longer does, and bisects the two gaps. Nothing is assumed of the function: every loop
carries what its own probes have shown of the two ends (`expandLower_ok`, `expandUpper_ok`, and the
bisection rules), which is all that `FoundBounds` says. Which powers are probed decides whether anything
is found at all (`expandLower_total`): a range of valid amounts that lies between two powers of two is
missed.
-/

namespace ByrealTitan

/-! ## Valid amounts -/

variable (f : Nat → VenueRes QuoteResult)

/-- The amount quotes validly. -/
def Valid (x : Nat) : Prop := probe f x = .ok true

/-- The amount was refused: not enough liquidity, no output, or an error. -/
def Invalid (x : Nat) : Prop := probe f x = .ok false

/-- The function answers every amount with a quote or an error. -/
def Answers : Prop := ∀ x, ∃ b, probe f x = .ok b

/-- A quoting function of the source's type, as one on numbers. -/
def ofAnswers (f : UInt64 → Except TradingVenueError QuoteResult) (x : Nat) : VenueRes QuoteResult :=
  match f (UInt64.ofNat x) with
  | .ok quote => .ok quote
  | .error e  => Res.fail e

/-- Whether an answer is a valid quote; errors are not. -/
def validAnswer : Except TradingVenueError QuoteResult → Bool
  | .ok quote => validQuote quote
  | .error _  => false

theorem probe_ofAnswers (f : UInt64 → Except TradingVenueError QuoteResult) (x : Nat) :
    probe (ofAnswers f) x = .ok (validAnswer (f (UInt64.ofNat x))) := by
  unfold probe ofAnswers
  cases f (UInt64.ofNat x) with
  | ok quote => rfl
  | error e => rfl

theorem answers_ofAnswers (f : UInt64 → Except TradingVenueError QuoteResult) : Answers (ofAnswers f) :=
  fun x => ⟨_, probe_ofAnswers f x⟩

theorem valid_ofAnswers {f : UInt64 → Except TradingVenueError QuoteResult} {x : Nat} :
    Valid (ofAnswers f) x ↔ validAnswer (f (UInt64.ofNat x)) = true := by
  unfold Valid
  rw [probe_ofAnswers]
  exact ⟨Except.ok.inj, congrArg _⟩

variable {f}

theorem Invalid.not_valid {x : Nat} (h : Invalid f x) : ¬ Valid f x := by
  intro hv
  unfold Invalid at h
  unfold Valid at hv
  rw [h] at hv
  cases hv

theorem Answers.invalid (hf : Answers f) {x : Nat} (h : ¬ Valid f x) : Invalid f x := by
  obtain ⟨b, hb⟩ := hf x
  cases b with
  | true => exact absurd hb h
  | false => exact hb

/-! ## The doubling phases

`scaleUp` takes a power of two below `2^63` to the next one, and `2^63` to `U64_MAX`. -/

theorem U64_MAX_eq : U64_MAX = 18446744073709551615 := rfl

theorem scaleUp_pow {i : Nat} (hi : i < 63) :
    scaleUp (2 ^ i) = 2 ^ (i + 1) ∧ 2 ^ i < 2 ^ (i + 1) ∧ 2 ^ (i + 1) < U64_MAX := by
  have hpow : 2 ^ (i + 1) ≤ 2 ^ 63 := Nat.pow_le_pow_right (by omega) (by omega)
  have hpos : 0 < 2 ^ i := Nat.two_pow_pos i
  have hsucc : (2 : Nat) ^ (i + 1) = 2 ^ i * 2 := Nat.pow_succ 2 i
  unfold scaleUp SCALING_FACTOR
  rw [U64_MAX_eq]
  omega

theorem scaleUp_top : scaleUp (2 ^ 63) = U64_MAX := by decide

theorem pow_lt_max {i : Nat} (hi : i ≤ 63) : 2 ^ i < U64_MAX := by
  have hpow : 2 ^ i ≤ 2 ^ 63 := Nat.pow_le_pow_right (by omega) hi
  rw [U64_MAX_eq]
  omega

theorem scaleUp_le (x : Nat) : scaleUp x ≤ U64_MAX := Nat.min_le_right _ _

variable {fuel low high l h : Nat}

/-- Phase 1 leaves zero or a refused amount below, and a valid one above unless it gave up. -/
theorem expandLower_ok (hlow : low = 0 ∨ Invalid f low) (hlt : low < high) (hmax : high < U64_MAX)
    (hrun : expandLower f fuel low high = .ok (l, h)) :
    (l = 0 ∨ Invalid f l) ∧ l < h ∧ h ≤ U64_MAX ∧ (h = U64_MAX ∨ Valid f h) := by
  induction fuel generalizing low high with
  | zero => cases hrun
  | succ fuel ih =>
      rw [expandLower, Except.bind_eq_ok] at hrun
      obtain ⟨valid, hprobe, hrun⟩ := hrun
      cases valid with
      | true =>
          cases hrun
          exact ⟨hlow, hlt, Nat.le_of_lt hmax, Or.inr hprobe⟩
      | false =>
          simp only [Bool.false_eq_true, if_false] at hrun
          split at hrun
          next =>
            cases hrun
            exact ⟨Or.inr hprobe, hmax, Nat.le_refl _, Or.inl rfl⟩
          next hstop =>
            rw [not_or] at hstop
            have hle := scaleUp_le high
            exact ih (Or.inr hprobe) (by omega) (by omega) hrun

/-- Phase 2 leaves a valid amount below, and a refused one or the greatest of all above. -/
theorem expandUpper_ok (hlow : Valid f low) (hlt : low < high) (hmax : high ≤ U64_MAX)
    (hrun : expandUpper f fuel low high = .ok (l, h)) :
    Valid f l ∧ low ≤ l ∧ l ≤ h ∧ h ≤ U64_MAX ∧ (h = U64_MAX ∨ Invalid f h) := by
  induction fuel generalizing low high with
  | zero => cases hrun
  | succ fuel ih =>
      rw [expandUpper, Except.bind_eq_ok] at hrun
      obtain ⟨valid, hprobe, hrun⟩ := hrun
      cases valid with
      | false =>
          cases hrun
          exact ⟨hlow, Nat.le_refl _, Nat.le_of_lt hlt, hmax, Or.inr hprobe⟩
      | true =>
          simp only [if_true] at hrun
          split at hrun
          next =>
            cases hrun
            exact ⟨hprobe, Nat.le_of_lt hlt, hmax, Nat.le_refl _, Or.inl rfl⟩
          next hstop =>
            rw [not_or] at hstop
            have hle := scaleUp_le high
            obtain ⟨hl, hfrom, hrest⟩ := ih hprobe (by omega) hle hrun
            exact ⟨hl, by omega, hrest⟩

/-- From `2^i` on, phase 1 stops at the first power of two that quotes validly, or finds none. -/
theorem expandLower_total (hf : Answers f) {i : Nat} (hi : i ≤ 63) (hfuel : 64 ≤ fuel + i) :
    ∃ l h, expandLower f fuel low (2 ^ i) = .ok (l, h) ∧
      ((∃ k, i ≤ k ∧ k ≤ 63 ∧ h = 2 ^ k ∧ Valid f (2 ^ k)) ∨
        (h = U64_MAX ∧ ∀ k, i ≤ k → k ≤ 63 → Invalid f (2 ^ k))) := by
  induction fuel generalizing low i with
  | zero => omega
  | succ fuel ih =>
      obtain ⟨valid, hprobe⟩ := hf (2 ^ i)
      rw [expandLower, hprobe, Except.ok_bind]
      cases valid with
      | true => exact ⟨low, 2 ^ i, rfl, Or.inl ⟨i, Nat.le_refl _, hi, rfl, hprobe⟩⟩
      | false =>
          simp only [Bool.false_eq_true, if_false]
          by_cases htop : i = 63
          · subst htop
            rw [if_pos (Or.inr scaleUp_top)]
            refine ⟨_, _, rfl, Or.inr ⟨rfl, fun k hk hk' => ?_⟩⟩
            obtain rfl : k = 63 := by omega
            exact hprobe
          · obtain ⟨hscale, hup, hbelow⟩ := scaleUp_pow (i := i) (by omega)
            rw [hscale, if_neg (by omega)]
            obtain ⟨l, h, hrun, hfound⟩ := @ih (2 ^ i) (i + 1) (by omega) (by omega)
            refine ⟨l, h, hrun, hfound.imp ?_ ?_⟩
            · rintro ⟨k, hk, hrest⟩
              exact ⟨k, by omega, hrest⟩
            · rintro ⟨hmax, hnone⟩
              refine ⟨hmax, fun k hk hk' => ?_⟩
              rcases Nat.eq_or_lt_of_le hk with rfl | hk
              · exact hprobe
              · exact hnone k hk hk'

/-- Phase 2 ends. -/
theorem expandUpper_total (hf : Answers f) {i : Nat} (hi : i ≤ 63) (hfuel : 64 ≤ fuel + i) :
    ∃ ends, expandUpper f fuel low (2 ^ i) = .ok ends := by
  induction fuel generalizing low i with
  | zero => omega
  | succ fuel ih =>
      obtain ⟨valid, hprobe⟩ := hf (2 ^ i)
      rw [expandUpper, hprobe, Except.ok_bind]
      cases valid with
      | false => exact ⟨_, rfl⟩
      | true =>
          simp only [if_true]
          by_cases htop : i = 63
          · subst htop
            rw [if_pos (Or.inr scaleUp_top)]
            exact ⟨_, rfl⟩
          · obtain ⟨hscale, hup, hbelow⟩ := scaleUp_pow (i := i) (by omega)
            rw [hscale, if_neg (by omega)]
            exact ih (i := i + 1) (by omega) (by omega)

/-- At the greatest amount phase 2 ends at once. -/
theorem expandUpper_max (hf : Answers f) : ∃ ends, expandUpper f (fuel + 1) low U64_MAX = .ok ends := by
  obtain ⟨valid, hprobe⟩ := hf U64_MAX
  rw [expandUpper, hprobe, Except.ok_bind]
  cases valid with
  | false => exact ⟨_, rfl⟩
  | true =>
      simp only [if_true, if_pos (Or.inl (scaleUp_le U64_MAX))]
      exact ⟨_, rfl⟩

/-! ## The refinements are bisections -/

theorem refineLower_eq (f : Nat → VenueRes QuoteResult) (fuel low high : Nat) :
    refineLower f fuel low high = Prod.snd <$> Bisect.bisect (probe f) 100 fuel low high := by
  induction fuel generalizing low high with
  | zero => rfl
  | succ fuel ih =>
      rw [refineLower, Bisect.bisect]
      cases Res.checkedSub (ε := TradingVenueError) high low with
      | error e => rfl
      | ok gap =>
          simp only [Except.ok_bind]
          by_cases hgap : 100 < gap
          · rw [if_pos hgap, if_pos hgap]
            cases hprobe : probe f (middle low high) with
            | error e =>
                rw [show Bisect.middle low high = middle low high from rfl, hprobe]
                rfl
            | ok valid =>
                rw [show Bisect.middle low high = middle low high from rfl, hprobe]
                simp only [Except.ok_bind]
                cases valid with
                | true  => exact ih _ _
                | false => exact ih _ _
          · rw [if_neg hgap, if_neg hgap]
            rfl

/-- The upper refinement goes up on a valid midpoint, so it bisects by the negated answer. -/
def refuses (f : Nat → VenueRes QuoteResult) (x : Nat) : VenueRes Bool := (! ·) <$> probe f x

theorem refineUpper_eq (f : Nat → VenueRes QuoteResult) (fuel low high : Nat) :
    refineUpper f fuel low high = Prod.fst <$> Bisect.bisect (refuses f) 100 fuel low high := by
  induction fuel generalizing low high with
  | zero => rfl
  | succ fuel ih =>
      rw [refineUpper, Bisect.bisect]
      cases Res.checkedSub (ε := TradingVenueError) high low with
      | error e => rfl
      | ok gap =>
          simp only [Except.ok_bind]
          by_cases hgap : 100 < gap
          · rw [if_pos hgap, if_pos hgap]
            unfold refuses
            rw [show Bisect.middle low high = middle low high from rfl]
            cases hprobe : probe f (middle low high) with
            | error e => rfl
            | ok valid =>
                cases valid with
                | true  => exact ih _ _
                | false => exact ih _ _
          · rw [if_neg hgap, if_neg hgap]
            rfl

theorem refuses_eq_ok {x : Nat} {b : Bool} : refuses f x = .ok b ↔ probe f x = .ok (!b) := by
  unfold refuses
  cases probe f x with
  | error e => exact ⟨nofun, nofun⟩
  | ok valid => cases valid <;> cases b <;> simp [Functor.map, Except.map]

/-! ## Soundness -/

/-- What a pair of bounds says: both ends quote validly, a hundred below the lower one lies zero or a
    refused amount, a hundred above the upper one the greatest amount or a refused one. -/
structure FoundBounds (f : Nat → VenueRes QuoteResult) (lo hi : Nat) : Prop where
  pos : 1 ≤ lo
  le : lo ≤ hi
  le_max : hi ≤ U64_MAX
  valid_lo : Valid f lo
  valid_hi : Valid f hi
  below : ∃ l, l < lo ∧ lo - l ≤ 100 ∧ (l = 0 ∨ Invalid f l)
  above : ∃ h, hi ≤ h ∧ h ≤ U64_MAX ∧ h - hi ≤ 100 ∧ (h = U64_MAX ∨ Invalid f h)

/-- The lower refinement keeps a refused amount (or zero) below a valid one. -/
theorem refineLower_ok {lo : Nat} (hlt : low < high) (hlow : low = 0 ∨ Invalid f low)
    (hhigh : Valid f high) (hrun : refineLower f fuel low high = .ok lo) :
    Valid f lo ∧ lo ≤ high ∧ ∃ l, l < lo ∧ lo - l ≤ 100 ∧ (l = 0 ∨ Invalid f l) := by
  rw [refineLower_eq, Except.map_eq_ok] at hrun
  obtain ⟨⟨l, lo⟩, hrun, rfl⟩ := hrun
  obtain ⟨hl, hvalid, -, hle, -, hstrict, hwidth⟩ :=
    Bisect.bisect_ok (A := fun x => x = 0 ∨ Invalid f x) (B := Valid f) (by omega)
      (fun m hm => Or.inr hm) (fun m hm => hm) (Nat.le_of_lt hlt) hlow hhigh hrun
  exact ⟨hvalid, hle, l, hstrict hlt, hwidth, hl⟩

/-- The upper refinement keeps a valid amount below a refused one (or the greatest). -/
theorem refineUpper_ok {hi : Nat} (hle : low ≤ high) (hmax : high ≤ U64_MAX) (hlow : Valid f low)
    (hhigh : high = U64_MAX ∨ Invalid f high) (hrun : refineUpper f fuel low high = .ok hi) :
    Valid f hi ∧ low ≤ hi ∧
      ∃ h, hi ≤ h ∧ h ≤ U64_MAX ∧ h - hi ≤ 100 ∧ (h = U64_MAX ∨ Invalid f h) := by
  rw [refineUpper_eq, Except.map_eq_ok] at hrun
  obtain ⟨⟨hi, h⟩, hrun, rfl⟩ := hrun
  obtain ⟨hvalid, hh, hfrom, hto, hord, -, hwidth⟩ :=
    Bisect.bisect_ok (A := Valid f) (B := fun x => x = U64_MAX ∨ Invalid f x) (by omega)
      (fun m hm => refuses_eq_ok.mp hm) (fun m hm => Or.inr (refuses_eq_ok.mp hm)) hle hlow hhigh hrun
  exact ⟨hvalid, hfrom, h, hord, Nat.le_trans hto hmax, hwidth, hh⟩

/-- The coarse phase brackets both boundaries, or gives up on the lower one. -/
theorem findBoundariesCoarse_ok {a b c d : Nat} (hrun : findBoundariesCoarse f = .ok (a, b, c, d)) :
    (a = 0 ∨ Invalid f a) ∧ a < b ∧ b ≤ d ∧
      (b = U64_MAX ∨ (Valid f b ∧ Valid f c ∧ b ≤ c ∧ c ≤ d ∧ d ≤ U64_MAX ∧
        (d = U64_MAX ∨ Invalid f d))) := by
  unfold findBoundariesCoarse at hrun
  rw [Except.bind_eq_ok] at hrun
  obtain ⟨⟨lowerLow, lowerHigh⟩, hlower, hrun⟩ := hrun
  have hone : 1 < U64_MAX := by decide
  obtain ⟨hlow, hlt, hle, hhigh⟩ := expandLower_ok (Or.inl rfl) Nat.one_pos hone hlower
  simp only at hrun
  split at hrun
  next hstop =>
    cases hrun
    refine ⟨hlow, hlt, Nat.le_refl _, Or.inl ?_⟩
    -- only the greatest amount does not grow under scaling
    unfold scaleUp SCALING_FACTOR at hstop
    omega
  next hgrow =>
    rw [Except.bind_eq_ok] at hrun
    obtain ⟨⟨upperLow, upperHigh⟩, hupper, hrun⟩ := hrun
    cases hrun
    have hne : b ≠ U64_MAX := by
      rintro rfl
      exact hgrow (scaleUp_le _)
    have hvalid := hhigh.resolve_left hne
    obtain ⟨hc, hbc, hcd, hd, hend⟩ :=
      expandUpper_ok hvalid (Nat.not_le.mp hgrow) (scaleUp_le _) hupper
    exact ⟨hlow, hlt, Nat.le_trans hbc hcd, Or.inr ⟨hvalid, hc, hbc, hcd, hd, hend⟩⟩

/-- **What the search returns is what its name says**, whatever function it asked. -/
theorem findBoundaries_ok {lo hi : Nat} (hrun : findBoundaries f = .ok (lo, hi)) :
    FoundBounds f lo hi := by
  unfold findBoundaries at hrun
  rw [Except.bind_eq_ok] at hrun
  obtain ⟨⟨a, b, c, d⟩, hcoarse, hrun⟩ := hrun
  obtain ⟨ha, hab, -, hfound⟩ := findBoundariesCoarse_ok hcoarse
  simp only [Except.bind_eq_ok, Res.require_eq_ok, Except.pure_eq_ok, Prod.mk.injEq] at hrun
  obtain ⟨-, -, -, hb, lo', hlo, hi', hhi, rfl, rfl⟩ := hrun
  obtain ⟨hvb, hvc, hbc, hcd, hd, hend⟩ := hfound.resolve_left hb
  obtain ⟨hvlo, hlob, l, hl, hbelow⟩ := refineLower_ok hab ha hvb hlo
  obtain ⟨hvhi, hchi, h, hhih, hhmax, habove⟩ := refineUpper_ok hcd hd hvc hend hhi
  exact ⟨by omega, by omega, by omega, hvlo, hvhi, ⟨l, hl, hbelow⟩, h, hhih, hhmax, habove⟩

/-! ## Termination -/

theorem refineLower_total (hf : Answers f) (hle : low ≤ high) (hmax : high ≤ U64_MAX) :
    ∃ lo, refineLower f SEARCH_TURNS low high = .ok lo := by
  obtain ⟨⟨l, lo⟩, hrun⟩ : ∃ ends, Bisect.bisect (probe f) 100 (64 + 1) low high = .ok ends :=
    Bisect.bisect_total (by omega) hf hle (by rw [U64_MAX_eq] at hmax; omega)
  exact ⟨lo, by rw [refineLower_eq, SEARCH_TURNS, hrun]; rfl⟩

theorem refineUpper_total (hf : Answers f) (hle : low ≤ high) (hmax : high ≤ U64_MAX) :
    ∃ hi, refineUpper f SEARCH_TURNS low high = .ok hi := by
  have hrefuses : ∀ m, ∃ b, refuses f m = .ok b := by
    intro m
    obtain ⟨b, hb⟩ := hf m
    exact ⟨!b, refuses_eq_ok.mpr (by rw [hb, Bool.not_not])⟩
  obtain ⟨⟨hi, h⟩, hrun⟩ : ∃ ends, Bisect.bisect (refuses f) 100 (64 + 1) low high = .ok ends :=
    Bisect.bisect_total (by omega) hrefuses hle (by rw [U64_MAX_eq] at hmax; omega)
  exact ⟨hi, by rw [refineUpper_eq, SEARCH_TURNS, hrun]; rfl⟩

/-- The coarse phase ends; it gives up exactly where no power of two quotes validly. -/
theorem findBoundariesCoarse_total (hf : Answers f) :
    ∃ a b c d, findBoundariesCoarse f = .ok (a, b, c, d) ∧
      ((∃ k, k ≤ 63 ∧ b ≠ U64_MAX ∧ Valid f (2 ^ k)) ∨
        (b = U64_MAX ∧ ∀ k, k ≤ 63 → Invalid f (2 ^ k))) := by
  obtain ⟨a, b, hlower, hfound⟩ := @expandLower_total f SEARCH_TURNS 0 hf 0 (by omega) (by decide)
  unfold findBoundariesCoarse
  rw [show (1 : Nat) = 2 ^ 0 from rfl, hlower, Except.ok_bind]
  simp only
  rcases hfound with ⟨k, -, hk, rfl, hvalid⟩ | ⟨rfl, hnone⟩
  · have hne : 2 ^ k ≠ U64_MAX := Nat.ne_of_lt (pow_lt_max hk)
    have hgrow : ¬ scaleUp (2 ^ k) ≤ 2 ^ k := by
      rcases Nat.eq_or_lt_of_le hk with rfl | hk
      · decide
      · obtain ⟨hscale, hup, -⟩ := scaleUp_pow hk
        omega
    obtain ⟨⟨c, d⟩, hupper⟩ : ∃ ends, expandUpper f SEARCH_TURNS (2 ^ k) (scaleUp (2 ^ k)) = .ok ends := by
      rcases Nat.eq_or_lt_of_le hk with rfl | hk
      · rw [scaleUp_top]
        show ∃ ends, expandUpper f (64 + 1) _ U64_MAX = .ok ends
        exact expandUpper_max hf
      · rw [(scaleUp_pow hk).1]
        exact expandUpper_total hf hk (by simp only [SEARCH_TURNS]; omega)
    rw [if_neg hgrow, hupper]
    exact ⟨a, 2 ^ k, c, d, rfl, Or.inl ⟨k, hk, hne, hvalid⟩⟩
  · rw [if_pos (scaleUp_le _)]
    exact ⟨a, U64_MAX, U64_MAX, U64_MAX, rfl, Or.inr ⟨rfl, fun k => hnone k (Nat.zero_le k)⟩⟩

/-- **The search ends**: with bounds where some power of two quotes validly, and otherwise with
    `NoQuotableValue`. -/
theorem findBoundaries_total (hf : Answers f) :
    ((∃ k, k ≤ 63 ∧ Valid f (2 ^ k)) ∧ ∃ lo hi, findBoundaries f = .ok (lo, hi)) ∨
      ((∀ k, k ≤ 63 → Invalid f (2 ^ k)) ∧ ∃ info, findBoundaries f = Res.fail (.noQuotableValue info))
        := by
  obtain ⟨a, b, c, d, hcoarse, hfound⟩ := findBoundariesCoarse_total hf
  obtain ⟨-, hab, hbd, hends⟩ := findBoundariesCoarse_ok hcoarse
  have hcollapse : a ≠ d := by omega
  unfold findBoundaries
  rw [hcoarse, Except.ok_bind]
  simp only [Res.require, if_pos hcollapse, Except.ok_bind]
  rcases hfound with ⟨k, hk, hb, hvalid⟩ | ⟨rfl, hnone⟩
  · obtain ⟨-, -, hbc, hcd, hd, -⟩ := hends.resolve_left hb
    obtain ⟨lo, hlo⟩ := refineLower_total hf (Nat.le_of_lt hab) (by omega)
    obtain ⟨hi, hhi⟩ := refineUpper_total hf hcd hd
    rw [if_pos hb, Except.ok_bind, hlo, Except.ok_bind, hhi]
    exact Or.inl ⟨⟨k, hk, hvalid⟩, lo, hi, rfl⟩
  · rw [if_neg (fun h => h rfl)]
    exact Or.inr ⟨hnone, _, rfl⟩

/-- On an interval of valid amounts, the bounds are its ends up to a hundred. -/
theorem FoundBounds.of_interval {lo hi L U : Nat} (hfound : FoundBounds f lo hi) (hL : 1 ≤ L)
    (hU : U ≤ U64_MAX) (hvalid : ∀ x, x ≤ U64_MAX → (Valid f x ↔ L ≤ x ∧ x ≤ U)) :
    L ≤ lo ∧ lo ≤ L + 99 ∧ hi ≤ U ∧ U ≤ hi + 100 := by
  obtain ⟨hpos, hle, hmax, hlo, hhi, ⟨l, hl, hnear, hlow⟩, h, hh, hhmax, hfar, hhigh⟩ := hfound
  obtain ⟨hLlo, hloU⟩ := (hvalid lo (by omega)).mp hlo
  obtain ⟨hLhi, hhiU⟩ := (hvalid hi hmax).mp hhi
  have hlL : l < L := by
    rcases hlow with rfl | hinvalid
    · exact hL
    · have := mt (hvalid l (by omega)).mpr hinvalid.not_valid
      omega
  have hUh : U ≤ h := by
    rcases hhigh with rfl | hinvalid
    · exact hU
    · have := mt (hvalid h hhmax).mpr hinvalid.not_valid
      omega
  omega

/-! ## The search over quoting functions -/

section

variable (f : UInt64 → Except TradingVenueError QuoteResult)

/-- **The search is sound and precise, for every quoting function.** It finds bounds exactly where some
    power of two quotes validly, answers `NoQuotableValue` everywhere else, and fails in no other way: not
    with `BoundarySearchFailed`, not by an underflow, not by running on. What it finds are `FoundBounds`;
    on an interval of valid amounts these are the ends of the interval up to a hundred. -/
theorem boundary_search_sound :
    ((∃ lo hi, findBoundaries (ofAnswers f) = .ok (lo, hi)) ↔
      ∃ k, k ≤ 63 ∧ Valid (ofAnswers f) (2 ^ k)) ∧
    ((¬ ∃ k, k ≤ 63 ∧ Valid (ofAnswers f) (2 ^ k)) →
      ∃ info, findBoundaries (ofAnswers f) = Res.fail (.noQuotableValue info)) ∧
    (∀ fault, findBoundaries (ofAnswers f) = .error fault → ∃ info, fault = .err (.noQuotableValue info)) ∧
    (∀ lo hi, findBoundaries (ofAnswers f) = .ok (lo, hi) →
      FoundBounds (ofAnswers f) lo hi ∧
      ∀ L U, 1 ≤ L → U ≤ U64_MAX →
        (∀ x, x ≤ U64_MAX → (Valid (ofAnswers f) x ↔ L ≤ x ∧ x ≤ U)) →
        L ≤ lo ∧ lo ≤ L + 99 ∧ hi ≤ U ∧ U ≤ hi + 100) := by
  have hends : ∀ lo hi, findBoundaries (ofAnswers f) = .ok (lo, hi) →
      FoundBounds (ofAnswers f) lo hi ∧
      ∀ L U, 1 ≤ L → U ≤ U64_MAX →
        (∀ x, x ≤ U64_MAX → (Valid (ofAnswers f) x ↔ L ≤ x ∧ x ≤ U)) →
        L ≤ lo ∧ lo ≤ L + 99 ∧ hi ≤ U ∧ U ≤ hi + 100 := by
    intro lo hi hrun
    have hfound := findBoundaries_ok hrun
    exact ⟨hfound, fun L U => hfound.of_interval⟩
  rcases findBoundaries_total (answers_ofAnswers f) with ⟨hpow, lo, hi, hrun⟩ | ⟨hnone, info, hrun⟩
  · refine ⟨⟨fun _ => hpow, fun _ => ⟨lo, hi, hrun⟩⟩, fun h => absurd hpow h, ?_, hends⟩
    intro fault hfault
    rw [hrun] at hfault
    cases hfault
  · have hno : ¬ ∃ k, k ≤ 63 ∧ Valid (ofAnswers f) (2 ^ k) := by
      rintro ⟨k, hk, hvalid⟩
      exact (hnone k hk).not_valid hvalid
    refine ⟨⟨?_, fun h => absurd h hno⟩, fun _ => ⟨info, hrun⟩, ?_, hends⟩
    · rintro ⟨lo, hi, hok⟩
      rw [hrun] at hok
      cases hok
    · intro fault hfault
      rw [hrun] at hfault
      cases hfault
      exact ⟨info, rfl⟩

variable {f}

/-- **A range of valid amounts is found exactly where a power of two lies in it.** -/
theorem range_found_iff {L U : Nat} (hL : 1 ≤ L) (hU : U ≤ U64_MAX)
    (hvalid : ∀ x, x ≤ U64_MAX → (Valid (ofAnswers f) x ↔ L ≤ x ∧ x ≤ U)) :
    (∃ lo hi, findBoundaries (ofAnswers f) = .ok (lo, hi) ∧ L ≤ lo ∧ lo ≤ hi ∧ hi ≤ U) ↔
      ∃ k, k ≤ 63 ∧ L ≤ 2 ^ k ∧ 2 ^ k ≤ U := by
  have hpow : ∀ k, k ≤ 63 → (Valid (ofAnswers f) (2 ^ k) ↔ L ≤ 2 ^ k ∧ 2 ^ k ≤ U) :=
    fun k hk => hvalid (2 ^ k) (Nat.le_of_lt (pow_lt_max hk))
  rcases findBoundaries_total (answers_ofAnswers f) with ⟨⟨k, hk, hk'⟩, lo, hi, hrun⟩ | ⟨hnone, info, hrun⟩
  · have hfound := findBoundaries_ok hrun
    obtain ⟨hlo, -, hhi, -⟩ := hfound.of_interval hL hU hvalid
    exact ⟨fun _ => ⟨k, hk, (hpow k hk).mp hk'⟩, fun _ => ⟨lo, hi, hrun, hlo, hfound.le, hhi⟩⟩
  · constructor
    · rintro ⟨lo, hi, hok, -⟩
      rw [hrun] at hok
      cases hok
    · rintro ⟨k, hk, hin⟩
      exact absurd ((hpow k hk).mpr hin) (hnone k hk).not_valid

end

/-- A quoting function that quotes one unit from `L` to `U` and fails elsewhere. -/
def quotesBetween (L U : Nat) (x : UInt64) : Except TradingVenueError QuoteResult :=
  if L ≤ x.toNat ∧ x.toNat ≤ U then .ok {
    inputMint := ZERO_PUBKEY
    outputMint := ZERO_PUBKEY
    amount := x.toNat
    expectedOutput := 1
    notEnoughLiquidity := false
    price := 1 }
  else .error (.mathError (.staticStr "no liquidity"))

theorem valid_quotesBetween {L U x : Nat} (hx : x ≤ U64_MAX) :
    Valid (ofAnswers (quotesBetween L U)) x ↔ L ≤ x ∧ x ≤ U := by
  have hword : (UInt64.ofNat x).toNat = x := by
    rw [UInt64.toNat_ofNat', Nat.mod_eq_of_lt]
    rw [U64_MAX_eq] at hx
    omega
  rw [valid_ofAnswers]
  unfold quotesBetween
  rw [hword]
  split
  next h => exact ⟨fun _ => h, fun _ => rfl⟩
  next h => exact ⟨nofun, fun h' => absurd h' h⟩

/-- Eight lies between five and nine. -/
theorem range_found_iff_five_nine :
    ∃ lo hi, findBoundaries (ofAnswers (quotesBetween 5 9)) = .ok (lo, hi) ∧ 5 ≤ lo ∧ lo ≤ hi ∧ hi ≤ 9 :=
  (range_found_iff (by omega) (by decide) fun _ hx => valid_quotesBetween hx).mpr
    ⟨3, by omega, by omega, by omega⟩

/-- **A range that no power of two lies in is missed**: three atoms quote validly, and no quotable value is
    found. -/
theorem narrow_range_missed :
    (∀ x, x ≤ U64_MAX → (Valid (ofAnswers (quotesBetween 3 3)) x ↔ 3 ≤ x ∧ x ≤ 3)) ∧
      ∃ info, findBoundaries (ofAnswers (quotesBetween 3 3)) = Res.fail (.noQuotableValue info) := by
  refine ⟨fun x hx => valid_quotesBetween hx, ?_⟩
  rcases findBoundaries_total (answers_ofAnswers (quotesBetween 3 3)) with ⟨⟨k, hk, hvalid⟩,
    -⟩ | ⟨-, hfail⟩
  · obtain ⟨hlow, hhigh⟩ := (valid_quotesBetween (Nat.le_of_lt (pow_lt_max hk))).mp hvalid
    rcases Nat.lt_or_ge k 2 with hsmall | hlarge
    · have hpow : 2 ^ k ≤ 2 ^ 1 := Nat.pow_le_pow_right (by omega) (by omega)
      omega
    · have hpow : 2 ^ 2 ≤ 2 ^ k := Nat.pow_le_pow_right (by omega) hlarge
      omega
  · exact hfail

end ByrealTitan
