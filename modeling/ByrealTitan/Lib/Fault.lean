import Mathlib.Algebra.Order.Ring.Int

/-!
# `Lib.Fault` — results with panics, and the rules for reasoning about them

A `Res ε α` is a value or one of three ways out: an error of the program's own type, a panic (an index
out of bounds, an overflow with checks on), or running out of the fuel a loop was given. Keeping the
last two apart from the errors is what lets a theorem say *which* of them cannot happen.

- **Inversion.** `bind_eq_ok`, `require_eq_ok`, `orErr_eq_ok`, … take a successful computation apart.
- **Outcome rules.** `Yields x Q E` says what holds of the value and what holds of the failure; `bind`,
  `mono` and `foldlM` compose it, so a program is verified one call at a time.
-/

/-- How a computation ends without a value. -/
inductive Fault (ε : Type) where
  | err (e : ε)
  | panic
  | diverge
deriving DecidableEq

/-- A value, or a `Fault`. -/
abbrev Res (ε α : Type) := Except (Fault ε) α

namespace Res

variable {ε α β : Type}

def fail (e : ε) : Res ε α := .error (.err e)

def panic : Res ε α := .error .panic

/-- Refuse with `e` unless `p` holds. -/
def require (p : Prop) [Decidable p] (e : ε) : Res ε Unit := if p then .ok () else fail e

/-- `ok_or`: the error `e` where there is no value. -/
def orErr (e : ε) : Option α → Res ε α
  | some a => .ok a
  | none   => fail e

/-- An index or an `unwrap`: a panic where there is no value. -/
def orPanic : Option α → Res ε α
  | some a => .ok a
  | none   => panic

/-- A checked addition of unsigned words of `w` bits. -/
def checkedAdd (w a b : Nat) : Res ε Nat := if a + b < 2 ^ w then .ok (a + b) else panic

/-- A checked subtraction of unsigned words. -/
def checkedSub (a b : Nat) : Res ε Nat := if b ≤ a then .ok (a - b) else panic

/-- `xs[a..b]`. -/
def slice (xs : List α) (a b : Nat) : Res ε (List α) :=
  if a ≤ b ∧ b ≤ xs.length then .ok ((xs.drop a).take (b - a)) else panic

/-! ## Inversion -/

@[simp] theorem require_eq_ok {p : Prop} [Decidable p] {e : ε} {u : Unit} :
    require p e = .ok u ↔ p := by
  unfold require
  split
  · simp_all
  · simp_all [fail]

@[simp] theorem orErr_eq_ok {e : ε} {o : Option α} {a : α} : orErr e o = .ok a ↔ o = some a := by
  cases o with
  | none => simp [orErr, fail]
  | some b => simp [orErr]

theorem orErr_eq_error {e : ε} {o : Option α} {fault : Fault ε} (h : orErr e o = .error fault) :
    o = none ∧ fault = .err e := by
  cases o with
  | none => exact ⟨rfl, (Except.error.inj h).symm⟩
  | some a => cases h

@[simp] theorem orPanic_eq_ok {o : Option α} {a : α} :
    (orPanic o : Res ε α) = .ok a ↔ o = some a := by
  cases o with
  | none => simp [orPanic, panic]
  | some b => simp [orPanic]

@[simp] theorem checkedAdd_eq_ok {w a b c : Nat} :
    (checkedAdd w a b : Res ε Nat) = .ok c ↔ a + b < 2 ^ w ∧ a + b = c := by
  unfold checkedAdd
  split
  next h => simp [h]
  next h => simp [panic, h]

@[simp] theorem checkedSub_eq_ok {a b c : Nat} :
    (checkedSub a b : Res ε Nat) = .ok c ↔ b ≤ a ∧ a - b = c := by
  unfold checkedSub
  split
  next h => simp [h]
  next h => simp [panic, h]

@[simp] theorem slice_eq_ok {xs ys : List α} {a b : Nat} :
    (slice xs a b : Res ε (List α)) = .ok ys ↔
      (a ≤ b ∧ b ≤ xs.length) ∧ (xs.drop a).take (b - a) = ys := by
  unfold slice
  split
  next h => simp [h]
  next h => simp [panic, h]

end Res

namespace Except

variable {ε α β : Type}

theorem bind_eq_ok {x : Except ε α} {f : α → Except ε β} {b : β} :
    (x >>= f) = .ok b ↔ ∃ a, x = .ok a ∧ f a = .ok b := by
  cases x with
  | error e => simp [bind, Except.bind]
  | ok a => simp [bind, Except.bind]

theorem bind_eq_error {x : Except ε α} {f : α → Except ε β} {e : ε} :
    (x >>= f) = .error e ↔ x = .error e ∨ ∃ a, x = .ok a ∧ f a = .error e := by
  cases x with
  | error e => simp [bind, Except.bind]
  | ok a => simp [bind, Except.bind]

@[simp] theorem pure_eq_ok {a b : α} : (pure a : Except ε α) = .ok b ↔ a = b := by
  simp [pure, Except.pure]

@[simp] theorem ok_bind {a : α} {f : α → Except ε β} : (Except.ok a >>= f) = f a := rfl

@[simp] theorem error_bind {e : ε} {f : α → Except ε β} :
    ((Except.error e : Except ε α) >>= f) = .error e := rfl

theorem map_eq_ok {g : α → β} {r : Except ε α} {b : β} : g <$> r = .ok b ↔ ∃ a, r = .ok a ∧ g a = b := by
  cases r with
  | error e => exact ⟨nofun, nofun⟩
  | ok a => simp [Functor.map, Except.map]

theorem forM_eq_ok {l : List α} {f : α → Except ε Unit} {u : Unit} :
    l.forM f = .ok u ↔ ∀ a ∈ l, f a = .ok () := by
  induction l with
  | nil => simp
  | cons a l ih =>
      rw [List.forM_eq_forM] at ih ⊢
      rw [List.forM_cons, bind_eq_ok]
      constructor
      · rintro ⟨⟨⟩, ha, hl⟩ b hb
        rcases List.mem_cons.mp hb with rfl | hb
        · exact ha
        · exact ih.mp hl b hb
      · intro h
        exact ⟨⟨⟩, h a (by simp), ih.mpr fun b hb => h b (by simp [hb])⟩

/-- A map that succeeds succeeds on every element, and keeps the length. -/
theorem mapM_eq_ok {l : List α} {f : α → Except ε β} {bs : List β} (h : l.mapM f = .ok bs) :
    bs.length = l.length ∧ ∀ a ∈ l, ∃ b, f a = .ok b := by
  induction l generalizing bs with
  | nil =>
      cases h
      simp
  | cons a l ih =>
      rw [List.mapM_cons, bind_eq_ok] at h
      obtain ⟨b, hb, h⟩ := h
      obtain ⟨bs', hbs, h⟩ := bind_eq_ok.mp h
      obtain rfl := pure_eq_ok.mp h
      obtain ⟨hlen, hmem⟩ := ih hbs
      refine ⟨by simp [hlen], fun a' ha' => ?_⟩
      rcases List.mem_cons.mp ha' with rfl | ha'
      · exact ⟨b, hb⟩
      · exact hmem a' ha'

/-- The failure, where there is one. -/
def failure? : Except ε α → Option ε
  | .ok _    => none
  | .error e => some e

theorem failure?_eq_some {x : Except ε α} {e : ε} : x.failure? = some e ↔ x = .error e := by
  cases x with
  | ok a => simp [failure?]
  | error e => simp [failure?]

theorem exists_of_failure? {x : Except ε α} (h : x.failure? = none) : ∃ a, x = .ok a := by
  cases x with
  | ok a    => exact ⟨a, rfl⟩
  | error e => cases h

theorem toOption_eq_some {x : Except ε α} {a : α} : x.toOption = some a ↔ x = .ok a := by
  cases x with
  | ok b    => simp [Except.toOption]
  | error e => simp [Except.toOption]

/-- There is a value, and it passes the test. -/
def okAnd (q : α → Bool) : Except ε α → Bool
  | .ok a    => q a
  | .error _ => false

theorem okAnd_eq_true {x : Except ε α} {q : α → Bool} :
    x.okAnd q = true ↔ ∃ a, x = .ok a ∧ q a = true := by
  cases x with
  | ok a => simp [okAnd]
  | error e => simp [okAnd]

end Except

/-! ## Outcome rules -/

/-- `x` ends in a value that satisfies `Q` or in a failure that satisfies `E`. -/
def Yields {ε α : Type} (x : Except ε α) (Q : α → Prop) (E : ε → Prop) : Prop :=
  match x with
  | .ok a    => Q a
  | .error e => E e

namespace Yields

variable {ε α β σ : Type} {x : Except ε α} {Q Q' : α → Prop} {E E' : ε → Prop}

theorem ok {a : α} (h : Q a) : Yields (.ok a) Q E := h

theorem pure {a : α} (h : Q a) : Yields (pure a : Except ε α) Q E := h

theorem error {e : ε} (h : E e) : Yields (.error e : Except ε α) Q E := h

theorem of_ok (h : Yields x Q E) {a : α} (hx : x = .ok a) : Q a := by
  subst hx
  exact h

theorem of_error (h : Yields x Q E) {e : ε} (hx : x = .error e) : E e := by
  subst hx
  exact h

/-- The rule read backwards: it is enough to look at the two ways `x` can end. -/
theorem intro (hok : ∀ a, x = .ok a → Q a) (herr : ∀ e, x = .error e → E e) : Yields x Q E := by
  cases x with
  | ok a => exact hok a rfl
  | error e => exact herr e rfl

theorem mono (h : Yields x Q E) (hQ : ∀ a, Q a → Q' a) (hE : ∀ e, E e → E' e) : Yields x Q' E' := by
  cases x with
  | ok a => exact hQ a h
  | error e => exact hE e h

/-- **Sequencing.** What the first part yields is what the second may assume. -/
theorem bind {R : β → Prop} {f : α → Except ε β} (hx : Yields x Q E)
    (hf : ∀ a, x = .ok a → Q a → Yields (f a) R E) : Yields (x >>= f) R E := by
  cases x with
  | ok a => exact hf a rfl hx
  | error e => exact hx

/-- **Loops.** An invariant of the consumed prefix that one step keeps holds of the whole run; the step
    may use that its state was reached from the start. -/
theorem foldlM {I : List α → σ → Prop} {f : σ → α → Except ε σ} {l : List α} {s₀ : σ}
    (h₀ : I [] s₀)
    (hstep : ∀ pre a post s, l = pre ++ a :: post → pre.foldlM f s₀ = .ok s → I pre s →
      Yields (f s a) (I (pre ++ [a])) E) :
    Yields (l.foldlM f s₀) (I l) E := by
  -- induction on the part still to run, the consumed prefix generalised
  have key : ∀ (post pre : List α) (s : σ), l = pre ++ post → pre.foldlM f s₀ = .ok s → I pre s →
      Yields (post.foldlM f s) (I l) E := by
    intro post
    induction post with
    | nil =>
        intro pre s hl _ hI
        rw [List.append_nil] at hl
        subst hl
        exact hI
    | cons a post ih =>
        intro pre s hl hreach hI
        rw [List.foldlM_cons]
        refine (hstep pre a post s hl hreach hI).bind ?_
        intro s' hs' hI'
        refine ih (pre ++ [a]) s' (by simp [hl]) ?_ hI'
        rw [List.foldlM_append, hreach]
        simp [hs']
  exact key l [] s₀ rfl rfl h₀

end Yields

/-! ## Orderly computations -/

/-- A computation that ends in a value or in an error of the program, one that
    satisfies `E`; never in a panic or out of fuel. -/
def Res.Raises {ε α : Type} (E : ε → Prop) (x : Res ε α) :
    Prop := ∀ fault, x = .error fault → ∃ e, fault = .err e ∧ E e

/-- Any error will do. -/
abbrev Res.Orderly {ε α : Type} (x : Res ε α) : Prop := x.Raises fun _ => True

namespace Res.Raises

variable {ε α β σ : Type} {E E' : ε → Prop}

theorem ok {a : α} : Raises E (.ok a : Res ε α) := nofun

theorem fail {e : ε} (he : E e) : Raises E (Res.fail e : Res ε α) := by
  intro fault h
  exact ⟨e, (Except.error.inj h).symm, he⟩

theorem mono {x : Res ε α} (hx : Raises E x) (hE : ∀ e, E e → E' e) : Raises E' x := by
  intro fault h
  obtain ⟨e, rfl, he⟩ := hx fault h
  exact ⟨e, rfl, hE e he⟩

/-- The second part may use what the first one came to. -/
theorem bind {x : Res ε α} {f : α → Res ε β} (hx : Raises E x) (hf : ∀ a, x = .ok a → Raises E (f a)) :
    Raises E (x >>= f) := by
  intro fault h
  rcases Except.bind_eq_error.mp h with h | ⟨a, ha, h⟩
  · exact hx fault h
  · exact hf a ha fault h

theorem require {p : Prop} [Decidable p] {e : ε} (he : E e) : Raises E (Res.require p e) := by
  unfold Res.require
  split
  · exact ok
  · exact fail he

theorem orErr {e : ε} {o : Option α} (he : E e) : Raises E (Res.orErr e o) := by
  cases o with
  | none => exact fail he
  | some a => exact ok

theorem orPanic {o : Option α} (h : ∃ a, o = some a) : Raises E (Res.orPanic o : Res ε α) := by
  obtain ⟨a, rfl⟩ := h
  exact ok

theorem checkedAdd {w a b : Nat} (h : a + b < 2 ^ w) : Raises E (Res.checkedAdd w a b : Res ε Nat) := by
  unfold Res.checkedAdd
  rw [if_pos h]
  exact ok

theorem checkedSub {a b : Nat} (h : b ≤ a) : Raises E (Res.checkedSub a b : Res ε Nat) := by
  unfold Res.checkedSub
  rw [if_pos h]
  exact ok

theorem slice {xs : List α} {a b : Nat} (h : a ≤ b ∧ b ≤ xs.length) :
    Raises E (Res.slice xs a b : Res ε (List α)) := by
  unfold Res.slice
  rw [if_pos h]
  exact ok

theorem ite {p : Prop} [Decidable p] {x y : Res ε α} (hx : p → Raises E x) (hy : ¬ p → Raises E y) :
    Raises E (if p then x else y) := by
  split
  next h => exact hx h
  next h => exact hy h

/-- **Loops.** Every turn may use the invariant of the part behind it. -/
theorem foldlM {I : List α → σ → Prop} {f : σ → α → Res ε σ} {l : List α} {s₀ : σ} (h₀ : I [] s₀)
    (hstep : ∀ pre a post s, l = pre ++ a :: post → I pre s →
      Raises E (f s a) ∧ ∀ s', f s a = .ok s' → I (pre ++ [a]) s') : Raises E (l.foldlM f s₀) := by
  have hrun : Yields (l.foldlM f s₀) (I l) fun fault => ∃ e, fault = .err e ∧ E e := by
    refine Yields.foldlM (I := I) h₀ fun pre a post s hl _ hI => ?_
    obtain ⟨hraises, hkeeps⟩ := hstep pre a post s hl hI
    exact Yields.intro hkeeps hraises
  exact fun fault h => hrun.of_error h

theorem forM {f : α → Res ε Unit} {l : List α} (hf : ∀ a ∈ l, Raises E (f a)) : Raises E (l.forM f) := by
  induction l with
  | nil => exact ok
  | cons a l ih =>
      exact (hf a List.mem_cons_self).bind fun _ _ => ih fun b hb => hf b (List.mem_cons_of_mem _ hb)

end Res.Raises
