import ByrealTitan.Lib.Fault
import Mathlib.Data.List.Forall2

/-!
# `Lib.Steps` — writes that survive a failure

A mutable object is brought up to date by a list of steps, each of which either fails without writing or
yields the object's next state. Straight-line code with early returns is such a list: when a step fails,
what the steps before it wrote stays (`runSteps`). A run succeeds exactly when the steps compose
(`runSteps_ok`); it leaves the object as it was when everything before the failing step wrote what was
already there (`runSteps_of_stopsHeld`); and two objects that agree on enough end up agreeing on everything
(`runSteps_agree`).
-/

namespace Steps

variable {σ ε : Type}

/-- Run the steps in order; a failure keeps the state the failing step found. -/
def runSteps : List (σ → Except ε σ) → σ → Except ε Unit × σ
  | [],      s => (.ok (), s)
  | f :: fs, s =>
      match f s with
      | .ok s'   => runSteps fs s'
      | .error e => (.error e, s)

/-- Go on with the state a run left, if it succeeded. -/
def andThen (run : Except ε Unit × σ) (next : σ → Except ε Unit × σ) : Except ε Unit × σ :=
  match run.1 with
  | .ok _    => next run.2
  | .error e => (.error e, run.2)

/-- What the first run leaves and the second one keeps, both together keep. -/
theorem andThen_inv {I : σ → Prop} {run : Except ε Unit × σ} {next : σ → Except ε Unit × σ} (h : I run.2)
    (hnext : ∀ s, I s → I (next s).2) : I (andThen run next).2 := by
  unfold andThen
  split
  · exact hnext run.2 h
  · exact h

theorem andThen_ok {run : Except ε Unit × σ} {next : σ → Except ε Unit × σ} {s : σ} :
    andThen run next = (.ok (), s) ↔ run.1 = .ok () ∧ next run.2 = (.ok (), s) := by
  unfold andThen
  cases run.1 with
  | ok _    => simp
  | error e => simp

/-- A run that succeeds leaves some state. -/
theorem exists_of_ok {run : Except ε Unit × σ} (h : run.1 = .ok ()) : ∃ s, run = (.ok (), s) :=
  ⟨run.2, Prod.ext h rfl⟩

/-- A run succeeds exactly when the steps compose. -/
theorem runSteps_ok {fs : List (σ → Except ε σ)} {s s' : σ} :
    runSteps fs s = (.ok (), s') ↔ fs.foldlM (fun s f => f s) s = .ok s' := by
  induction fs generalizing s with
  | nil => simp [runSteps, pure, Except.pure]
  | cons f fs ih =>
      cases hf : f s with
      | ok s₁ => simp only [runSteps, hf, ih, List.foldlM_cons, Except.ok_bind]
      | error e => simp [runSteps, hf]

/-- What every step keeps, a run keeps, wherever it stops. -/
theorem runSteps_inv {I : σ → Prop} {fs : List (σ → Except ε σ)}
    (hkeep : ∀ f ∈ fs, ∀ s s', I s → f s = .ok s' → I s') {s : σ} (h : I s) : I (runSteps fs s).2 := by
  induction fs generalizing s with
  | nil => exact h
  | cons f fs ih =>
      cases hf : f s with
      | error e =>
          simp only [runSteps, hf]
          exact h
      | ok s' =>
          simp only [runSteps, hf]
          exact ih (fun g hg => hkeep g (by simp [hg])) (hkeep f (by simp) s s' h hf)

/-! ## Runs that change nothing -/

/-- What is known of a step before it is taken: when it fails, and when it writes what is already there. -/
structure Stage where
  refuses : Prop
  held : Prop

/-- The stage is right about the step on `s`. -/
structure Stage.Describes (st : Stage) (f : σ → Except ε σ) (s : σ) : Prop where
  refuse : st.refuses → ∃ e, f s = .error e
  hold : st.held → f s = .ok s

/-- Some stage refuses, and the stages before it hold what they would write. -/
def StopsHeld : List Stage → Prop
  | []          => False
  | st :: rest => st.refuses ∨ (st.held ∧ StopsHeld rest)

/-- Every stage holds what it would write. -/
def AllHeld (stages : List Stage) : Prop := ∀ st ∈ stages, st.held

variable {stages : List Stage} {fs : List (σ → Except ε σ)} {s : σ}

/-- **A run that stops before it changed anything** leaves the object as it was. -/
theorem runSteps_of_stopsHeld (hdesc : List.Forall₂ (fun st f => st.Describes f s) stages fs)
    (h : StopsHeld stages) : ∃ e, runSteps fs s = (.error e, s) := by
  induction hdesc with
  | nil => exact h.elim
  | @cons st f stages fs hst _ ih =>
      rcases h with hrefuse | ⟨hheld, hrest⟩
      · obtain ⟨e, he⟩ := hst.refuse hrefuse
        exact ⟨e, by simp only [runSteps, he]⟩
      · simp only [runSteps, hst.hold hheld]
        exact ih hrest

/-- A run that writes what is already there succeeds and leaves the object as it was. -/
theorem runSteps_of_allHeld (hdesc : List.Forall₂ (fun st f => st.Describes f s) stages fs)
    (h : AllHeld stages) : runSteps fs s = (.ok (), s) := by
  induction hdesc with
  | nil => rfl
  | @cons st f stages fs hst _ ih =>
      simp only [runSteps, hst.hold (h st (by simp))]
      exact ih fun st' hst' => h st' (by simp [hst'])

/-! ## Agreement -/

/-- Two outcomes that are the same error, or states related by `S`. -/
inductive Alike (S : σ → σ → Prop) : Except ε σ → Except ε σ → Prop where
  | error (e : ε) : Alike S (.error e) (.error e)
  | ok {s t : σ} : S s t → Alike S (.ok s) (.ok t)

/-- Both sides go on from the same value. -/
theorem Alike.bind {α : Type} {S : σ → σ → Prop} {f g : α → Except ε σ} (x : Except ε α)
    (h : ∀ a, Alike S (f a) (g a)) : Alike S (x >>= f) (x >>= g) := by
  cases x with
  | error e => exact Alike.error e
  | ok a    => exact h a

/-- Both sides take the same branch. -/
theorem Alike.ite {S : σ → σ → Prop} {c : Prop} [Decidable c] {x y x' y' : Except ε σ}
    (ht : c → Alike S x y) (hf : ¬ c → Alike S x' y') :
    Alike S (if c then x else x') (if c then y else y') := by
  by_cases hc : c
  · rw [if_pos hc, if_pos hc]
    exact ht hc
  · rw [if_neg hc, if_neg hc]
    exact hf hc

/-- A step takes objects related by `R` to outcomes alike up to `S`. -/
def Preserves (R S : σ → σ → Prop) (f : σ → Except ε σ) : Prop :=
  ∀ s t, R s t → Alike S (f s) (f t)

/-- Steps that pass on an agreement that grows from `R` to `S`. -/
inductive Chain : (σ → σ → Prop) → List (σ → Except ε σ) → (σ → σ → Prop) → Prop where
  | nil (R) : Chain R [] R
  | cons {R S T f fs} : Preserves R S f → Chain S fs T → Chain R (f :: fs) T

/-- **Two related objects are refreshed alike**: the runs fail alike, or end in related states. -/
theorem runSteps_agree {R S : σ → σ → Prop} (hc : Chain R fs S) {t : σ} (h : R s t) :
    (∃ e, (runSteps fs s).1 = .error e ∧ (runSteps fs t).1 = .error e) ∨
      ∃ s' t', runSteps fs s = (.ok (), s') ∧ runSteps fs t = (.ok (), t') ∧ S s' t' := by
  induction hc generalizing s t with
  | nil R => exact Or.inr ⟨s, t, rfl, rfl, h⟩
  | @cons R S T f fs hf _ ih =>
      have halike := hf s t h
      generalize hs : f s = x, ht : f t = y at halike
      cases halike with
      | error e => exact Or.inl ⟨e, by simp only [runSteps, hs], by simp only [runSteps, ht]⟩
      | ok hST =>
          simp only [runSteps, hs, ht]
          exact ih hST

end Steps
