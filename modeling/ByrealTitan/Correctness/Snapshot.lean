import ByrealTitan.Program.Stages

/-!
# `Correctness.Snapshot` — the recorded balances and the final check

The snapshot keeps the recorded balances in one list, in the order of the accounts, and the set of
recorded positions in a bitmap; the final check walks both with one running index. `takeSnapshot_spec`
says what the snapshot holds, and `finalCheck_yields` that the running index pairs every recorded position
with its own balance: the check fails with `ReservedBalanceViolation` exactly on a recorded account that
ended below the amount recorded for it, and in no other way.
-/

namespace ByrealTitan.Program

variable {R : Runtime} {ctx : Ctx} {m : Nat} {bank bank' : Bank} {snap : Snapshot}

/-! ## The bitmap is a set of indices below 256 -/

namespace TitanPdaBitmap

theorem isSet_eq {b : TitanPdaBitmap} {i : Nat} (h : i < 256) (hword : i / 64 < 4) :
    b.isSet i = b.bits[i / 64].getLsbD (i % 64) := by
  have hk : i % 64 < 64 := Nat.mod_lt _ (by omega)
  simp only [isSet, h, dif_pos, and_bit_ne_zero hk]
  exact Bool.decide_eq_true

theorem isSet_of_le {b : TitanPdaBitmap} {i : Nat} (h : 256 ≤ i) : b.isSet i = false := by
  simp only [isSet, Nat.not_lt.mpr h, dif_neg, not_false_eq_true]

theorem isSet_new (i : Nat) : new.isSet i = false := by
  by_cases h : i < 256
  · simp [isSet_eq h (by omega), new]
  · exact isSet_of_le (Nat.not_lt.mp h)

/-- Setting an index below 256 adds that index and no other. -/
theorem isSet_set (b : TitanPdaBitmap) {i : Nat} (hi : i < 256) (j : Nat) :
    (b.set i).isSet j = (b.isSet j || decide (j = i)) := by
  by_cases hj : j < 256
  · have hjw : j / 64 < 4 := by omega
    rw [isSet_eq hj hjw, isSet_eq hj hjw]
    simp only [set, hi, dif_pos, Vector.getElem_set]
    by_cases hword : i / 64 = j / 64
    · have hbit : j % 64 = i % 64 ↔ j = i := by omega
      have hk : i % 64 < 64 := Nat.mod_lt _ (by omega)
      simp only [hword, if_true, BitVec.getLsbD_or, ← BitVec.twoPow_eq, BitVec.getLsbD_twoPow, hk,
        decide_true, Bool.true_and]
      simp only [eq_comm (a := i % 64), hbit]
    · have hne : j ≠ i := by
        rintro rfl
        exact hword rfl
      simp [hword, hne]
  · have hne : j ≠ i := by omega
    simp [isSet_of_le (Nat.not_lt.mp hj), hne]

end TitanPdaBitmap

/-! ## What the snapshot holds -/

/-- The account at this position is recognised as a token account of the TitanPDA. -/
def recorded (R : Runtime) (ctx : Ctx) (bank : Bank) (account : AccountInfo) : Bool :=
  isTitanPdaTokenAccount R (bank account.key) ctx.titanPda.key

/-- The addresses of the recorded accounts. -/
def recordedKeys (R : Runtime) (ctx : Ctx) (bank : Bank) : Set Pubkey :=
  fun k => ∃ a ∈ ctx.remainingAccounts, a.key = k ∧ recorded R ctx bank a = true

/-- What a snapshot of `entries` holds. -/
structure SnapshotSpec (R : Runtime) (ctx : Ctx) (m : Nat) (bank : Bank)
    (entries : List (AccountInfo × Nat)) (snap : Snapshot) : Prop where
  /-- The ATAs are TitanPDA accounts, and their balances are the reserved ones. -/
  reserved : ∀ e ∈ entries, e.2 < m → recorded R ctx bank e.1 = true ∧
    snap.reserved[e.2]? = some (tokenAmountOrZero (bank e.1.key))
  balances : snap.balances = (entries.filter fun e => recorded R ctx bank e.1).map
    fun e => tokenAmountOrZero (bank e.1.key)
  isSet : ∀ i, snap.bitmap.isSet i = true ↔ ∃ e ∈ entries, e.2 = i ∧ recorded R ctx bank e.1 = true

theorem tokenAmountOrZero_of_extract {a : Account} {n : UInt64} (h : extractTokenAmount a = .ok n) :
    tokenAmountOrZero a = n := by
  simp only [tokenAmountOrZero, h]

/-- Positions of a `zipIdx` are distinct and below the length. -/
theorem zipIdx_split {l : List AccountInfo} {pre post : List (AccountInfo × Nat)}
    {e : AccountInfo × Nat} (h : l.zipIdx = pre ++ e :: post) :
    e.2 = pre.length ∧ pre.length < l.length ∧ (∀ e' ∈ pre, e'.2 < pre.length) := by
  have hlen : l.length = pre.length + (post.length + 1) := by
    have := congrArg List.length h
    simpa using this
  have hget : l.zipIdx[pre.length]? = some e := by
    rw [h, List.getElem?_append_right (Nat.le_refl _)]
    simp
  rw [List.getElem?_zipIdx] at hget
  obtain ⟨a, _, rfl⟩ := Option.map_eq_some_iff.mp hget
  refine ⟨by simp, by omega, ?_⟩
  intro e' he'
  obtain ⟨k, hk, rfl⟩ := List.mem_iff_getElem.mp he'
  have hget' : l.zipIdx[k]? = some pre[k] := by
    rw [h, List.getElem?_append_left hk, List.getElem?_eq_getElem hk]
  rw [List.getElem?_zipIdx] at hget'
  obtain ⟨a', _, ha'⟩ := Option.map_eq_some_iff.mp hget'
  rw [← ha']
  simpa using hk

variable {pre post : List (AccountInfo × Nat)} {a : AccountInfo} {i : Nat} {snap' : Snapshot}

/-- A recognised account adds its position and its balance. -/
theorem SnapshotSpec.snoc_recorded (hspec : SnapshotSpec R ctx m bank pre snap)
    (hrec : recorded R ctx bank a = true) (hi : i < 256) (hbitmap : snap'.bitmap = snap.bitmap.set i)
    (hbalances : snap'.balances = snap.balances ++ [tokenAmountOrZero (bank a.key)])
    (hold : ∀ e ∈ pre, e.2 < m → snap'.reserved[e.2]? = snap.reserved[e.2]?)
    (hnew : i < m → snap'.reserved[i]? = some (tokenAmountOrZero (bank a.key))) :
    SnapshotSpec R ctx m bank (pre ++ [(a, i)]) snap' := by
  refine ⟨?_, ?_, ?_⟩
  · intro e he hm
    rcases List.mem_append.mp he with he | he
    · rw [hold e he hm]
      exact hspec.reserved e he hm
    · obtain rfl := List.mem_singleton.mp he
      exact ⟨hrec, hnew hm⟩
  · rw [hbalances, hspec.balances, List.filter_append, List.map_append]
    simp [hrec]
  · intro j
    rw [hbitmap, TitanPdaBitmap.isSet_set _ hi, Bool.or_eq_true, hspec.isSet, decide_eq_true_eq]
    constructor
    · rintro (⟨e, he, rest⟩ | rfl)
      · exact ⟨e, List.mem_append_left _ he, rest⟩
      · exact ⟨(a, j), List.mem_append_right _ (by simp), rfl, hrec⟩
    · rintro ⟨e, he, rfl, hrec'⟩
      rcases List.mem_append.mp he with he | he
      · exact Or.inl ⟨e, he, rfl, hrec'⟩
      · exact Or.inr (by rw [List.mem_singleton.mp he])

/-- Any other account, which is never an ATA of the route, leaves the snapshot as it is. -/
theorem SnapshotSpec.snoc_unrecorded (hspec : SnapshotSpec R ctx m bank pre snap)
    (hrec : recorded R ctx bank a = false) (hi : ¬ i < m) :
    SnapshotSpec R ctx m bank (pre ++ [(a, i)]) snap := by
  refine ⟨?_, ?_, ?_⟩
  · intro e he hm
    rcases List.mem_append.mp he with he | he
    · exact hspec.reserved e he hm
    · obtain rfl := List.mem_singleton.mp he
      exact absurd hm hi
  · rw [hspec.balances, List.filter_append, List.map_append]
    simp [hrec]
  · intro j
    rw [hspec.isSet]
    constructor
    · rintro ⟨e, he, rest⟩
      exact ⟨e, List.mem_append_left _ he, rest⟩
    · rintro ⟨e, he, rfl, hrec'⟩
      rcases List.mem_append.mp he with he | he
      · exact ⟨e, he, rfl, hrec'⟩
      · obtain rfl := List.mem_singleton.mp he
        rw [hrec] at hrec'
        exact absurd hrec' (by simp)

/-- One turn of the snapshot loop extends what the snapshot holds by one position. -/
theorem snapshotStep_spec (hsplit : ctx.remainingAccounts.zipIdx = pre ++ (a, i) :: post)
    (hspec : SnapshotSpec R ctx m bank pre snap)
    (h : snapshotStep R ctx m bank snap (a, i) = .ok snap') :
    SnapshotSpec R ctx m bank (pre ++ [(a, i)]) snap' := by
  obtain ⟨hidx, hlt, hpre⟩ := zipIdx_split hsplit
  have h256 : i < 256 := by
    have := ctx.remaining_le
    simp only at hidx
    omega
  unfold snapshotStep at h
  by_cases hi : i < m
  · -- one of the first `m`: it must be recognised, and its balance is reserved as well
    simp only [hi, if_true, Except.bind_eq_ok, Res.require_eq_ok, Except.pure_eq_ok] at h
    obtain ⟨_, hrec, n, hn, res, hres, rfl⟩ := h
    unfold setReserved at hres
    split at hres
    next hlen =>
      obtain rfl := Except.ok.inj hres
      refine hspec.snoc_recorded hrec h256 rfl (by rw [tokenAmountOrZero_of_extract hn]) ?_ ?_
      · intro e he _
        have hne : i ≠ e.2 := by
          have := hpre e he
          simp only at hidx
          omega
        simp [hne]
      · intro _
        simp [hlen, tokenAmountOrZero_of_extract hn]
    · exact absurd hres (by simp [Res.panic])
  · cases hrec : isTitanPdaTokenAccount R (bank a.key) ctx.titanPda.key with
    | true =>
        simp only [hi, if_false, hrec, if_true, Except.bind_eq_ok, Except.pure_eq_ok] at h
        obtain ⟨n, hn, rfl⟩ := h
        exact hspec.snoc_recorded hrec h256 rfl (by rw [tokenAmountOrZero_of_extract hn])
          (fun _ _ _ => rfl) (fun hm => absurd hm hi)
    | false =>
        simp only [hi, if_false, hrec, Bool.false_eq_true, Except.pure_eq_ok] at h
        subst h
        exact hspec.snoc_unrecorded hrec hi

/-- **The snapshot** holds the balance of every recognised account, in order. -/
theorem takeSnapshot_spec (h : takeSnapshot R ctx m bank = .ok snap) :
    SnapshotSpec R ctx m bank ctx.remainingAccounts.zipIdx snap := by
  have hrun : Yields (takeSnapshot R ctx m bank)
      (SnapshotSpec R ctx m bank ctx.remainingAccounts.zipIdx) (fun _ => True) := by
    refine Yields.foldlM (I := SnapshotSpec R ctx m bank) ?_ ?_
    · exact ⟨by simp, by simp [Snapshot.empty], by simp [Snapshot.empty, TitanPdaBitmap.isSet_new]⟩
    · rintro pre ⟨a, i⟩ post s hsplit - hs
      exact Yields.intro (fun s' hs' => snapshotStep_spec hsplit hs hs') (fun _ _ => trivial)
  exact hrun.of_ok h

/-! ## The final check -/

/-- Some recorded account ended below the amount recorded for it. -/
def BelowRecorded (R : Runtime) (ctx : Ctx) (bank bank' : Bank) : Prop :=
  ∃ a ∈ ctx.remainingAccounts, recorded R ctx bank a = true ∧
    tokenBalance (bank' a.key) < tokenBalance (bank a.key)

/-- The bitmap tells which positions were recorded. -/
theorem SnapshotSpec.isSet_eq (hspec : SnapshotSpec R ctx m bank ctx.remainingAccounts.zipIdx snap)
    (hmem : (a, i) ∈ ctx.remainingAccounts.zipIdx) : snap.bitmap.isSet i = recorded R ctx bank a := by
  rw [Bool.eq_iff_iff, hspec.isSet]
  constructor
  · rintro ⟨⟨a', i'⟩, hmem', rfl, hrec⟩
    rw [List.mk_mem_zipIdx_iff_getElem?] at hmem hmem'
    rw [hmem] at hmem'
    obtain rfl := Option.some.inj hmem'
    exact hrec
  · intro hrec
    exact ⟨(a, i), hmem, rfl, hrec⟩

/-- The balance of a recorded position stands behind those of the recorded positions before it. -/
theorem SnapshotSpec.balance_at (hspec : SnapshotSpec R ctx m bank ctx.remainingAccounts.zipIdx snap)
    (hsplit : ctx.remainingAccounts.zipIdx = pre ++ (a, i) :: post) (hrec : recorded R ctx bank a = true) :
    snap.balances[(pre.filter fun e => recorded R ctx bank e.1).length]? =
      some (tokenAmountOrZero (bank a.key)) := by
  rw [hspec.balances, hsplit, List.filter_append, List.map_append, List.getElem?_append_right (by simp)]
  simp [hrec]

/-- **The final check pairs every recorded account with its own balance**: it passes only if each of them
    still holds what was recorded, and its only failure is `ReservedBalanceViolation`, on one that does
    not. -/
theorem finalCheck_yields (hspec : SnapshotSpec R ctx m bank ctx.remainingAccounts.zipIdx snap) :
    Yields (finalCheck ctx snap bank')
      (fun _ => ∀ a ∈ ctx.remainingAccounts, recorded R ctx bank a = true →
        tokenBalance (bank a.key) ≤ tokenBalance (bank' a.key))
      (fun e => e = .err (.route .reservedBalanceViolation) ∧ BelowRecorded R ctx bank bank') := by
  -- the running index counts the recorded positions passed so far
  have hrun : Yields (finalCheck ctx snap bank')
      (fun idx => idx = (ctx.remainingAccounts.zipIdx.filter fun e => recorded R ctx bank e.1).length ∧
        ∀ e ∈ ctx.remainingAccounts.zipIdx, recorded R ctx bank e.1 = true →
          tokenBalance (bank e.1.key) ≤ tokenBalance (bank' e.1.key))
      (fun e => e = .err (.route .reservedBalanceViolation) ∧ BelowRecorded R ctx bank bank') := by
    refine Yields.foldlM (I := fun (pre : List (AccountInfo × Nat)) idx =>
      idx = (pre.filter fun e => recorded R ctx bank e.1).length ∧
        ∀ e ∈ pre, recorded R ctx bank e.1 = true →
          tokenBalance (bank e.1.key) ≤ tokenBalance (bank' e.1.key)) ⟨rfl, by simp⟩ ?_
    rintro pre ⟨a, i⟩ post idx hsplit - ⟨rfl, hpre⟩
    have hmem : (a, i) ∈ ctx.remainingAccounts.zipIdx := by simp [hsplit]
    have hextend : recorded R ctx bank a = false ∨
        tokenBalance (bank a.key) ≤ tokenBalance (bank' a.key) →
        ∀ e ∈ pre ++ [(a, i)], recorded R ctx bank e.1 = true →
          tokenBalance (bank e.1.key) ≤ tokenBalance (bank' e.1.key) := by
      intro ha e he hrec
      rcases List.mem_append.mp he with he | he
      · exact hpre e he hrec
      · obtain rfl := List.mem_singleton.mp he
        rcases ha with ha | ha
        · rw [ha] at hrec
          exact absurd hrec (by simp)
        · exact ha
    unfold finalCheckStep
    simp only [hspec.isSet_eq hmem]
    cases hrec : recorded R ctx bank a with
    | false =>
        simp only [Bool.false_eq_true, if_false]
        exact Yields.pure ⟨by simp [hrec], hextend (Or.inl hrec)⟩
    | true =>
        have hget := hspec.balance_at hsplit hrec
        have hidx : (pre.filter fun e => recorded R ctx bank e.1).length + 1 < 2 ^ 64 := by
          have h1 := List.length_filter_le (fun e => recorded R ctx bank e.1) pre
          have h2 := (zipIdx_split hsplit).2.1
          have h3 := ctx.remaining_le
          omega
        simp only [if_true, hget, Res.orPanic, Except.ok_bind, Res.require]
        split
        next hle =>
          have hle' : tokenBalance (bank a.key) ≤ tokenBalance (bank' a.key) :=
            UInt64.le_iff_toNat_le.mp hle
          simp only [Except.ok_bind, Res.checkedAdd, hidx, if_true]
          exact Yields.ok ⟨by simp [hrec], hextend (Or.inr hle')⟩
        next hlt =>
          have hlt' : tokenBalance (bank' a.key) < tokenBalance (bank a.key) :=
            Nat.lt_of_not_le fun h => hlt (UInt64.le_iff_toNat_le.mpr h)
          refine Yields.error ⟨rfl, a, ?_, hrec, hlt'⟩
          exact List.mem_of_getElem? (List.mk_mem_zipIdx_iff_getElem?.mp hmem)
  refine hrun.mono ?_ (fun _ h => h)
  rintro _ ⟨-, h⟩ a ha hrec
  obtain ⟨i, hi⟩ := List.mem_iff_getElem?.mp ha
  exact h (a, i) (List.mk_mem_zipIdx_iff_getElem?.mpr hi) hrec

end ByrealTitan.Program
