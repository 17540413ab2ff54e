import ByrealTitan.Correctness.FetchedArrays
import ByrealTitan.Correctness.Navigation
import ByrealTitan.Correctness.QuoteCases
import ByrealTitan.Correctness.Refresh
import ByrealTitan.Lib.Trail

/-!
# `Correctness.VisitedArrays` — the tick arrays a quote visits, and those its instruction lists

A simulation walks from one tick array to the next along the bitmaps, and looks only at arrays that are
loaded. The arrays it looks at are a trail of the pool's own helper (`visited_trail`), so without
repetitions they are what the instruction lists first; and as no array beyond the sixth of a side is
fetched, the list is long enough (`visited_length_le`).
-/

namespace ByrealTitan.Clmm.ByrealClmmVenue

open Direction

variable {X : Crates} {v : ByrealClmmVenue X} {fuel feeRate sqrtPriceLimit amount : Nat}
  {zeroForOne : Bool} {currentTimestamp : Int}

/-! ## What a simulation visits -/

/-- The arrays that one search for a tick looks at, in order: those its
    turns start at, and the one it ends in. -/
def searchedArrays (v : ByrealClmmVenue X) (fuel : Nat) (currentTick : Int) (zeroForOne : Bool)
    (nav : TickNavState) : List Int :=
  (Loop.states (v.searchTurn fuel currentTick zeroForOne) fuel nav).map
    (·.currentValidTickArrayStartIndex) ++ match v.findNextInitializedTickWithNav fuel currentTick
    zeroForOne nav with
    | .ok (_, nav') => [nav'.currentValidTickArrayStartIndex]
    | .error _      => []

/-- The arrays that the turns of the swap loop look at from a configuration on. -/
def loopArrays (v : ByrealClmmVenue X) (searchFuel feeRate sqrtPriceLimit : Nat) (zeroForOne : Bool)
    (currentTimestamp : Int) (fuel : Nat) (c : SwapState × TickNavState) : List Int :=
  (Loop.states (v.swapTurn searchFuel feeRate sqrtPriceLimit zeroForOne currentTimestamp) fuel
    c).flatMap fun c =>
    if Running sqrtPriceLimit c.1 then v.searchedArrays searchFuel c.1.tick zeroForOne c.2 else []

/-- The arrays that the simulation of a quote looks at, with repetitions. -/
def arraysLookedAt (v : ByrealClmmVenue X) (fuel : Nat) (zeroForOne : Bool) (amount : Nat) : List Int :=
  match v.computeTradeFeeRate zeroForOne amount v.currentUnixTimestamp, v.initTickNavState fuel
    zeroForOne with
  | .ok feeRate, .ok nav =>
      v.loopArrays fuel feeRate (defaultPriceLimit X zeroForOne) zeroForOne v.currentUnixTimestamp fuel
        (v.initialSwapState amount, nav)
  | _, _ => []

/-- The arrays it visits, in the order of the first visit. -/
def arraysVisited (v : ByrealClmmVenue X) (fuel : Nat) (zeroForOne : Bool) (amount : Nat) : List Int :=
  (v.arraysLookedAt fuel zeroForOne amount).eraseDups

/-- The array with this start is loaded. -/
def Loaded (v : ByrealClmmVenue X) (start : Int) : Prop :=
  ∃ array, v.loadedTickArrayByStartIndex start = some array

/-- The pool's helper goes on from one array to the other. -/
def GoesOn (v : ByrealClmmVenue X) (zeroForOne : Bool) (start next : Int) : Prop :=
  X.poolNextInitializedTickArrayStartIndex v.poolState v.bitmapExtension start zeroForOne = .ok (some next)

/-- The helpers of the pool find what the venue's own find, from any array that is loaded. -/
structure HelpersAgree (v : ByrealClmmVenue X) : Prop where
  first {fuel : Nat} {zeroForOne : Bool} {found : Bool × Int} :
    v.firstInitializedTickArray fuel zeroForOne = .ok found →
    X.getFirstInitializedTickArray v.poolState v.bitmapExtension zeroForOne = .ok found
  next {fuel : Nat} {zeroForOne : Bool} {last : Int} {found : Option Int} : v.Loaded last →
    v.nextInitializedTickArrayStartIndex fuel last zeroForOne = .ok found →
    X.poolNextInitializedTickArrayStartIndex v.poolState v.bitmapExtension last zeroForOne = .ok found

/-- A search is a trail of loaded arrays, to the one the navigation ends at. -/
theorem iterate_searchTurn_trail (hagree : v.HelpersAgree) {n : Nat} {currentTick t : Int}
    {nav nav' : TickNavState}
    (h : Loop.iterate (v.searchTurn fuel currentTick zeroForOne) n nav = .ok (t, nav')) :
    let visits := (Loop.states (v.searchTurn fuel currentTick zeroForOne) n nav).map
      (·.currentValidTickArrayStartIndex) ++ [nav'.currentValidTickArrayStartIndex]
    Trail (v.GoesOn zeroForOne) nav.currentValidTickArrayStartIndex visits
    nav'.currentValidTickArrayStartIndex ∧
      ∀ s ∈ visits, v.Loaded s := by
  induction n generalizing nav with
  | zero => cases h
  | succ n ih =>
      cases hturn : v.searchTurn fuel currentTick zeroForOne nav with
      | error e =>
          rw [Loop.iterate_error hturn] at h
          cases h
      | ok turn =>
          obtain ⟨array, hloaded, hsearched⟩ := searchTurn_searched hturn
          have hhere : v.Loaded nav.currentValidTickArrayStartIndex := ⟨array, hloaded⟩
          cases turn with
          | next nav₁ =>
              rw [Loop.iterate_next hturn] at h
              rw [Loop.states_next hturn]
              obtain ⟨htrail, hall⟩ := ih h
              cases hsearched with
              | empty _ _ hadvances _ =>
                  refine ⟨Trail.start.append htrail (Or.inr (hagree.next hhere hadvances.1)), ?_⟩
                  intro s hs
                  rcases List.mem_cons.mp hs with rfl | hs
                  · exact hhere
                  · exact hall s hs
          | leave found =>
              rw [Loop.iterate_leave hturn] at h
              cases h
              rw [Loop.states_leave hturn]
              -- the last turn stays in its array or ends in the first tick of the one after it
              have hends : (nav'.currentValidTickArrayStartIndex = nav.currentValidTickArrayStartIndex ∨
                  v.GoesOn zeroForOne nav.currentValidTickArrayStartIndex
                  nav'.currentValidTickArrayStartIndex) ∧
                  v.Loaded nav'.currentValidTickArrayStartIndex := by
                cases hsearched with
                | here _       => exact ⟨Or.inl rfl, hhere⟩
                | first _ _ _  => exact ⟨Or.inl rfl, hhere⟩
                | advanced _ _ hadvances _ =>
                  exact ⟨Or.inr (hagree.next hhere hadvances.1), _, hadvances.2⟩
              refine ⟨Trail.start.append Trail.start (hends.1.imp_left Eq.symm), ?_⟩
              intro s hs
              rcases List.mem_cons.mp hs with rfl | hs
              · exact hhere
              · rw [List.mem_singleton.mp hs]
                exact hends.2

theorem searchedArrays_trail (hagree : v.HelpersAgree) {currentTick t : Int} {nav nav' : TickNavState}
    (h : v.findNextInitializedTickWithNav fuel currentTick zeroForOne nav = .ok (t, nav')) :
    Trail (v.GoesOn zeroForOne) nav.currentValidTickArrayStartIndex
        (v.searchedArrays fuel currentTick zeroForOne nav) nav'.currentValidTickArrayStartIndex ∧
      ∀ s ∈ v.searchedArrays fuel currentTick zeroForOne nav, v.Loaded s := by
  unfold searchedArrays
  rw [h]
  unfold findNextInitializedTickWithNav at h
  rw [findNextTick_eq] at h
  exact iterate_searchTurn_trail hagree h

/-- **A swap loop that succeeds follows a trail of loaded arrays**, unless it does not run at all. -/
theorem loopArrays_trail (hagree : v.HelpersAgree) {searchFuel : Nat} {c : SwapState × TickNavState}
    {state : SwapState}
    (h : Loop.iterate (v.swapTurn searchFuel feeRate sqrtPriceLimit zeroForOne currentTimestamp) fuel
      c = .ok state) :
    let visits := v.loopArrays searchFuel feeRate sqrtPriceLimit zeroForOne currentTimestamp fuel c
    (visits = [] ∧ state = c.1) ∨
      ∃ last, Trail (v.GoesOn zeroForOne) c.2.currentValidTickArrayStartIndex visits last ∧
        ∀ s ∈ visits, v.Loaded s := by
  unfold loopArrays
  induction fuel generalizing c with
  | zero => cases h
  | succ fuel ih =>
      cases hturn : v.swapTurn searchFuel feeRate sqrtPriceLimit zeroForOne currentTimestamp c with
      | error e =>
          rw [Loop.iterate_error hturn] at h
          cases h
      | ok turn =>
          cases turn with
          | leave found =>
              rw [Loop.iterate_leave hturn] at h
              cases h
              obtain ⟨hstop, rfl⟩ := swapTurn_leave.mp hturn
              rw [Loop.states_leave hturn]
              left
              refine ⟨?_, rfl⟩
              rw [List.flatMap_singleton, if_neg hstop]
          | next c' =>
              rw [Loop.iterate_next hturn] at h
              rw [Loop.states_next hturn]
              obtain ⟨hrun, nextTick, hfind, -⟩ := swapTurn_next.mp hturn
              obtain ⟨htrail, hall⟩ := searchedArrays_trail hagree hfind
              right
              rw [List.flatMap_cons, if_pos hrun]
              rcases ih h with ⟨hnone, -⟩ | ⟨last, htrail', hall'⟩
              · refine ⟨c'.2.currentValidTickArrayStartIndex, ?_, ?_⟩
                · rw [hnone, List.append_nil]
                  exact htrail
                · rw [hnone, List.append_nil]
                  exact hall
              · refine ⟨last, htrail.append htrail' (Or.inl rfl), ?_⟩
                intro s hs
                rcases List.mem_append.mp hs with hs | hs
                · exact hall s hs
                · exact hall' s hs

/-- **The arrays that a full quote looks at** are a trail of loaded arrays from the first one on. -/
theorem arraysLookedAt_trail (hagree : v.HelpersAgree) {swap : SwapResult} (hamount : amount ≠ 0)
    (h : v.computeSwap fuel zeroForOne amount none v.currentUnixTimestamp = .ok swap)
    (hfull : swap.amountIn = amount) :
    ∃ isMatch first last,
      X.getFirstInitializedTickArray v.poolState v.bitmapExtension zeroForOne = .ok (isMatch, first) ∧
      Trail (v.GoesOn zeroForOne) first (v.arraysLookedAt fuel zeroForOne amount) last ∧
      ∀ s ∈ v.arraysLookedAt fuel zeroForOne amount, v.Loaded s := by
  obtain ⟨feeRate, nav, state, hfee, hnav, hloop, -, rfl⟩ := computeSwap_eq_ok.mp h
  have hlooked : v.arraysLookedAt fuel zeroForOne amount = v.loopArrays fuel feeRate
      (defaultPriceLimit X zeroForOne) zeroForOne v.currentUnixTimestamp fuel
      (v.initialSwapState amount, nav) := by
    unfold arraysLookedAt
    rw [hfee, hnav]
  rw [hlooked]
  rw [simulateLoop_eq] at hloop
  obtain ⟨⟨isMatch, first⟩, hfirst, hstart⟩ := Except.bind_eq_ok.mp hnav
  cases hstart
  rcases loopArrays_trail hagree hloop with ⟨-, hstate⟩ | ⟨last, htrail, hall⟩
  · -- a loop that does not run spends nothing
    rw [hstate] at hfull
    have hspent : amount - amount = amount := hfull
    omega
  · exact ⟨isMatch, first, last, hagree.first hfirst, htrail, hall⟩

/-! ## What the instruction lists -/

/-- The helper follows a chain of arrays as far as it may. -/
theorem chain_leads_follow {s : Int} {l : List Int} {count : Nat}
    (h : (s :: l).IsChain (v.GoesOn zeroForOne))
    (hlength : l.length ≤ count) : l <+: v.followTickArrays zeroForOne count s := by
  induction l generalizing s count with
  | nil => exact List.nil_prefix
  | cons t l ih =>
      obtain ⟨hnext, hrest⟩ := List.isChain_cons_cons.mp h
      obtain ⟨count, rfl⟩ : ∃ n, count = n + 1 :=
        ⟨count - 1, by simp only [List.length_cons] at hlength; omega⟩
      have hstep : v.followTickArrays zeroForOne (count + 1) s = t ::
          v.followTickArrays zeroForOne count t := by
        unfold GoesOn at hnext
        rw [followTickArrays, hnext]
      rw [hstep, List.cons_prefix_cons]
      exact ⟨rfl, ih hrest (by simp only [List.length_cons] at hlength; omega)⟩

theorem followTickArrays_length_le (count : Nat) (s : Int) :
    (v.followTickArrays zeroForOne count s).length ≤ count := by
  induction count generalizing s with
  | zero => exact Nat.le_refl 0
  | succ count ih =>
      unfold followTickArrays
      split
      next next _ =>
        rw [List.length_cons]
        exact Nat.succ_le_succ (ih next)
      next => exact Nat.zero_le _

/-- What is live of keys behind a live one: those that are loaded. -/
theorem keepLive_of_ne_nil {keys live : List Pubkey} (h : live ≠ []) :
    v.keepLive keys live = .ok (live ++ keys.filter v.isLoaded) := by
  induction keys generalizing live with
  | nil =>
      rw [keepLive, List.filter_nil, List.append_nil]
  | cons key keys ih =>
      rw [keepLive]
      cases hloaded : v.isLoaded key with
      | true =>
          rw [if_pos rfl, ih (List.append_ne_nil_of_left_ne_nil h _), List.filter_cons_of_pos hloaded,
            List.append_assoc]
          rfl
      | false =>
          rw [if_neg Bool.false_ne_true, List.filter_cons_of_neg
            (by rw [hloaded]; exact Bool.false_ne_true)]
          have hempty : live.isEmpty = false := by
            cases live with
            | nil => exact absurd rfl h
            | cons _ _ => rfl
          rw [hempty, if_neg Bool.false_ne_true]
          exact ih h

/-- **Loaded arrays at the front of the list stay there.** -/
theorem liveDirectionalTickArrays_front {pre : List Pubkey} (hpre : pre ≠ [])
    (hleads : pre <+: v.getSwapTickArrays zeroForOne) (hloaded : ∀ key ∈ pre, v.isLoaded key = true) :
    ∃ live, v.liveDirectionalTickArrays zeroForOne = .ok live ∧ pre <+: live := by
  obtain ⟨rest, hrest⟩ := hleads
  cases pre with
  | nil => exact absurd rfl hpre
  | cons key pre =>
      have hkept : v.keepLive (v.getSwapTickArrays zeroForOne)
          [] = .ok (key :: pre ++ rest.filter v.isLoaded) := by
        rw [← hrest, List.cons_append, keepLive, if_pos (hloaded key List.mem_cons_self),
          keepLive_of_ne_nil (List.append_ne_nil_of_right_ne_nil _ (List.cons_ne_nil _ _)),
          List.filter_append,
          List.filter_eq_self.mpr fun key hkey => hloaded key (List.mem_cons_of_mem _ hkey)]
        rfl
      unfold liveDirectionalTickArrays
      rw [hkept]
      exact ⟨_, rfl, List.prefix_append _ _⟩

/-! ## What a refresh leaves -/

variable {accounts : AccountMap}

theorem insertTickArray_key {arrays : List (Pubkey × DynamicTickArrayState X)} {key : Pubkey}
    {parsed : DynamicTickArrayState X} {entry : Pubkey × DynamicTickArrayState X}
    (h : entry ∈ insertTickArray arrays key parsed) : entry.1 = key ∨ entry ∈ arrays := by
  unfold insertTickArray at h
  split at h
  next =>
    obtain ⟨other, hother, heq⟩ := List.mem_map.mp h
    split at heq
    next => exact Or.inl (by rw [← heq])
    next => exact Or.inr (heq ▸ hother)
  next =>
    rcases List.mem_append.mp h with h | h
    · exact Or.inr h
    · exact Or.inl (by rw [List.mem_singleton.mp h])

/-- Arrays are loaded under the keys that were asked for. -/
theorem parseTickArrays_key {keys : List Pubkey} {entry : Pubkey × DynamicTickArrayState X}
    (h : entry ∈ parseTickArrays accounts keys) : entry.1 ∈ keys := by
  have hgeneral : entry.1 ∈ keys ∨ entry ∈ ([] : List (Pubkey × DynamicTickArrayState X)) := by
    unfold parseTickArrays at h
    generalize ([] : List (Pubkey × DynamicTickArrayState X)) = arrays at h ⊢
    induction keys generalizing arrays with
    | nil => exact Or.inr h
    | cons key keys ih =>
        rw [List.foldl_cons] at h
        rcases ih _ h with hmem | hmem
        · exact Or.inl (List.mem_cons_of_mem _ hmem)
        · split at hmem
          next => exact Or.inr hmem
          next =>
            split at hmem
            next => exact Or.inr hmem
            next =>
              rcases insertTickArray_key hmem with heq | hmem
              · exact Or.inl (by rw [heq]; exact List.mem_cons_self)
              · exact Or.inr hmem
  rcases hgeneral with h | h
  · exact h
  · cases h

/-- The oracles of an instruction depend on the pool only. -/
theorem oracleAccounts_congr {w : ByrealClmmVenue X} (h : v.poolState = w.poolState) :
    v.oracleAccounts = w.oracleAccounts := by
  unfold oracleAccounts isSwapDynamicFeeEnabled token0PythOraclePubkey token1PythOraclePubkey
  rw [h]

theorem loadOracle0_oracles {w : ByrealClmmVenue X} (h : v.loadOracle0 accounts = .ok w) :
    ∃ oracles, w.oracleAccounts = .ok oracles := by
  obtain ⟨⟨o, hw⟩, hdynamic⟩ := loadOracle0_ok h
  have hpool : w.poolState = v.poolState := by rw [hw]
  rw [oracleAccounts_congr hpool]
  unfold oracleAccounts
  cases hfee : v.isSwapDynamicFeeEnabled with
  | true =>
      obtain ⟨-, -, key0, key1, price, hkey0, hkey1, -⟩ := hdynamic hfee
      rw [hkey0, hkey1]
      exact ⟨_, rfl⟩
  | false => exact ⟨_, rfl⟩

theorem loadTickArrays_keys {w : ByrealClmmVenue X} (h : v.loadTickArrays accounts = .ok w) :
    ∀ entry ∈ w.dynamicTickArrays, entry.1 ∈ w.getAllTickArrayAddresses := by
  have hsame : w.getAllTickArrayAddresses = v.getAllTickArrayAddresses := by
    cases h
    exact getAllTickArrayAddresses_congr rfl rfl rfl
  intro entry hentry
  rw [hsame]
  cases h
  exact @parseTickArrays_key X accounts v.getAllTickArrayAddresses entry hentry

/-- **A refresh loads arrays it asks for**, and configures the feeds that a dynamic fee needs. -/
theorem updateState_loaded {u : ByrealClmmVenue X} (h : u.updateState accounts = (.ok (), v)) :
    (∀ entry ∈ v.dynamicTickArrays, entry.1 ∈ v.getAllTickArrayAddresses) ∧
    ∃ oracles, v.oracleAccounts = .ok oracles := by
  unfold updateState at h
  rw [Steps.runSteps_ok] at h
  simp only [updateSteps, List.foldlM_cons, List.foldlM_nil, Except.bind_eq_ok, Except.pure_eq_ok] at h
  obtain ⟨w₁, -, w₂, -, w₃, -, w₄, -, w₅, -, w₆, horacle0, w₇, horacle1, w₈, hextension, w₉,
      harrays, rfl⟩ := h
  obtain ⟨oracles, horacles⟩ := loadOracle0_oracles horacle0
  refine ⟨loadTickArrays_keys harrays, oracles, ?_⟩
  rw [← horacles]
  apply oracleAccounts_congr
  -- the steps behind the first oracle keep the pool
  obtain ⟨⟨o, rfl⟩, -⟩ := loadOracle1_ok horacle1
  cases hextension
  cases harrays
  rfl

/-! ## The first arrays of the list -/

/-- The loaded arrays sit at the addresses of their own starts, and no array that a refresh asks for has
    the address of another one. -/
structure ArraysAtHome (v : ByrealClmmVenue X) : Prop where
  keyed : ∀ entry ∈ v.dynamicTickArrays, entry.1 = v.getTickArrayAddress entry.2.startTickIndex
  distinct : ∀ entry ∈ v.dynamicTickArrays, ∀ start ∈ v.allStartIndexes,
    v.getTickArrayAddress entry.2.startTickIndex = v.getTickArrayAddress start →
    entry.2.startTickIndex = start

/-- A loaded array was asked for, and its address is one of a loaded account. -/
theorem ArraysAtHome.loaded (hhome : v.ArraysAtHome)
    (hkeys : ∀ entry ∈ v.dynamicTickArrays, entry.1 ∈ v.getAllTickArrayAddresses) {s : Int}
    (h : v.Loaded s) :
    s ∈ v.allStartIndexes ∧ v.isLoaded (v.getTickArrayAddress s) = true := by
  obtain ⟨array, harray⟩ := h
  obtain ⟨rfl, key, hentry⟩ := loadedTickArray_eq_some harray
  have hkey := hhome.keyed _ hentry
  simp only at hkey
  refine ⟨?_, ?_⟩
  · obtain ⟨start, hstart, haddress⟩ := List.mem_map.mp (hkeys _ hentry)
    simp only at haddress
    rw [hhome.distinct _ hentry start hstart (hkey.symm.trans haddress.symm)]
    exact hstart
  · unfold isLoaded
    rw [decide_eq_true_eq, ← hkey]
    exact List.mem_map.mpr ⟨_, hentry, rfl⟩

/-- A chain of arrays from the first one on, as far as a side lists, leads the list of this side. -/
theorem chain_leads_starts {isMatch : Bool} {first : Int} {l : List Int}
    (hfirst : X.getFirstInitializedTickArray v.poolState v.bitmapExtension zeroForOne =
      .ok (isMatch, first))
    (hchain : (first :: l).IsChain (v.GoesOn zeroForOne))
    (hlength : l.length ≤ v.maxOneSideTickArrays - 1) :
    first :: l <+: v.swapStarts zeroForOne := by
  unfold swapStarts
  rw [hfirst]
  show first :: l <+: first :: v.followTickArrays zeroForOne (v.maxOneSideTickArrays - 1) first
  rw [List.cons_prefix_cons]
  exact ⟨rfl, chain_leads_follow hchain hlength⟩

theorem swapStarts_length_le {isMatch : Bool} {first : Int}
    (hfirst : X.getFirstInitializedTickArray v.poolState v.bitmapExtension zeroForOne =
      .ok (isMatch, first)) :
    (v.swapStarts zeroForOne).length ≤ v.maxOneSideTickArrays - 1 + 1 := by
  unfold swapStarts
  rw [hfirst]
  show (v.followTickArrays zeroForOne (v.maxOneSideTickArrays - 1) first).length + 1 ≤ _
  exact Nat.succ_le_succ (followTickArrays_length_le _ first)

/-- What a refresh asks for beyond the first array of a side, this side lists. -/
theorem listed_of_further (hdir : v.DirectionalHelpers) (hmax : 0 < v.maxOneSideTickArrays)
    {isMatch : Bool} {first t : Int}
    (hfirst : X.getFirstInitializedTickArray v.poolState v.bitmapExtension zeroForOne =
      .ok (isMatch, first))
    (hfurther : Further zeroForOne first t) (hasked : t ∈ v.allStartIndexes) :
    t ∈ v.swapStarts zeroForOne := by
  have hfinds : v.findsFirst zeroForOne = true := by
    unfold findsFirst
    rw [hfirst]
    rfl
  have husable : v.helpersUsable = true := by
    by_contra hunusable
    rw [Bool.not_eq_true] at hunusable
    rw [hdir.unusable hunusable] at hfinds
    cases hfinds
  have hcollect := v.collectDir_of_findsFirst hfinds hmax
  have hsome : v.collectDir true v.maxOneSideTickArrays ++ v.collectDir false v.maxOneSideTickArrays ≠
      [] := by
    have hside : v.collectDir zeroForOne v.maxOneSideTickArrays ≠ [] := by
      intro hnone
      have hleads := chain_leads_starts (l := []) hfirst (List.isChain_singleton first) (Nat.zero_le _)
      rw [← hcollect, hnone] at hleads
      cases List.prefix_nil.mp hleads
    intro hnone
    obtain ⟨hdown, hup⟩ := List.append_eq_nil_iff.mp hnone
    cases zeroForOne with
    | true => exact hside hdown
    | false => exact hside hup
  -- with usable helpers, a refresh asks for what the two sides list and nothing else
  have hlisted : t ∈ v.collectDir zeroForOne v.maxOneSideTickArrays ∨
      t ∈ v.collectDir (!zeroForOne) v.maxOneSideTickArrays := by
    rw [mem_allStartIndexes, helperStartIndexes_eq, if_pos husable, if_neg hsome,
      List.mem_append] at hasked
    cases zeroForOne with
    | true => exact hasked
    | false => exact hasked.symm
  rcases hlisted with hhere | hback
  · rw [← hcollect]
    exact hhere
  · -- the other side lists nothing beyond the first array of this one
    have honward := hdir.collect hback
    have hstart := hdir.first hfirst
    unfold Onward at honward hstart
    cases zeroForOne with
    | true =>
        rw [further_down] at hfurther
        simp only [Bool.not_true, Bool.false_eq_true, if_false, if_true] at honward hstart
        omega
    | false =>
        rw [further_up] at hfurther
        simp only [Bool.not_false, Bool.false_eq_true, if_false, if_true] at honward hstart
        omega

/-- **No more arrays are visited than a side may list**: what lies further on was not asked for. -/
theorem visited_length_le (hdir : v.DirectionalHelpers) (hmax : 0 < v.maxOneSideTickArrays)
    {isMatch : Bool} {first : Int} {l : List Int}
    (hfirst : X.getFirstInitializedTickArray v.poolState v.bitmapExtension zeroForOne =
      .ok (isMatch, first))
    (hchain : (first :: l).IsChain (v.GoesOn zeroForOne))
    (hpairs : (first :: l).Pairwise (Further zeroForOne))
    (hasked : ∀ s ∈ l, s ∈ v.allStartIndexes) : l.length ≤ v.maxOneSideTickArrays - 1 := by
  by_contra hlong
  rw [Nat.not_le] at hlong
  -- the first arrays of the chain are what the side lists, and one more is visited
  obtain ⟨pre, t, post, rfl, hlength⟩ : ∃ pre t post, l = pre ++ t :: post ∧
      pre.length = v.maxOneSideTickArrays - 1 := by
    have hsplit := (List.take_append_drop (v.maxOneSideTickArrays - 1) l).symm
    rw [List.drop_eq_getElem_cons hlong] at hsplit
    exact ⟨_, _, _, hsplit, List.length_take_of_le (Nat.le_of_lt hlong)⟩
  have hside : first :: pre = v.swapStarts zeroForOne := by
    have hleads := chain_leads_starts hfirst (List.IsChain.left_of_append hchain) (Nat.le_of_eq hlength)
    apply hleads.eq_of_length_le
    rw [List.length_cons, hlength]
    exact swapStarts_length_le hfirst
  have hbehind : ∀ s ∈ first :: pre, Further zeroForOne s t := by
    intro s hs
    rw [← List.cons_append, List.pairwise_append] at hpairs
    exact hpairs.2.2 s hs t List.mem_cons_self
  have hlisted := listed_of_further hdir hmax hfirst (hbehind first List.mem_cons_self)
    (hasked t (List.mem_append_right _ List.mem_cons_self))
  rw [← hside] at hlisted
  exact Further.irrefl (hbehind t hlisted)

/-- The tick arrays that an instruction lists: its writable accounts behind the leading ones. -/
def tickArrayAccounts (ix : Instruction) : List Pubkey :=
  ((ix.accounts.drop 14).filter (·.isWritable)).map (·.pubkey)

theorem oracleAccounts_readonly {oracles : List AccountMeta} (h : v.oracleAccounts = .ok oracles) :
    ∀ oracle ∈ oracles, oracle.isWritable = false := by
  unfold oracleAccounts at h
  split at h
  next =>
    obtain ⟨key0, -, h⟩ := Except.bind_eq_ok.mp h
    obtain ⟨key1, -, h⟩ := Except.bind_eq_ok.mp h
    cases h
    simp [AccountMeta.newReadonly]
  next =>
    cases h
    simp

/-- They are the live ones. -/
theorem tickArrayAccounts_eq {build : SwapBuildRequest} {live : List Pubkey} {oracles : List AccountMeta}
    (horacles : ∀ oracle ∈ oracles, oracle.isWritable = false) {ix : Instruction}
    (h : ix.accounts = v.leadingAccounts zeroForOne build ++ live.map (fun key => .new key false) ++
      oracles) :
    tickArrayAccounts ix = live := by
  have hleading : (v.leadingAccounts zeroForOne build).length = 14 := by
    cases zeroForOne <;> rfl
  have hlive : (live.map fun key => AccountMeta.new key false).filter (·.isWritable) =
      live.map fun key => AccountMeta.new key false := by
    apply List.filter_eq_self.mpr
    intro account haccount
    obtain ⟨key, -, rfl⟩ := List.mem_map.mp haccount
    rfl
  have hnone : oracles.filter (·.isWritable) = [] := by
    apply List.filter_eq_nil_iff.mpr
    intro oracle horacle
    rw [horacles oracle horacle]
    exact Bool.false_ne_true
  unfold tickArrayAccounts
  rw [h, List.append_assoc, List.drop_left' hleading, List.filter_append, hlive, hnone, List.append_nil,
    List.map_map]
  exact List.map_id live

/-- Where the checks of a quote pass and arrays are live, the instruction is built. -/
theorem buildSwapInstruction_of_accepts {request : QuoteRequest} {build : SwapBuildRequest}
    {live : List Pubkey} {oracles : List AccountMeta}
    (haccepts : v.Accepts request.inputMint request.outputMint zeroForOne)
    (hsource : build.sourceMint = request.inputMint)
    (hdestination : build.destinationMint = request.outputMint)
    (hlive : v.liveDirectionalTickArrays zeroForOne = .ok live)
    (horacles : v.oracleAccounts = .ok oracles) :
    ∃ ix, v.buildSwapInstruction build = .ok ix ∧
      ix.accounts = v.leadingAccounts zeroForOne build ++ live.map (fun key => .new key false) ++
        oracles := by
  obtain ⟨⟨outputIs0, hmints⟩, hquotable⟩ := haccepts
  obtain ⟨⟨⟩, hopen, -⟩ := Except.bind_eq_ok.mp hquotable
  rw [← hsource, ← hdestination] at hmints
  unfold buildSwapInstruction
  rw [hopen, Except.ok_bind, hmints, Except.ok_bind]
  simp only
  rw [hlive, Except.ok_bind, horacles]
  exact ⟨_, rfl, rfl⟩

/-- **The instruction lists the tick arrays its quote visits**, in the order
    of the first visit, before any other. -/
theorem visited_arrays_listed {u : ByrealClmmVenue X} (hbuilt : Built X u)
    (hupdate : u.updateState accounts = (.ok (), v)) (hhome : v.ArraysAtHome) (hagree : v.HelpersAgree)
    (hdir : v.DirectionalHelpers) {request : QuoteRequest} {upperBound : Option Nat}
    {quote : CoreQuoteResult} (hamount : request.amount.toNat ≠ 0)
    (hquote : v.quoteWithPriceUpperBound fuel request upperBound = .ok quote)
    (hfull : quote.notEnoughLiquidity = false) {build : SwapBuildRequest}
    (hsource : build.sourceMint = request.inputMint)
    (hdestination : build.destinationMint = request.outputMint) :
    ∃ ix, v.buildSwapInstruction build = .ok ix ∧
      (v.arraysVisited fuel (decide (request.inputMint = v.reserveMints.1)) request.amount.toNat).map
        v.getTickArrayAddress <+: tickArrayAccounts ix := by
  obtain ⟨hkeys, oracles, horacles⟩ := updateState_loaded hupdate
  have hbuilt' := Built.refreshed accounts hbuilt
  rw [hupdate] at hbuilt'
  have hmax : 0 < v.maxOneSideTickArrays := by
    rw [hbuilt'.maxOneSideTickArrays]
    exact Nat.succ_pos 5
  obtain ⟨zeroForOne, haccepts, hanswer⟩ := quoteWithPriceUpperBound_eq_ok.mp hquote
  rw [← haccepts.eq_decide]
  obtain ⟨swap, hswap, hall, -, -⟩ := answer_full hamount hanswer hfull
  obtain ⟨isMatch, first, last, hfirst, htrail, hloaded⟩ := arraysLookedAt_trail hagree hamount hswap hall
  have honward : ∀ s t, v.GoesOn zeroForOne s t → Further zeroForOne s t :=
    fun _ _ hnext => hdir.next hnext
  obtain ⟨hhead, -, hchain, hpairs⟩ := htrail.eraseDups honward (fun _ => Further.irrefl)
    (fun _ _ _ => Further.trans)
  have hvisited : ∀ s ∈ v.arraysVisited fuel zeroForOne request.amount.toNat,
      s ∈ v.allStartIndexes ∧ v.isLoaded (v.getTickArrayAddress s) = true := fun s hs =>
    hhome.loaded hkeys (hloaded s (List.mem_eraseDups.mp hs))
  have hstart : ∃ l, v.arraysVisited fuel zeroForOne request.amount.toNat = first :: l := by
    unfold arraysVisited
    cases hl : (v.arraysLookedAt fuel zeroForOne request.amount.toNat).eraseDups with
    | nil =>
        rw [hl] at hhead
        cases hhead
    | cons s l =>
        rw [hl] at hhead
        cases hhead
        exact ⟨l, rfl⟩
  obtain ⟨l, hl⟩ := hstart
  have hsame : (v.arraysLookedAt fuel zeroForOne request.amount.toNat).eraseDups = first :: l := hl
  rw [hsame] at hchain hpairs
  rw [hl] at hvisited ⊢
  have hlength := visited_length_le hdir hmax hfirst hchain hpairs fun s hs =>
    (hvisited s (List.mem_cons_of_mem _ hs)).1
  have hleads := chain_leads_starts hfirst hchain hlength
  have hlisted : ∀ key ∈ (first :: l).map v.getTickArrayAddress, v.isLoaded key = true := by
    intro key hkey
    obtain ⟨s, hs, rfl⟩ := List.mem_map.mp hkey
    exact (hvisited s hs).2
  obtain ⟨live, hlive, hfront⟩ :=
    liveDirectionalTickArrays_front (List.cons_ne_nil _ _) (hleads.map v.getTickArrayAddress) hlisted
  obtain ⟨ix, hix, haccounts⟩ := buildSwapInstruction_of_accepts haccepts hsource hdestination
    hlive horacles
  refine ⟨ix, hix, ?_⟩
  rw [tickArrayAccounts_eq (oracleAccounts_readonly horacles) haccounts]
  exact hfront

/-! ## A quote of the sample market -/

section Sample

open Adapter LittleEndian

/-- What a refresh of the sample market leaves: two arrays at their addresses, and scans that end. -/
theorem sample_refreshed :
    let r := (Sample.fresh Sample.pool).updateState (Sample.accounts 1 (leBytes 8 100) (leBytes 8 2500))
    r.1.failure? = none ∧ r.2.poolState = Sample.pool ∧ Sample.pool.tokenMint0 = r.2.reserveMints.1 ∧
      r.2.dynamicTickArrays.map (fun entry => (entry.1, entry.2.startTickIndex)) =
        [(r.2.getTickArrayAddress (-60), -60), (r.2.getTickArrayAddress 0, 0)] ∧
      (∀ s ∈ r.2.allStartIndexes, (s = -60 ∨ r.2.getTickArrayAddress (-60) ≠ r.2.getTickArrayAddress s) ∧
        (s = 0 ∨ r.2.getTickArrayAddress 0 ≠ r.2.getTickArrayAddress s)) ∧
      (∀ zeroForOne, (r.2.firstInitializedTickArray 20 zeroForOne).toOption = some (true, 0)) ∧
      (r.2.nextInitializedTickArrayStartIndex 20 0 true).toOption = some (some (-60)) ∧
      (r.2.nextInitializedTickArrayStartIndex 20 0 false).toOption = some none ∧
      (r.2.nextInitializedTickArrayStartIndex 20 (-60) true).toOption = some none ∧
      (r.2.nextInitializedTickArrayStartIndex 20 (-60) false).toOption = some (some 0) ∧
      (r.2.quoteWithPriceUpperBound 30 (Sample.requestOf Sample.pool true 1000) none).okAnd
        (!·.notEnoughLiquidity) = true ∧
      r.2.arraysVisited 30 true 1000 = [0, -60] := by
  decide +kernel

section SampleArrays

variable {v : ByrealClmmVenue Sample.X}
  (harrays : v.dynamicTickArrays.map (fun entry => (entry.1, entry.2.startTickIndex)) =
    [(v.getTickArrayAddress (-60), -60), (v.getTickArrayAddress 0, 0)])

include harrays

/-- The two arrays of the sample market, each under its address. -/
theorem sample_entry {entry : Pubkey × DynamicTickArrayState Sample.X}
    (hentry : entry ∈ v.dynamicTickArrays) :
    (entry.1 = v.getTickArrayAddress (-60) ∧ entry.2.startTickIndex = -60) ∨
      (entry.1 = v.getTickArrayAddress 0 ∧ entry.2.startTickIndex = 0) := by
  have hmem := List.mem_map_of_mem (f := fun entry => (entry.1, entry.2.startTickIndex)) hentry
  rw [harrays] at hmem
  simpa using hmem

theorem sample_loaded {s : Int} (h : v.Loaded s) : s = -60 ∨ s = 0 := by
  obtain ⟨array, harray⟩ := h
  obtain ⟨rfl, key, hentry⟩ := loadedTickArray_eq_some harray
  rcases sample_entry harrays hentry with ⟨-, hstart⟩ | ⟨-, hstart⟩
  · exact Or.inl hstart
  · exact Or.inr hstart

theorem sample_arraysAtHome (hapart : ∀ s ∈ v.allStartIndexes,
    (s = -60 ∨ v.getTickArrayAddress (-60) ≠ v.getTickArrayAddress s) ∧
      (s = 0 ∨ v.getTickArrayAddress 0 ≠ v.getTickArrayAddress s)) : v.ArraysAtHome where
  keyed entry hentry := by
    rcases sample_entry harrays hentry with ⟨hkey, hstart⟩ | ⟨hkey, hstart⟩
    · rw [hkey, hstart]
    · rw [hkey, hstart]
  distinct entry hentry s hs hsame := by
    rcases sample_entry harrays hentry with ⟨-, hstart⟩ | ⟨-, hstart⟩
    · rw [hstart] at hsame ⊢
      exact ((hapart s hs).1.resolve_right fun hne => hne hsame).symm
    · rw [hstart] at hsame ⊢
      exact ((hapart s hs).2.resolve_right fun hne => hne hsame).symm

end SampleArrays

/-- The helpers of the pool and the venue's own agree where the arrays are those of the sample market. -/
theorem sample_helpersAgree {v : ByrealClmmVenue Sample.X} (hpool : v.poolState = Sample.pool)
    (hloaded : ∀ {s}, v.Loaded s → s = -60 ∨ s = 0)
    (hfirst : ∀ zeroForOne, (v.firstInitializedTickArray 20 zeroForOne).toOption = some (true, 0))
    (hnext : ∀ zeroForOne, ((v.nextInitializedTickArrayStartIndex 20 0 zeroForOne).toOption =
        some (if zeroForOne then some (-60) else none)) ∧
      (v.nextInitializedTickArrayStartIndex 20 (-60) zeroForOne).toOption =
        some (if zeroForOne then none else some 0)) : v.HelpersAgree where
  first {fuel zeroForOne found} h := by
    have hsame := Res.Below.agree (fun _ _ hle => v.firstInitializedTickArray_below hle)
      (Except.toOption_eq_some.mp (hfirst zeroForOne)) h
    have hhelper : ∀ zeroForOne, Sample.X.getFirstInitializedTickArray Sample.pool none zeroForOne =
        .ok (true, 0) := by
      decide +kernel
    rw [hpool, ← hsame]
    exact hhelper zeroForOne
  next {fuel zeroForOne last found} hlast h := by
    obtain ⟨hzero, hbelow⟩ := hnext zeroForOne
    have hscan := fun m n hle => @scanBitmaps_below Sample.X v m zeroForOne n hle
    have hhelper : ∀ zeroForOne,
        Sample.X.poolNextInitializedTickArrayStartIndex Sample.pool none (-60) zeroForOne =
          .ok (if zeroForOne then none else some 0) ∧
        Sample.X.poolNextInitializedTickArrayStartIndex Sample.pool none 0 zeroForOne =
          .ok (if zeroForOne then some (-60) else none) := by
      decide +kernel
    rw [hpool]
    rcases hloaded hlast with rfl | rfl
    · have hsame := Res.Below.agree (fun m n hle => hscan m n hle _) (Except.toOption_eq_some.mp hbelow) h
      rw [← hsame]
      exact (hhelper zeroForOne).1
    · have hsame := Res.Below.agree (fun m n hle => hscan m n hle _) (Except.toOption_eq_some.mp hzero) h
      rw [← hsame]
      exact (hhelper zeroForOne).2

/-- A sale of 1000 base units visits both arrays, and its instruction lists them. -/
theorem visited_arrays_listed_sample :
    ∃ (v : ByrealClmmVenue Sample.X) (ix : Instruction),
      v.arraysVisited 30 true 1000 = [0, -60] ∧
      v.buildSwapInstruction ⟨Pubkey.fill 7, Pubkey.fill 1, Pubkey.fill 2, Pubkey.fill 8, Pubkey.fill 9,
        1000, 0⟩ = .ok ix ∧
      [v.getTickArrayAddress 0, v.getTickArrayAddress (-60)] <+: tickArrayAccounts ix := by
  obtain ⟨hfail, hpool, hmint, harrays, hapart, hfirst, hdown, hnone, hnone', hup, hquote, hvisited⟩ :=
    sample_refreshed
  obtain ⟨⟨⟩, hok⟩ := Except.exists_of_failure? hfail
  have hbuilt : Built Sample.X (Sample.fresh Sample.pool) :=
    @Built.fromAccount Sample.X Sample.market BYREAL_CLMM_PROGRAM_ID [1] _ rfl
  generalize hrefreshed : (Sample.fresh Sample.pool).updateState
    (Sample.accounts 1 (leBytes 8 100) (leBytes 8 2500)) = r at *
  obtain ⟨result, v⟩ := r
  simp only at *
  subst hok
  have hhome := sample_arraysAtHome harrays hapart
  have hagree : v.HelpersAgree := by
    refine sample_helpersAgree hpool (sample_loaded harrays) hfirst fun zeroForOne => ?_
    cases zeroForOne
    · exact ⟨hnone, hup⟩
    · exact ⟨hdown, hnone'⟩
  have hdir : v.DirectionalHelpers := directionalHelpers v (by unfold spacing; rw [hpool]; decide)
  obtain ⟨quote, hok, hfull⟩ := Except.okAnd_eq_true.mp hquote
  let build : SwapBuildRequest := ⟨Pubkey.fill 7, Pubkey.fill 1, Pubkey.fill 2, Pubkey.fill 8,
    Pubkey.fill 9, 1000, 0⟩
  have hsource : build.sourceMint = (Sample.requestOf Sample.pool true 1000).inputMint := rfl
  have hdestination : build.destinationMint = (Sample.requestOf Sample.pool true 1000).outputMint := rfl
  obtain ⟨ix, hix, hlisted⟩ := visited_arrays_listed hbuilt hrefreshed hhome hagree hdir (by decide) hok
    (by simpa using hfull) hsource hdestination
  refine ⟨v, ix, hvisited, hix, ?_⟩
  have hsale : decide ((Sample.requestOf Sample.pool true 1000).inputMint = v.reserveMints.1) = true :=
    decide_eq_true hmint
  have hsame : v.arraysVisited 30 true (Sample.requestOf Sample.pool true 1000).amount.toNat =
      [0, -60] := hvisited
  rw [hsale, hsame] at hlisted
  exact hlisted

end Sample

end ByrealTitan.Clmm.ByrealClmmVenue
