import ByrealTitan.Correctness.Updated

/-!
# `Correctness.TickArrayData` — which accounts are tick arrays

A tick array account is told by its first eight bytes. `Layout` states both formats as concatenations,
the way they were written; the decoders cut the bytes by their offsets. The two agree
(`fromAccountData_eq_some`): what is accepted is laid out as an array, everything laid out as one is
accepted, and read as it was written. So after a refresh the venue holds, of the accounts it was given
under the addresses it asks for, the tick arrays and no others (`loaded_arrays_exact`).
-/

namespace ByrealTitan.Clmm

open LittleEndian

variable {X : Crates}

/-! ## The formats -/

/-- The discriminators are eight bytes and differ; the header of a dynamic array has its one in front;
    tick slots have a size. -/
structure FormatLaw (X : Crates) : Prop where
  dynTag : X.DYN_TICK_ARRAY_DISCRIMINATOR.length = 8
  fixedTag : X.TICK_ARRAY_DISCRIMINATOR.length = 8
  distinct : X.TICK_ARRAY_DISCRIMINATOR ≠ X.DYN_TICK_ARRAY_DISCRIMINATOR
  header : 8 ≤ X.DYN_TICK_ARRAY_HEADER_LEN
  slot : 0 < X.TICK_STATE_SIZE

/-- Tick slots of the right size. -/
def SlotBytes (X : Crates) (slots : List (List UInt8)) :
    Prop := ∀ slot ∈ slots, slot.length = X.TICK_STATE_SIZE

/-- The bytes of a tick array. A fixed one may be followed by anything, a dynamic one by nothing. -/
inductive Layout (X : Crates) : List UInt8 → DynamicTickArrayState X → Prop where
  | fixed {poolId start rest : List UInt8} {slots : List (List UInt8)} {ta : FixedTickArraySnapshot X} :
      poolId.length = 32 → start.length = 4 → slots.length = X.TICK_ARRAY_SIZE → SlotBytes X slots →
      ta.startTickIndex = readI32 start →
      (∀ i : Fin X.TICK_ARRAY_SIZE, ∀ slot, slots[i.val]? = some slot →
        ta.ticks i = X.readTickState slot) →
      Layout X (X.TICK_ARRAY_DISCRIMINATOR ++ (poolId ++ (start ++ (slots.flatten ++ rest)))) (.fixed ta)
  | dynamic {header : List UInt8} {slots : List (List UInt8)} :
      header.length = X.DYN_TICK_ARRAY_HEADER_LEN - 8 → SlotBytes X slots →
      Layout X (X.DYN_TICK_ARRAY_DISCRIMINATOR ++ (header ++ slots.flatten))
        (.dynamic (X.readDynTickArray header) (slots.map X.readTickState))

/-! ## Slots -/

theorem length_flatten_slots {slots : List (List UInt8)} (h : SlotBytes X slots) :
    slots.flatten.length = slots.length * X.TICK_STATE_SIZE := by
  induction slots with
  | nil => simp
  | cons slot slots ih =>
      have hslot := h slot List.mem_cons_self
      have hrest := ih fun s hs => h s (List.mem_cons_of_mem slot hs)
      rw [List.flatten_cons, List.length_append, hslot, hrest, List.length_cons,
        Nat.succ_mul, Nat.add_comm]

namespace DynamicTickArrayState

/-- Cutting slots apart that were put together. -/
theorem chunksExact_flatten {slots : List (List UInt8)} (h : SlotBytes X slots) :
    chunksExact X.TICK_STATE_SIZE slots.length slots.flatten = slots := by
  induction slots with
  | nil => rfl
  | cons slot slots ih =>
      have hslot := h slot List.mem_cons_self
      have hrest := ih fun s hs => h s (List.mem_cons_of_mem slot hs)
      rw [List.length_cons, chunksExact, List.flatten_cons, List.take_left' hslot,
        List.drop_left' hslot, hrest]

/-- Putting together what was cut apart. -/
theorem flatten_chunksExact {size count : Nat} {bytes : List UInt8} (h : bytes.length = count * size) :
    (chunksExact size count bytes).flatten = bytes ∧ (chunksExact size count bytes).length = count ∧
      ∀ chunk ∈ chunksExact size count bytes, chunk.length = size := by
  induction count generalizing bytes with
  | zero =>
      rw [Nat.zero_mul] at h
      rw [List.eq_nil_of_length_eq_zero h]
      exact ⟨rfl, rfl, fun chunk hchunk => absurd hchunk List.not_mem_nil⟩
  | succ count ih =>
      rw [Nat.succ_mul] at h
      have hdrop : (bytes.drop size).length = count * size := by
        rw [List.length_drop]
        omega
      obtain ⟨hflat, hlen, hsizes⟩ := ih hdrop
      refine ⟨?_, ?_, fun chunk hchunk => ?_⟩
      · rw [chunksExact, List.flatten_cons, hflat, List.take_append_drop]
      · rw [chunksExact, List.length_cons, hlen]
      · rw [chunksExact, List.mem_cons] at hchunk
        rcases hchunk with rfl | hchunk
        · rw [List.length_take]
          omega
        · exact hsizes chunk hchunk

/-- A slot by its offset. -/
theorem chunksExact_get {size count i : Nat} (bytes : List UInt8) (hi : i < count) :
    (chunksExact size count bytes)[i]? = some ((bytes.drop (i * size)).take size) := by
  induction count generalizing bytes i with
  | zero => omega
  | succ count ih =>
      cases i with
      | zero => simp [chunksExact]
      | succ i =>
          rw [chunksExact, List.getElem?_cons_succ, ih (bytes.drop size) (by omega), List.drop_drop,
            Nat.succ_mul, Nat.add_comm size]

end DynamicTickArrayState

open DynamicTickArrayState

/-! ## Both decoders -/

theorem FixedTickArraySnapshot.eq_of_ticks {ta tb : FixedTickArraySnapshot X}
    (hstart : ta.startTickIndex = tb.startTickIndex) (hticks : ∀ i, ta.ticks i = tb.ticks i) :
    ta = tb := by
  cases ta
  cases tb
  cases hstart
  rw [FixedTickArraySnapshot.mk.injEq]
  exact ⟨rfl, funext hticks⟩

/-- What a fixed array is laid out as, it is read as. -/
theorem read_fixed {poolId start rest tag : List UInt8} {slots : List (List UInt8)}
    {ta : FixedTickArraySnapshot X}
    (htag : tag.length = 8) (hpool : poolId.length = 32) (hstart : start.length = 4)
    (hlen : slots.length = X.TICK_ARRAY_SIZE) (hslots : SlotBytes X slots)
    (hindex : ta.startTickIndex = readI32 start)
    (hticks : ∀ i : Fin X.TICK_ARRAY_SIZE, ∀ slot, slots[i.val]? = some slot →
      ta.ticks i = X.readTickState slot) :
    FixedTickArraySnapshot.fromAccountData (tag ++ (poolId ++ (start ++ (slots.flatten ++ rest)))) =
      some ta := by
  have hflat := length_flatten_slots hslots
  have hbody : (tag ++ (poolId ++ (start ++ (slots.flatten ++ rest)))).drop 8 =
      poolId ++ (start ++ (slots.flatten ++ rest)) := List.drop_left' htag
  have hticksBytes : ((poolId ++ (start ++ (slots.flatten ++ rest))).drop (32 + 4)).take
      (X.TICK_STATE_SIZE * X.TICK_ARRAY_SIZE) = slots.flatten := by
    rw [← List.drop_drop, List.drop_left' hpool, List.drop_left' hstart, List.take_left' ?_]
    rw [hflat, hlen, Nat.mul_comm]
  have hstartBytes : ((poolId ++ (start ++ (slots.flatten ++ rest))).drop 32).take 4 = start := by
    rw [List.drop_left' hpool, List.take_left' hstart]
  unfold FixedTickArraySnapshot.fromAccountData
  rw [if_neg (by simp only [List.length_append]; omega)]
  simp only [hbody, hticksBytes, hstartBytes]
  rw [if_neg ?_]
  · apply congrArg some
    refine FixedTickArraySnapshot.eq_of_ticks hindex.symm fun i => ?_
    have hget : slots[i.val]? = some ((slots.flatten.drop (i.val * X.TICK_STATE_SIZE)).take
        X.TICK_STATE_SIZE) := by
      have hi : i.val < slots.length := by
        rw [hlen]
        exact i.isLt
      have hchunk := @chunksExact_get X.TICK_STATE_SIZE slots.length i.val slots.flatten hi
      rw [chunksExact_flatten hslots] at hchunk
      exact hchunk
    exact (hticks i _ hget).symm
  · simp only [List.length_append, hpool, hstart, hflat, hlen, Nat.mul_comm X.TICK_STATE_SIZE]
    omega

/-- What is read as a fixed array is laid out as one, behind its first eight bytes. -/
theorem fixed_of_read {data : List UInt8} {ta : FixedTickArraySnapshot X}
    (h : FixedTickArraySnapshot.fromAccountData data = some ta)
    (htag : data.take 8 = X.TICK_ARRAY_DISCRIMINATOR) :
    Layout X data (.fixed ta) := by
  unfold FixedTickArraySnapshot.fromAccountData at h
  split at h
  next => cases h
  next =>
    simp only at h
    split at h
    next => cases h
    next hlong =>
      cases h
      generalize hbody : data.drop 8 = body at hlong ⊢
      have hticksLen : ((body.drop (32 + 4)).take (X.TICK_STATE_SIZE * X.TICK_ARRAY_SIZE)).length =
          X.TICK_ARRAY_SIZE * X.TICK_STATE_SIZE := by
        rw [List.length_take, List.length_drop, Nat.mul_comm X.TICK_ARRAY_SIZE]
        omega
      obtain ⟨hflat, hcount, hsizes⟩ := flatten_chunksExact hticksLen
      -- the bytes, cut where the decoder cuts them
      have hdata : data = X.TICK_ARRAY_DISCRIMINATOR ++ (body.take 32 ++ ((body.drop 32).take 4 ++
          ((chunksExact X.TICK_STATE_SIZE X.TICK_ARRAY_SIZE
              ((body.drop (32 + 4)).take (X.TICK_STATE_SIZE * X.TICK_ARRAY_SIZE))).flatten ++
            (body.drop (32 + 4)).drop (X.TICK_STATE_SIZE * X.TICK_ARRAY_SIZE)))) := by
        rw [hflat, List.take_append_drop, ← List.drop_drop, List.take_append_drop,
          List.take_append_drop, ← htag, ← hbody, List.take_append_drop]
      rw [hdata]
      refine .fixed ?_ ?_ hcount hsizes ?_ fun i slot hslot => ?_
      · rw [List.length_take]
        omega
      · rw [List.length_take, List.length_drop]
        omega
      · rfl
      · rw [chunksExact_get _ i.isLt] at hslot
        cases hslot
        rfl

theorem read_dynamic (hX : FormatLaw X) {header : List UInt8} {slots : List (List UInt8)}
    (hheader : header.length = X.DYN_TICK_ARRAY_HEADER_LEN - 8) (hslots : SlotBytes X slots) :
    decodeDynTickArray (X := X) (X.DYN_TICK_ARRAY_DISCRIMINATOR ++ (header ++ slots.flatten)) =
      some (X.readDynTickArray header, slots.map X.readTickState) := by
  have htag := hX.dynTag
  have hlen := hX.header
  have hpos := hX.slot
  have hflat := length_flatten_slots hslots
  have hfront : (X.DYN_TICK_ARRAY_DISCRIMINATOR ++ header).length = X.DYN_TICK_ARRAY_HEADER_LEN := by
    rw [List.length_append, htag, hheader]
    omega
  have htake : (X.DYN_TICK_ARRAY_DISCRIMINATOR ++ (header ++ slots.flatten)).take
      X.DYN_TICK_ARRAY_HEADER_LEN = X.DYN_TICK_ARRAY_DISCRIMINATOR ++ header := by
    rw [← List.append_assoc, List.take_left' hfront]
  have hdrop : (X.DYN_TICK_ARRAY_DISCRIMINATOR ++ (header ++ slots.flatten)).drop
      X.DYN_TICK_ARRAY_HEADER_LEN = slots.flatten := by
    rw [← List.append_assoc, List.drop_left' hfront]
  unfold decodeDynTickArray
  rw [if_neg (by simp only [List.length_append]; omega),
    if_neg (by rw [List.take_left' htag]; exact not_not_intro rfl),
    if_neg (by simp only [List.length_append]; omega), htake, hdrop, List.drop_left' htag]
  simp only [hflat, Nat.mul_mod_left, Nat.mul_div_left _ hpos, chunksExact_flatten hslots]
  rw [if_neg (by omega)]

theorem dynamic_of_read (hX : FormatLaw X) {data : List UInt8} {header : DynTickArrayState}
    {ticks : List TickState} (h : decodeDynTickArray (X := X) data = some (header, ticks)) :
    Layout X data (.dynamic header ticks) := by
  have hlen := hX.header
  unfold decodeDynTickArray at h
  split at h
  next => cases h
  next =>
    split at h
    next => cases h
    next htag =>
      split at h
      next => cases h
      next hlong =>
        simp only at h
        split at h
        next => cases h
        next hwhole =>
          cases h
          rw [not_not] at htag
          rw [not_or, not_not] at hwhole
          have hcount : (data.drop X.DYN_TICK_ARRAY_HEADER_LEN).length =
              (data.drop X.DYN_TICK_ARRAY_HEADER_LEN).length / X.TICK_STATE_SIZE * X.TICK_STATE_SIZE :=
            (Nat.div_mul_cancel (Nat.dvd_of_mod_eq_zero hwhole.2)).symm
          obtain ⟨hflat, -, hsizes⟩ := flatten_chunksExact hcount
          have hdata : data = X.DYN_TICK_ARRAY_DISCRIMINATOR ++
              ((data.take X.DYN_TICK_ARRAY_HEADER_LEN).drop 8 ++
              (chunksExact X.TICK_STATE_SIZE ((data.drop X.DYN_TICK_ARRAY_HEADER_LEN).length /
                X.TICK_STATE_SIZE) (data.drop X.DYN_TICK_ARRAY_HEADER_LEN)).flatten) := by
            have hfront : X.DYN_TICK_ARRAY_DISCRIMINATOR ++ (data.take X.DYN_TICK_ARRAY_HEADER_LEN).drop
                8 = data.take X.DYN_TICK_ARRAY_HEADER_LEN := by
              have htake : (data.take X.DYN_TICK_ARRAY_HEADER_LEN).take 8 = data.take 8 := by
                rw [List.take_take, Nat.min_eq_left hlen]
              rw [← htag, ← htake, List.take_append_drop]
            rw [hflat, ← List.append_assoc, hfront, List.take_append_drop]
          have hheader : ((data.take X.DYN_TICK_ARRAY_HEADER_LEN).drop 8).length =
              X.DYN_TICK_ARRAY_HEADER_LEN - 8 := by
            rw [List.length_drop, List.length_take]
            omega
          have hlayout := Layout.dynamic (X := X) hheader hsizes
          rw [← hdata] at hlayout
          exact hlayout

/-- **The decoder reads the formats**: it accepts what is laid out as a tick array,
    as what it is laid out as, and nothing else. -/
theorem fromAccountData_eq_some (hX : FormatLaw X) {data : List UInt8} {array : DynamicTickArrayState X} :
    fromAccountData data = some array ↔ Layout X data array := by
  constructor
  · intro h
    unfold fromAccountData at h
    split at h
    next => cases h
    next =>
      split at h
      next =>
        obtain ⟨⟨header, ticks⟩, hread, harray⟩ := Option.map_eq_some_iff.mp h
        rw [← harray]
        exact dynamic_of_read hX hread
      next =>
        split at h
        next htag =>
          obtain ⟨ta, hread, harray⟩ := Option.map_eq_some_iff.mp h
          rw [← harray]
          exact fixed_of_read hread htag
        next => cases h
  · intro h
    cases h with
    | @fixed poolId start rest slots ta hpool hstart hlen hslots hindex hticks =>
        have htag : (X.TICK_ARRAY_DISCRIMINATOR ++ (poolId ++ (start ++ (slots.flatten ++ rest)))).take 8 =
            X.TICK_ARRAY_DISCRIMINATOR := List.take_left' hX.fixedTag
        have hlong := hX.fixedTag
        unfold fromAccountData
        rw [if_neg (by simp only [List.length_append]; omega), htag, if_neg hX.distinct, if_pos rfl,
          read_fixed hX.fixedTag hpool hstart hlen hslots hindex hticks]
        rfl
    | @dynamic header slots hheader hslots =>
        have htag : (X.DYN_TICK_ARRAY_DISCRIMINATOR ++ (header ++ slots.flatten)).take 8 =
            X.DYN_TICK_ARRAY_DISCRIMINATOR := List.take_left' hX.dynTag
        have hlong := hX.dynTag
        unfold fromAccountData
        rw [if_neg (by simp only [List.length_append]; omega), htag, if_pos rfl,
          read_dynamic hX hheader hslots]
        rfl

namespace ByrealClmmVenue

/-! ## The arrays of a venue -/

/-- Inserting files the array under its key and keeps the other keys. -/
theorem mem_insertTickArray {arrays : List (Pubkey × DynamicTickArrayState X)} {key : Pubkey}
    {array : DynamicTickArrayState X} {p : Pubkey × DynamicTickArrayState X} :
    p ∈ insertTickArray arrays key array ↔ p = (key, array) ∨ p.1 ≠ key ∧ p ∈ arrays := by
  unfold insertTickArray
  split
  next hmem =>
    rw [List.mem_map]
    constructor
    · rintro ⟨q, hq, rfl⟩
      split
      next => exact Or.inl rfl
      next hne => exact Or.inr ⟨hne, hq⟩
    · rintro (rfl | ⟨hne, hp⟩)
      · obtain ⟨q, hq, hkey⟩ := List.mem_map.mp hmem
        exact ⟨q, hq, if_pos hkey⟩
      · exact ⟨p, hp, if_neg hne⟩
  next hmem =>
    rw [List.mem_append, List.mem_singleton]
    constructor
    · rintro (hp | rfl)
      · refine Or.inr ⟨fun hkey => hmem ?_, hp⟩
        rw [← hkey]
        exact List.mem_map_of_mem hp
      · exact Or.inl rfl
    · rintro (rfl | ⟨-, hp⟩)
      · exact Or.inr rfl
      · exact Or.inl hp

theorem nodup_insertTickArray {arrays : List (Pubkey × DynamicTickArrayState X)} (key : Pubkey)
    (array : DynamicTickArrayState X) (h : (arrays.map Prod.fst).Nodup) :
    ((insertTickArray arrays key array).map Prod.fst).Nodup := by
  unfold insertTickArray
  split
  next =>
    have hkeys : (arrays.map fun p => if p.1 = key then (key, array) else p).map Prod.fst =
        arrays.map Prod.fst := by
      rw [List.map_map]
      apply List.map_congr_left
      intro p hp
      show (if p.1 = key then (key, array) else p).1 = p.1
      split
      next hkey => exact hkey.symm
      next => rfl
    rw [hkeys]
    exact h
  next hmem =>
    rw [List.map_append, List.map_singleton]
    refine List.nodup_append.mpr ⟨h, List.nodup_singleton key, ?_⟩
    intro a ha b hb hab
    rw [hab, List.mem_singleton.mp hb] at ha
    exact hmem ha

/-- The array that an account given under the key holds, if any. -/
def arrayUnder (X : Crates) (accounts : AccountMap) (key : Pubkey) : Option (DynamicTickArrayState X) :=
  (accounts key).bind fun acc => fromAccountData acc.data

/-- The arrays that parse are filed under the keys that were asked for, each key once. -/
theorem mem_parseTickArrays (accounts : AccountMap) (keys : List Pubkey) :
    ((parseTickArrays (X := X) accounts keys).map Prod.fst).Nodup ∧
      ∀ key array, (key, array) ∈ parseTickArrays (X := X) accounts keys ↔
        key ∈ keys ∧ arrayUnder X accounts key = some array := by
  induction keys using List.reverseRecOn with
  | nil =>
      refine ⟨List.nodup_nil, fun key array => ?_⟩
      simp [parseTickArrays]
  | append_singleton keys key' ih =>
      obtain ⟨hnodup, hmem⟩ := ih
      unfold parseTickArrays at hnodup hmem ⊢
      rw [List.foldl_append, List.foldl_cons, List.foldl_nil]
      generalize List.foldl _ [] keys = arrays at hnodup hmem ⊢
      -- a key without an array changes nothing
      have hskip : arrayUnder X accounts key' = none → (arrays.map Prod.fst).Nodup ∧
          ∀ key array, (key, array) ∈ arrays ↔ key ∈ keys ++ [key'] ∧
          arrayUnder X accounts key = some array := by
        intro hnone
        refine ⟨hnodup, fun key array => ?_⟩
        rw [hmem, List.mem_append, List.mem_singleton]
        constructor
        · rintro ⟨hkey, harray⟩
          exact ⟨Or.inl hkey, harray⟩
        · rintro ⟨hkey | rfl, harray⟩
          · exact ⟨hkey, harray⟩
          · rw [hnone] at harray
            cases harray
      cases hacc : accounts key' with
      | none =>
          apply hskip
          rw [arrayUnder, hacc]
          rfl
      | some acc =>
          cases hparse : (fromAccountData acc.data : Option (DynamicTickArrayState X)) with
          | none =>
              simp only [hparse]
              apply hskip
              rw [arrayUnder, hacc]
              exact hparse
          | some parsed =>
              have hunder : arrayUnder X accounts key' = some parsed := by
                rw [arrayUnder, hacc]
                exact hparse
              simp only [hparse]
              refine ⟨nodup_insertTickArray key' parsed hnodup, fun key array => ?_⟩
              rw [mem_insertTickArray, hmem, List.mem_append, List.mem_singleton]
              constructor
              · rintro (heq | ⟨-, hkey, harray⟩)
                · cases heq
                  exact ⟨Or.inr rfl, hunder⟩
                · exact ⟨Or.inl hkey, harray⟩
              · rintro ⟨hkey, harray⟩
                by_cases heq : key = key'
                · subst heq
                  rw [hunder] at harray
                  cases harray
                  exact Or.inl rfl
                · exact Or.inr ⟨heq, hkey.resolve_right heq, harray⟩

/-- **A refresh loads the tick arrays it is given, and no others**: under each address
    it asks for, the array that the account there is laid out as; one array an address,
    and nothing for an account of another format. -/
theorem loaded_arrays_exact (hX : FormatLaw X) {v w : ByrealClmmVenue X} {accounts : AccountMap}
    (h : v.updateState accounts = (.ok (), w)) :
    (w.dynamicTickArrays.map Prod.fst).Nodup ∧ ∀ key array, (key, array) ∈ w.dynamicTickArrays ↔
      key ∈ w.getAllTickArrayAddresses ∧ ∃ acc, accounts key = some acc ∧ Layout X acc.data array := by
  have hsteps := Steps.runSteps_ok.mp h
  simp only [updateSteps, List.foldlM_cons, List.foldlM_nil, Except.bind_eq_ok,
    Except.pure_eq_ok] at hsteps
  obtain ⟨_, -, _, -, _, -, _, -, _, -, _, -, _, -, v₈, -, v₉, harrays, rfl⟩ := hsteps
  cases harrays
  have haddresses : getAllTickArrayAddresses
      { v₈ with dynamicTickArrays := parseTickArrays accounts v₈.getAllTickArrayAddresses } =
        v₈.getAllTickArrayAddresses := getAllTickArrayAddresses_congr rfl rfl rfl
  obtain ⟨hnodup, hmem⟩ := mem_parseTickArrays (X := X) accounts v₈.getAllTickArrayAddresses
  refine ⟨hnodup, fun key array => ?_⟩
  rw [haddresses]
  refine (hmem key array).trans (and_congr_right fun _ => ?_)
  rw [arrayUnder, Option.bind_eq_some_iff]
  exact exists_congr fun acc => and_congr_right fun _ => fromAccountData_eq_some hX

/-! ## The arrays of the sample market -/

section Sample

open Adapter

theorem sample_format : FormatLaw Sample.X where
  dynTag := rfl
  fixedTag := rfl
  distinct := by decide
  header := by decide
  slot := by decide

/-- The sample market, with an account of another format under the address of a third array. -/
def strayAccounts : AccountMap := fun key =>
  if key = Sample.tickArrayAddress 60 then some ⟨0, [7], BYREAL_CLMM_PROGRAM_ID⟩
  else Sample.accounts 1 (leBytes 8 100) (leBytes 8 2500) key

/-- The two arrays of the sample market are loaded. -/
theorem loaded_arrays_exact_sample :
    ∃ w, (Sample.fresh Sample.pool).updateState strayAccounts = (.ok (), w) ∧
      w.dynamicTickArrays.map Prod.fst = [Sample.tickArrayAddress (-60), Sample.tickArrayAddress 0] ∧
      ∀ key array, (key, array) ∈ w.dynamicTickArrays ↔
        key ∈ w.getAllTickArrayAddresses ∧ ∃ acc, strayAccounts key = some acc ∧
        Layout Sample.X acc.data array := by
  have hfail : ((Sample.fresh Sample.pool).updateState strayAccounts).1.failure? = none :=
    by decide +kernel
  obtain ⟨_, hok⟩ := Except.exists_of_failure? hfail
  obtain ⟨w, hw⟩ := Steps.exists_of_ok hok
  refine ⟨w, hw, ?_, (loaded_arrays_exact sample_format hw).2⟩
  have hleft : w = ((Sample.fresh Sample.pool).updateState strayAccounts).2 := (congrArg Prod.snd hw).symm
  rw [hleft]
  decide +kernel

end Sample

end ByrealClmmVenue

end ByrealTitan.Clmm
