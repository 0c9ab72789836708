import Mathlib.Data.List.Basic
import TreeQuery.Flags.Names
import TreeQuery.Proofs.Flags.Bits

/-!
# What a mask is decoded to

The names in a mask are found by two tests on every entry of the table. The entry has a
bit in common with the mask, which is asked of the two as sets of bits, and it is not
greater than the mask, which is asked of them as numbers with a sign.

For a mask that is not negative the second test never keeps out an entry that belongs
in. A part is not greater than the whole, and an entry that is part of the mask has its
highest bit clear like the mask itself. More bits therefore never cost a name: the mask
only grows, as a set and as a number.

A table of single bits has no entries that are neither part of the mask nor apart from
it. There the two tests come to the same, and the bits of the listed entries are those
of the mask for which the table has a name.

For a negative mask it is the first test that never keeps out anything. What is not
greater than the mask is negative too, and the two have the bit of the sign in common. So
the names are found by the comparison alone. An entry that is not negative is never
listed, even if it is part of the mask, and it is the greater masks that have more names.

## Main definitions

* `NameTable.entriesIn`: The entries whose names are listed for a mask.
* `NameTable.union`: The bits of some numbers together.

## Theorems

* `le_of_within`: A part of a mask is not greater than the mask.
* `mem_entriesIn_iff`: Which entries are listed.
* `mem_entriesIn_of_within`: Entries that are part of the mask are listed.
* `namesIn_sublist`: More bits have more names.
* `union_entriesIn`: Single bits are recovered.
* `masks_are_decoded`: All of it together.
* `entriesIn_of_neg`: A negative mask is only compared.
* `negative_masks_are_compared`: What a negative mask is decoded to.
-/

namespace TreeQuery.NameTable

open Bits

/-- The entries whose names are listed for a mask, in the order of the table. -/
def entriesIn (table : NameTable) (mask : Int64) : NameTable :=
  table.filter fun entry => mask &&& entry.2 != 0 && decide (entry.2 ≤ mask)

/-- The bits of some numbers together. -/
def union (numbers : List Int64) : Int64 :=
  numbers.foldr (· ||| ·) 0

theorem namesIn_eq (table : NameTable) (mask : Int64) :
    table.namesIn mask = (table.entriesIn mask).map (·.1) :=
  rfl

theorem meets_iff (mask value : Int64) :
    (mask &&& value != 0) = true ↔ Meets mask.toBitVec value.toBitVec := by
  rw [bne_iff_ne, ne_eq, ← Int64.toBitVec_inj, Int64.toBitVec_and, Int64.toBitVec_zero,
    ← BitVec.ofNat_eq_ofNat, and_eq_zero_iff, not_not]

theorem mem_entriesIn_iff (table : NameTable) (mask : Int64) (entry : String × Int64) :
    entry ∈ table.entriesIn mask ↔
      entry ∈ table ∧ Meets mask.toBitVec entry.2.toBitVec ∧ entry.2 ≤ mask := by
  rw [entriesIn, List.mem_filter, Bool.and_eq_true, meets_iff, decide_eq_true_eq]

-- A number is negative if its highest bit is set.
theorem nonneg_iff (mask : Int64) : 0 ≤ mask ↔ mask.toBitVec.msb = false := by
  rw [BitVec.msb_eq_toInt, decide_eq_false_iff_not, Int.not_lt, Int64.le_iff_toInt_le,
    Int64.toInt_toBitVec, Int64.toInt_zero]

theorem toInt_eq_toNat {mask : Int64} (h : 0 ≤ mask) : mask.toInt = mask.toBitVec.toNat :=
  BitVec.toInt_eq_toNat_of_msb ((nonneg_iff mask).mp h)

-- The parts of a number that is not negative are not negative either.
theorem nonneg_of_within {mask value : Int64} (h : 0 ≤ mask)
    (hwithin : Within value.toBitVec mask.toBitVec) : 0 ≤ value := by
  rw [nonneg_iff, BitVec.msb_eq_getLsbD_last, ← Bool.not_eq_true] at h ⊢
  exact fun hvalue => h (hwithin _ hvalue)

theorem le_of_within {mask value : Int64} (h : 0 ≤ mask)
    (hwithin : Within value.toBitVec mask.toBitVec) : value ≤ mask := by
  rw [Int64.le_iff_toInt_le, toInt_eq_toNat h, toInt_eq_toNat (nonneg_of_within h hwithin)]
  exact Int.ofNat_le.mpr (toNat_le_of_within hwithin)

/-- An entry that is part of the mask is listed. -/
theorem mem_entriesIn_of_within {table : NameTable} {mask : Int64} {entry : String × Int64}
    (h : 0 ≤ mask) (hentry : entry ∈ table) (hne : entry.2 ≠ 0)
    (hwithin : Within entry.2.toBitVec mask.toBitVec) : entry ∈ table.entriesIn mask := by
  refine (mem_entriesIn_iff ..).mpr ⟨hentry, hwithin.meets fun hzero => ?_, le_of_within h hwithin⟩
  exact hne (Int64.toBitVec_inj.mp hzero)

/-- What is listed for a mask is listed for every mask that it is part of. -/
theorem namesIn_sublist (table : NameTable) {mask more : Int64} (h : 0 ≤ more)
    (hwithin : Within mask.toBitVec more.toBitVec) :
    (table.namesIn mask).Sublist (table.namesIn more) := by
  refine List.Sublist.map _ (List.monotone_filter_right table fun entry hentry => ?_)
  rw [Bool.and_eq_true, meets_iff, decide_eq_true_eq] at hentry ⊢
  exact ⟨hentry.1.of_within hwithin, Int64.le_trans hentry.2 (le_of_within h hwithin)⟩

theorem hasBit_union_iff (numbers : List Int64) (place : Nat) :
    HasBit (union numbers).toBitVec place ↔ ∃ number ∈ numbers, HasBit number.toBitVec place := by
  induction numbers with
  | nil =>
      refine iff_of_false (not_hasBit_zero place) ?_
      simp only [List.not_mem_nil, false_and, exists_false, not_false_eq_true]
  | cons number rest ih =>
      rw [union, List.foldr_cons, Int64.toBitVec_or, hasBit_or_iff, List.exists_mem_cons_iff]
      exact or_congr_right ih

-- A power of two has a single bit.
theorem exists_hasOnly_of_toInt {value : Int64} {exponent : Nat}
    (h : value.toInt = 2 ^ exponent) : ∃ place, HasOnly value.toBitVec place := by
  have hnonneg : 0 ≤ value := by
    rw [Int64.le_iff_toInt_le, h, Int64.toInt_zero]
    exact Int.le_of_lt (Int.pow_pos (by decide))
  have hnat : value.toBitVec.toNat = 2 ^ exponent := by
    rw [toInt_eq_toNat hnonneg] at h
    exact_mod_cast h
  have hlt : exponent < 64 := by
    rw [← Nat.pow_lt_pow_iff_right (a := 2) (by decide), ← hnat]
    exact value.toBitVec.isLt
  have hword : value.toBitVec = BitVec.twoPow 64 exponent := by
    refine BitVec.eq_of_toNat_eq ?_
    rw [hnat, BitVec.toNat_twoPow_of_lt hlt]
  exact ⟨exponent, hword ▸ hasOnly_twoPow hlt⟩

/-- In a table of single bits the listed entries have the bits of the mask for which the table has
    a name. -/
theorem union_entriesIn {table : NameTable} {mask : Int64} (h : 0 ≤ mask)
    (hsingle : ∀ entry ∈ table, ∃ place, HasOnly entry.2.toBitVec place) :
    union ((table.entriesIn mask).map (·.2)) = mask &&& union (table.map (·.2)) := by
  refine Int64.toBitVec_inj.mp (eq_of_hasBit_iff fun place => ?_)
  rw [Int64.toBitVec_and, hasBit_and_iff, hasBit_union_iff, hasBit_union_iff]
  simp only [List.mem_map, exists_exists_and_eq_and, mem_entriesIn_iff]
  constructor
  · intro hlisted
    rcases hlisted with ⟨entry, ⟨hentry, hmeets, _⟩, hplace⟩
    rcases hsingle entry hentry with ⟨_, honly⟩
    exact ⟨(honly.within_iff_meets _).mpr hmeets place hplace, entry, hentry, hplace⟩
  · intro hnamed
    rcases hnamed with ⟨hmask, entry, hentry, hplace⟩
    rcases hsingle entry hentry with ⟨_, honly⟩
    have hmeets : Meets mask.toBitVec entry.2.toBitVec := ⟨place, hmask, hplace⟩
    have hwithin := (honly.within_iff_meets _).mpr hmeets
    exact ⟨entry, ⟨hentry, hmeets, le_of_within h hwithin⟩, hplace⟩

-- Where a name stands for one value, the listed entries can be told from the listed names.
theorem filter_names_eq (table : NameTable) (mask : Int64)
    (h : ∀ entry ∈ table, ∀ other ∈ table, entry.1 = other.1 → entry.2 = other.2) :
    (table.filter fun entry => decide (entry.1 ∈ table.namesIn mask)) = table.entriesIn mask := by
  refine List.filter_congr fun entry hentry => ?_
  rw [Bool.eq_iff_iff, decide_eq_true_eq, Bool.and_eq_true, meets_iff, decide_eq_true_eq,
    namesIn_eq, List.mem_map]
  constructor
  · intro hname
    rcases hname with ⟨other, hother, hsame⟩
    rcases (mem_entriesIn_iff ..).mp hother with ⟨hthere, hmeets, hle⟩
    rw [h entry hentry other hthere hsame.symm]
    exact ⟨hmeets, hle⟩
  · intro hlisted
    exact ⟨entry, (mem_entriesIn_iff ..).mpr ⟨hentry, hlisted⟩, rfl⟩

/-- What a mask that is not negative is decoded to. The listed names are those of the listed
    entries. An entry that is part of the mask is listed, and an entry that has no bit in common with
    it is not. A mask with more bits has more names. If every entry is a power of two, the listed
    entries have the bits of the mask for which the table has a name, and so do the entries with the
    listed names, unless a name stands for several values. -/
theorem masks_are_decoded (table : NameTable) (mask : Int64) (h : 0 ≤ mask) :
    table.namesIn mask = (table.entriesIn mask).map (·.1) ∧
    (∀ entry ∈ table, entry.2 ≠ 0 → Within entry.2.toBitVec mask.toBitVec →
      entry ∈ table.entriesIn mask) ∧
    (∀ entry ∈ table, ¬ Meets mask.toBitVec entry.2.toBitVec → entry ∉ table.entriesIn mask) ∧
    (∀ more, 0 ≤ more → Within mask.toBitVec more.toBitVec →
      (table.namesIn mask).Sublist (table.namesIn more)) ∧
    ((∀ entry ∈ table, ∃ exponent : Nat, entry.2.toInt = 2 ^ exponent) →
      union ((table.entriesIn mask).map (·.2)) = mask &&& union (table.map (·.2)) ∧
      ((∀ entry ∈ table, ∀ other ∈ table, entry.1 = other.1 → entry.2 = other.2) →
        union ((table.filter fun entry => decide (entry.1 ∈ table.namesIn mask)).map (·.2)) =
          mask &&& union (table.map (·.2)))) := by
  refine ⟨namesIn_eq table mask, fun entry => mem_entriesIn_of_within h, ?_, ?_, ?_⟩
  · intro entry _ happart hlisted
    exact happart ((mem_entriesIn_iff ..).mp hlisted).2.1
  · intro more hmore hwithin
    exact namesIn_sublist table hmore hwithin
  · intro hpowers
    have hunion := union_entriesIn h fun entry hentry => by
      rcases hpowers entry hentry with ⟨exponent, hexponent⟩
      exact exists_hasOnly_of_toInt hexponent
    refine ⟨hunion, fun hnames => ?_⟩
    rw [filter_names_eq table mask hnames, hunion]

/-- A table in which two names stand for the same bit: both are listed, and the mask is recovered
    from the names. One more bit in the mask adds a name and takes none away. -/
theorem masks_are_decoded_aliased :
    NameTable.namesIn [("Read", 1), ("Write", 2), ("Execute", 4), ("Run", 4)] 5 =
        ["Read", "Execute", "Run"] ∧
      ["Read", "Execute", "Run"].Sublist
        (NameTable.namesIn [("Read", 1), ("Write", 2), ("Execute", 4), ("Run", 4)] 15) ∧
      union [1, 4, 4] = 5 &&& union [1, 2, 4, 4] := by
  rcases masks_are_decoded [("Read", 1), ("Write", 2), ("Execute", 4), ("Run", 4)] 5 (by decide)
    with ⟨_, _, _, hmore, hpowers⟩
  refine ⟨by decide, hmore 15 (by decide) ((and_eq_right_iff ..).mp (by decide)), ?_⟩
  refine (hpowers ?_).1
  simp only [List.forall_mem_cons]
  exact ⟨⟨0, by decide⟩, ⟨1, by decide⟩, ⟨2, by decide⟩, ⟨2, by decide⟩,
    fun _ hnone => absurd hnone List.not_mem_nil⟩

-- An entry that is neither part of the mask nor apart from it may be listed or not.
example : NameTable.namesIn [("ReadWrite", 3), ("WriteExecute", 6)] 5 = ["ReadWrite"] := by decide

-- Two negative numbers have the bit of the sign in common.
theorem meets_of_neg {mask value : Int64} (hmask : mask < 0) (hvalue : value < 0) :
    Meets mask.toBitVec value.toBitVec := by
  have hsign : ∀ number : Int64, number < 0 → HasBit number.toBitVec 63 := by
    intro number hneg
    rw [← Int64.not_le, nonneg_iff, Bool.not_eq_false, BitVec.msb_eq_getLsbD_last] at hneg
    exact hneg
  exact ⟨63, hsign mask hmask, hsign value hvalue⟩

-- What is not greater than a negative mask is negative, so it passes the test of the bits as well.
theorem entriesIn_of_neg (table : NameTable) {mask : Int64} (h : mask < 0) :
    table.entriesIn mask = table.filter fun entry => decide (entry.2 ≤ mask) := by
  refine List.filter_congr fun entry _ => ?_
  rw [Bool.eq_iff_iff, Bool.and_eq_true, meets_iff, decide_eq_true_eq]
  refine and_iff_right_of_imp fun hle => ?_
  exact meets_of_neg h (Int64.lt_of_le_of_lt hle h)

/-- What a negative mask is decoded to. The listed names are those of the listed entries, and these
    are all the entries that are not greater than the mask. Each of them has a bit in common with
    it. An entry that is not negative is not listed, whatever bits it has in common with the mask. A
    greater negative mask has more names. -/
theorem negative_masks_are_compared (table : NameTable) (mask : Int64) (h : mask < 0) :
    table.namesIn mask = (table.entriesIn mask).map (·.1) ∧
    table.entriesIn mask = table.filter (fun entry => decide (entry.2 ≤ mask)) ∧
    (∀ value ≤ mask, Meets mask.toBitVec value.toBitVec) ∧
    (∀ entry ∈ table, 0 ≤ entry.2 → entry ∉ table.entriesIn mask) ∧
    (∀ more, mask ≤ more → more < 0 → (table.namesIn mask).Sublist (table.namesIn more)) := by
  have hneg : ∀ value ≤ mask, value < 0 := by
    intro value hle
    exact Int64.lt_of_le_of_lt hle h
  refine ⟨namesIn_eq table mask, entriesIn_of_neg table h, ?_, ?_, ?_⟩
  · intro value hle
    exact meets_of_neg h (hneg value hle)
  · intro entry _ hnonneg hlisted
    have hle := ((mem_entriesIn_iff ..).mp hlisted).2.2
    exact Int64.not_le.mpr (hneg entry.2 hle) hnonneg
  · intro more hmore hmoreneg
    rw [namesIn_eq, namesIn_eq, entriesIn_of_neg table h, entriesIn_of_neg table hmoreneg]
    refine List.Sublist.map _ (List.monotone_filter_right table fun entry hentry => ?_)
    rw [decide_eq_true_eq] at hentry ⊢
    exact Int64.le_trans hentry hmore

/-- The least number is listed, and so is one that equals the mask. A number that is not negative is
    not listed, although it is part of the mask. The mask with all bits has these names and more. -/
theorem negative_masks_are_compared_part :
    (-2 : Int64) < 0 ∧
      NameTable.namesIn [("Least", Int64.minValue), ("Write", 2), ("All", -1), ("Even", -2)] (-2) =
        ["Least", "Even"] ∧
      Within (2 : Int64).toBitVec (-2 : Int64).toBitVec ∧
      ("Write", 2) ∉
        entriesIn [("Least", Int64.minValue), ("Write", 2), ("All", -1), ("Even", -2)] (-2) ∧
      ["Least", "Even"].Sublist
        (NameTable.namesIn [("Least", Int64.minValue), ("Write", 2), ("All", -1), ("Even", -2)]
          (-1)) := by
  rcases negative_masks_are_compared
    [("Least", Int64.minValue), ("Write", 2), ("All", -1), ("Even", -2)] (-2) (by decide) with
    ⟨_, _, _, hnonneg, hmore⟩
  refine ⟨by decide, by decide, (and_eq_right_iff ..).mp (by decide), ?_, ?_⟩
  · exact hnonneg ("Write", 2) (by decide) (by decide)
  · exact hmore (-1) (by decide) (by decide)

end TreeQuery.NameTable
