import Mathlib.Data.List.Nodup
import TreeQuery.Proofs.Flags.Masks
import TreeQuery.Proofs.Text.Words

/-!
# Flags in a description

A set of type flags is described by the names that are found for it in the table of type
flags, with bars between them. Names have no blanks, so the words of a description are
these names and the bars, and a flag can be told from the text to be named.

A name is found by two tests. It has a bit in common with the set, and it is not greater as
a number. For a flag with a single bit the first test is enough, and the flag is named
exactly if it is set. One name stands for several bits, and there the second test keeps the
name out if bits are missing, unless a set bit outside of the name stands above all of
them. Such a bit need not be one without a name: the set of number literals, template
literals and string mappings is described as everything that is like a string, although
strings and string literals are missing from it.

## Main definitions

* `TypeFlags.Mentions`: A description has a name among its words.

## Theorems

* `mem_words_intercalate_iff`: The words of names with bars between them.
* `FlagTable.mem_namesIn_iff`: Which names of a table are found for a set of flags.
* `TypeFlags.mentions_iff`: Which names a description has.
* `TypeFlags.described_flags`: When a described flag is set.
* `TypeFlags.composite_described_unset`: A name is described although bits of it are
  missing.
-/

namespace TreeQuery

open Bits Text

-- The words of names with bars between them are the names and the bars. The induction is on the
-- names, and each is followed by the end or by a blank.
theorem mem_words_intercalate_iff {names : List (List Char)} (h : ∀ name ∈ names, IsWord name)
    {word : List Char} (hword : word ≠ ['|']) :
    word ∈ words (" | ".toList.intercalate names) ↔ word ∈ names := by
  have hbar : IsWord ['|'] := ⟨List.cons_ne_nil _ _, List.forall_mem_singleton.mpr (by decide)⟩
  have hblank : Blanks [' '] := List.forall_mem_singleton.mpr (by decide)
  induction names with
  | nil => rfl
  | cons name rest ih =>
      rcases List.forall_mem_cons.mp h with ⟨hname, hrest⟩
      cases rest with
      | nil =>
          have halone := words_append_of_word hname separated_nil
          rw [List.append_nil, words_of_blanks fun c hc => absurd hc List.not_mem_nil] at halone
          rw [List.intercalate_singleton, halone]
      | cons next others =>
          have hsplit : " | ".toList.intercalate (name :: next :: others) =
              name ++ ([' '] ++ (['|'] ++ ([' '] ++ " | ".toList.intercalate (next :: others)))) := by
            rw [List.intercalate_cons_cons, List.append_assoc]
            rfl
          have hgap : ∀ text, Separated ([' '] ++ text) := fun text =>
            separated_append text (List.cons_ne_nil _ _) hblank
          rw [hsplit, words_append_of_word hname (hgap _), words_append_of_blanks _ hblank,
            words_append_of_word hbar (hgap _), words_append_of_blanks _ hblank]
          have hlater := ih hrest
          simp only [List.mem_cons, hword, false_or] at hlater ⊢
          exact or_congr_right hlater

-- The bits of a set of flags keep their places in the mask that the names are looked up for.
theorem hasBit_widened_iff (bits : UInt32) (place : Nat) :
    HasBit bits.toUInt64.toInt64.toBitVec place ↔ HasBit bits.toBitVec place := by
  rw [UInt64.toBitVec_toInt64, UInt32.toBitVec_toUInt64, HasBit, BitVec.getLsbD_setWidth,
    Bool.and_eq_true, decide_eq_true_eq]
  exact and_iff_right_of_imp fun hplace => Nat.lt_trans (BitVec.lt_of_getLsbD hplace) (by decide)

theorem nonneg_widened (bits : UInt32) : 0 ≤ bits.toUInt64.toInt64 := by
  rw [NameTable.nonneg_iff, BitVec.msb_eq_getLsbD_last, ← Bool.not_eq_true]
  intro hhighest
  have hplace := BitVec.lt_of_getLsbD ((hasBit_widened_iff bits 63).mp hhighest)
  exact absurd hplace (by decide)

theorem widened_le_iff (left right : UInt32) :
    left.toUInt64.toInt64 ≤ right.toUInt64.toInt64 ↔ left.toNat ≤ right.toNat := by
  rw [Int64.le_iff_toInt_le, NameTable.toInt_eq_toNat (nonneg_widened left),
    NameTable.toInt_eq_toNat (nonneg_widened right)]
  exact Int.ofNat_le

namespace Flags

variable {table : FlagTable}

theorem includes_iff (left right : Flags table) :
    left.includes right = true ↔ Within right.bits.toBitVec left.bits.toBitVec := by
  rw [includes, beq_iff_eq, ← UInt32.toBitVec_inj, UInt32.toBitVec_and, and_eq_right_iff]

theorem meets_iff (left right : Flags table) :
    left.meets right = true ↔ Meets left.bits.toBitVec right.bits.toBitVec := by
  rw [meets, bne_iff_ne, ne_eq, ← UInt32.toBitVec_inj, UInt32.toBitVec_and, UInt32.toBitVec_zero,
    ← BitVec.ofNat_eq_ofNat, and_eq_zero_iff, not_not]

end Flags

/-- The names that are found for a set of flags: those of the entries that have a bit in common with
    it, and that are part of it or are outweighed by a bit of it that they do not have. -/
theorem FlagTable.mem_namesIn_iff {table : FlagTable} (h : (table.entries.map (·.1)).Nodup)
    {entry : String × UInt32} (hentry : entry ∈ table.entries) (flags : Flags table) :
    entry.1 ∈ table.toNames.namesIn flags.bits.toUInt64.toInt64 ↔
      flags.meets ⟨entry.2⟩ = true ∧
        (flags.includes ⟨entry.2⟩ = true ∨ Outweighs flags.bits.toBitVec entry.2.toBitVec) := by
  have hlisted : entry.1 ∈ table.toNames.namesIn flags.bits.toUInt64.toInt64 ↔
      (entry.1, entry.2.toUInt64.toInt64) ∈
        table.toNames.entriesIn flags.bits.toUInt64.toInt64 := by
    rw [NameTable.namesIn_eq, List.mem_map]
    constructor
    · intro hname
      rcases hname with ⟨found, hfound, hsame⟩
      rcases List.mem_map.mp ((NameTable.mem_entriesIn_iff ..).mp hfound).1 with
        ⟨other, hother, rfl⟩
      -- Different entries have different names.
      rw [← List.inj_on_of_nodup_map h hother hentry hsame]
      exact hfound
    · exact fun hmem => ⟨_, hmem, rfl⟩
  have hthere : (entry.1, entry.2.toUInt64.toInt64) ∈ table.toNames :=
    List.mem_map.mpr ⟨entry, hentry, rfl⟩
  rw [hlisted, NameTable.mem_entriesIn_iff, Flags.meets_iff, Flags.includes_iff, ← toNat_le_iff,
    widened_le_iff, and_iff_right hthere]
  simp only [Meets, hasBit_widened_iff]
  rfl

namespace TypeFlags

/-- The name is one of the words of the description. -/
def Mentions (flags : TypeFlags) (name : String) : Prop :=
  name.toList ∈ words flags.describe.toList

/-- The names that are found for a set of type flags. -/
def found (flags : TypeFlags) : List String :=
  typeFlagTable.toNames.namesIn flags.bits.toUInt64.toInt64

theorem names_distinct : (typeFlagTable.entries.map (·.1)).Nodup := by decide +kernel

theorem isWord_of_mem {entry : String × UInt32} (h : entry ∈ typeFlagTable.entries) :
    IsWord entry.1.toList ∧ entry.1.toList ≠ ['|'] ∧ entry.1.toList ≠ "NONE".toList := by
  have hall : ∀ entry ∈ typeFlagTable.entries,
      (entry.1.toList ≠ [] ∧ entry.1.toList.all fun c => !isBlank c) ∧
        entry.1.toList ≠ ['|'] ∧ entry.1.toList ≠ "NONE".toList := by decide +kernel
  rcases hall entry h with ⟨⟨hne, hblank⟩, hother⟩
  refine ⟨⟨hne, fun c hc => ?_⟩, hother⟩
  exact (Bool.not_eq_true' _).mp (List.all_eq_true.mp hblank c hc)

-- All names but one stand for a single bit.
theorem exists_hasOnly_of_mem {entry : String × UInt32} (h : entry ∈ typeFlagTable.entries)
    (hname : entry.1 ≠ "STRING_LIKE") : ∃ place, HasOnly entry.2.toBitVec place := by
  have hall : ∀ entry ∈ typeFlagTable.entries, entry.1 ≠ "STRING_LIKE" →
      ∃ place : Fin 32, entry.2.toBitVec = BitVec.twoPow 32 place := by decide +kernel
  rcases hall entry h hname with ⟨place, hplace⟩
  exact ⟨place, hplace ▸ hasOnly_twoPow place.isLt⟩

-- A name that is found is in the table.
theorem exists_entry_of_mem_found {flags : TypeFlags} {name : String} (h : name ∈ flags.found) :
    ∃ entry ∈ typeFlagTable.entries, entry.1 = name := by
  rw [found, NameTable.namesIn_eq] at h
  rcases List.mem_map.mp h with ⟨listed, hlisted, rfl⟩
  rcases List.mem_map.mp ((NameTable.mem_entriesIn_iff ..).mp hlisted).1 with ⟨entry, hentry, rfl⟩
  exact ⟨entry, hentry, rfl⟩

-- The words of a description are the names that are found, besides the bars and the word for a
-- set without names.
theorem mem_words_describe_iff (flags : TypeFlags) {word : List Char} (hbar : word ≠ ['|'])
    (hnone : word ≠ "NONE".toList) :
    word ∈ words flags.describe.toList ↔ ∃ name ∈ flags.found, name.toList = word := by
  by_cases hempty : flags.found = []
  · have hdescribe : flags.describe = "NONE" := by
      rw [describe, ← found, hempty]
      rfl
    have hwords : words "NONE".toList = ["NONE".toList] := by decide
    rw [hdescribe, hwords, hempty]
    simp only [List.mem_singleton, hnone, List.not_mem_nil, false_and, exists_false]
  · have hdescribe : flags.describe = " | ".intercalate flags.found := by
      rw [describe, ← found, if_neg (by rwa [List.isEmpty_iff])]
    have hwords : ∀ name ∈ flags.found.map String.toList, IsWord name := by
      intro name hname
      rcases List.mem_map.mp hname with ⟨found, hfound, rfl⟩
      rcases exists_entry_of_mem_found hfound with ⟨entry, hentry, rfl⟩
      exact (isWord_of_mem hentry).1
    rw [hdescribe, String.toList_intercalate, mem_words_intercalate_iff hwords hbar, List.mem_map]

/-- A description has the names that are found. -/
theorem mentions_iff (flags : TypeFlags) {entry : String × UInt32}
    (h : entry ∈ typeFlagTable.entries) :
    flags.Mentions entry.1 ↔ flags.meets ⟨entry.2⟩ = true ∧
      (flags.includes ⟨entry.2⟩ = true ∨ Outweighs flags.bits.toBitVec entry.2.toBitVec) := by
  rcases isWord_of_mem h with ⟨_, hbar, hnone⟩
  rw [Mentions, mem_words_describe_iff flags hbar hnone,
    ← FlagTable.mem_namesIn_iff names_distinct h flags]
  simp only [String.toList_inj, exists_eq_right]
  rfl

/-- What a description tells about a set of type flags. Its words are names of type flags, the bars
    between them, and the word for a set without names. A name is described exactly if it has a bit
    in common with the set and is not greater as a number. So a name that stands for a single bit is
    described exactly if the bit is set. The name that stands for several bits is described if they
    are all set, and also if only some of them are and a bit besides them stands above those that are
    missing. -/
theorem described_flags (flags : TypeFlags) :
    (∀ word ∈ words flags.describe.toList, word = ['|'] ∨ word = "NONE".toList ∨
      ∃ entry ∈ typeFlagTable.entries, entry.1.toList = word) ∧
    (∀ entry ∈ typeFlagTable.entries, flags.Mentions entry.1 ↔
      flags.meets ⟨entry.2⟩ = true ∧ entry.2 ≤ flags.bits) ∧
    (∀ entry ∈ typeFlagTable.entries, entry.1 ≠ "STRING_LIKE" →
      (flags.Mentions entry.1 ↔ flags.includes ⟨entry.2⟩ = true)) ∧
    (flags.Mentions "STRING_LIKE" ↔ flags.includes stringLike = true ∨
      (flags.meets stringLike = true ∧
        Outweighs flags.bits.toBitVec stringLike.bits.toBitVec)) := by
  refine ⟨fun word hword => ?_, fun entry hentry => ?_, fun entry hentry hname => ?_, ?_⟩
  · by_cases hbar : word = ['|']
    · exact Or.inl hbar
    by_cases hnone : word = "NONE".toList
    · exact Or.inr (Or.inl hnone)
    rcases (mem_words_describe_iff flags hbar hnone).mp hword with ⟨name, hfound, rfl⟩
    rcases exists_entry_of_mem_found hfound with ⟨entry, hentry, rfl⟩
    exact Or.inr (Or.inr ⟨entry, hentry, rfl⟩)
  · rw [mentions_iff flags hentry, Flags.includes_iff, ← toNat_le_iff]
    rfl
  · -- A single bit that the set has in common with the name is the whole of the name.
    rcases exists_hasOnly_of_mem hentry hname with ⟨place, honly⟩
    have hmeets : flags.meets ⟨entry.2⟩ = true ↔ flags.includes ⟨entry.2⟩ = true := by
      rw [Flags.meets_iff, Flags.includes_iff]
      exact (honly.within_iff_meets _).symm
    rw [mentions_iff flags hentry, hmeets]
    exact and_iff_left_of_imp Or.inl
  · have hmeets : flags.includes stringLike = true → flags.meets stringLike = true := by
      rw [Flags.meets_iff, Flags.includes_iff]
      exact fun hwithin => hwithin.meets (by decide)
    have hentry : ("STRING_LIKE", stringLike.bits) ∈ typeFlagTable.entries := by decide
    refine (mentions_iff flags hentry).trans (and_or_left.trans (or_congr_left ?_))
    exact and_iff_right_of_imp hmeets

/-- Number literals, template literals and string mappings: the bit of number literals stands above
    those of strings and of string literals. -/
theorem described_flags_outweighed :
    Outweighs (0x18000100 : UInt32).toBitVec stringLike.bits.toBitVec ∧
      Mentions ⟨0x18000100⟩ "STRING_LIKE" ∧ Mentions ⟨0x18000100⟩ "NUMBER_LITERAL" := by
  rcases described_flags ⟨0x18000100⟩ with ⟨_, _, hsingle, hcomposite⟩
  have hgreater : stringLike.bits.toBitVec.toNat ≤ (0x18000100 : UInt32).toBitVec.toNat := by decide
  have hmissing : ¬ Within stringLike.bits.toBitVec (0x18000100 : UInt32).toBitVec := by
    rw [← and_eq_right_iff]
    decide
  have houtweighs := ((toNat_le_iff ..).mp hgreater).resolve_left hmissing
  refine ⟨houtweighs, hcomposite.mpr (Or.inr ⟨by decide, houtweighs⟩), ?_⟩
  exact (hsingle ("NUMBER_LITERAL", 0x100) (by decide) (by decide)).mpr (by decide)

/-- Everything that is like a string is described for a set that has neither strings nor string
    literals. -/
theorem composite_described_unset :
    describe ⟨0x18000100⟩ = "NUMBER_LITERAL | TEMPLATE_LITERAL | STRING_MAPPING | STRING_LIKE" ∧
      Mentions ⟨0x18000100⟩ "STRING_LIKE" ∧ Flags.includes ⟨0x18000100⟩ stringLike = false ∧
      Flags.meets ⟨0x18000100⟩ string = false ∧ Flags.meets ⟨0x18000100⟩ stringLiteral = false := by
  refine ⟨by decide +kernel, ?_, by decide, by decide, by decide⟩
  rw [Mentions]
  decide +kernel

end TypeFlags

end TreeQuery
