import TreeQuery.Proofs.Flags.Described

/-!
# Flags told from a description

A description is a text, and more than one set may have it: bits without a name leave no
trace in it, except that they can make it look as if all flags of strings were set. What
can be told from the text nevertheless is every bit that has a name.

The reason is that every such bit has a name of its own, which stands for nothing else. A
name of this kind is described exactly if its bit is set, whatever else is in the set. So
sets with the same description have the same bits with names, the word for a set without
names is said of those sets only that have none, and adding bits without a name changes
nothing about the names of single bits.

## Main definitions

* `FlagTable.Declares`: Some name of a table stands for the bit at a place.

## Theorems

* `exists_hasOnly_of_declares`: A bit with a name has a name of its own.
* `mentions_iff_hasBit`: The name of a single bit is described if the bit is set.
* `describe_of_no_declared`, `not_mentions_of_none`: Sets without names.
* `description_determines_declared`: What can be told from a description.
-/

namespace TreeQuery

open Bits Text

/-- Some name of the table stands for the bit at the place, alone or with other bits. -/
def FlagTable.Declares (table : FlagTable) (place : Nat) : Prop :=
  ∃ entry ∈ table.entries, HasBit entry.2.toBitVec place

namespace TypeFlags

-- The one name for several bits stands for bits that have names of their own as well.
theorem exists_hasOnly_of_declares {place : Nat} (h : typeFlagTable.Declares place) :
    ∃ entry ∈ typeFlagTable.entries, HasOnly entry.2.toBitVec place := by
  have hall : ∀ place : Fin 32,
      (∃ entry ∈ typeFlagTable.entries, entry.2.toBitVec.getLsbD place = true) →
        ∃ entry ∈ typeFlagTable.entries, entry.2.toBitVec = BitVec.twoPow 32 place := by
    decide +kernel
  rcases h with ⟨entry, hentry, hplace⟩
  have hlt := BitVec.lt_of_getLsbD hplace
  rcases hall ⟨place, hlt⟩ ⟨entry, hentry, hplace⟩ with ⟨single, hsingle, hword⟩
  exact ⟨single, hsingle, hword ▸ hasOnly_twoPow hlt⟩

theorem mentions_iff_hasBit (flags : TypeFlags) {entry : String × UInt32} {place : Nat}
    (hentry : entry ∈ typeFlagTable.entries) (h : HasOnly entry.2.toBitVec place) :
    flags.Mentions entry.1 ↔ HasBit flags.bits.toBitVec place := by
  rw [mentions_iff flags hentry, Flags.meets_iff, Flags.includes_iff, h.within_iff_meets,
    h.meets_iff_hasBit]
  exact and_iff_left_of_imp Or.inl

-- A name that is found has a bit in common with the set, so without such bits none is found.
theorem describe_of_no_declared {flags : TypeFlags}
    (h : ∀ place, typeFlagTable.Declares place → ¬ HasBit flags.bits.toBitVec place) :
    flags.describe = "NONE" := by
  have hempty : flags.found = [] := by
    refine List.eq_nil_iff_forall_not_mem.mpr fun name hname => ?_
    rcases exists_entry_of_mem_found hname with ⟨entry, hentry, rfl⟩
    have hmeets := ((FlagTable.mem_namesIn_iff names_distinct hentry flags).mp hname).1
    rcases (Flags.meets_iff ..).mp hmeets with ⟨place, hflags, hplace⟩
    exact h place ⟨entry, hentry, hplace⟩ hflags
  rw [describe, ← found, hempty]
  rfl

-- The word for a set without names is not a name.
theorem not_mentions_of_none {flags : TypeFlags} (h : flags.describe = "NONE")
    {entry : String × UInt32} (hentry : entry ∈ typeFlagTable.entries) :
    ¬ flags.Mentions entry.1 := by
  have hwords : words "NONE".toList = ["NONE".toList] := by decide
  rw [Mentions, h, hwords, List.mem_singleton]
  exact (isWord_of_mem hentry).2.2

/-- What can be told from a description. Two sets with the same description agree on every bit that
    has a name. A set is described by the word for no names exactly if none of its bits has one. And
    bits without a name do not change which names of single bits are described: those whose bit is
    set. -/
theorem description_determines_declared (flags other : TypeFlags) :
    (flags.describe = other.describe → ∀ place, typeFlagTable.Declares place →
      (HasBit flags.bits.toBitVec place ↔ HasBit other.bits.toBitVec place)) ∧
    (flags.describe = "NONE" ↔
      ∀ place, typeFlagTable.Declares place → ¬ HasBit flags.bits.toBitVec place) ∧
    ∀ unknown : UInt32,
      (∀ place, typeFlagTable.Declares place → ¬ HasBit unknown.toBitVec place) →
      ∀ entry ∈ typeFlagTable.entries, ∀ place, HasOnly entry.2.toBitVec place →
        (Mentions ⟨flags.bits ||| unknown⟩ entry.1 ↔ HasBit flags.bits.toBitVec place) := by
  refine ⟨?_, ⟨?_, describe_of_no_declared⟩, ?_⟩
  · intro hsame place hdeclared
    rcases exists_hasOnly_of_declares hdeclared with ⟨entry, hentry, honly⟩
    rw [← mentions_iff_hasBit flags hentry honly, ← mentions_iff_hasBit other hentry honly,
      Mentions, Mentions, hsame]
  · intro hnone place hdeclared
    rcases exists_hasOnly_of_declares hdeclared with ⟨entry, hentry, honly⟩
    rw [← mentions_iff_hasBit flags hentry honly]
    exact not_mentions_of_none hnone hentry
  · intro unknown hunknown entry hentry place honly
    have hplace := hunknown place ⟨entry, hentry, (honly place).mpr rfl⟩
    rw [mentions_iff_hasBit _ hentry honly, UInt32.toBitVec_or, hasBit_or_iff]
    exact or_iff_left hplace

/-- Two sets of strings with different bits that have no name. Both are described as everything that
    is like a string, and still they are told to have the same bits with names. One of those bits
    alone is described as no name, and added to numbers it does not make strings of them. -/
theorem description_determines_declared_unnamed :
    describe ⟨0x20000004⟩ = describe ⟨0x40000004⟩ ∧ Mentions ⟨0x20000004⟩ "STRING_LIKE" ∧
      (∀ place, typeFlagTable.Declares place →
        (HasBit (0x20000004 : UInt32).toBitVec place ↔
          HasBit (0x40000004 : UInt32).toBitVec place)) ∧
      describe ⟨0x20000000⟩ = "NONE" ∧ ¬ Mentions ⟨0x8 ||| 0x20000000⟩ "STRING" := by
  have hsame : describe ⟨0x20000004⟩ = describe ⟨0x40000004⟩ := by decide +kernel
  have hnone : describe ⟨0x20000000⟩ = "NONE" := by decide +kernel
  have hlike : Mentions ⟨0x20000004⟩ "STRING_LIKE" := by
    rw [Mentions]
    decide +kernel
  have hunnamed := (description_determines_declared ⟨0x20000000⟩ Flags.none).2.1.mp hnone
  -- Strings are the bit at the second place, which numbers do not have.
  have hword : (0x4 : UInt32).toBitVec = BitVec.twoPow 32 2 := by decide
  have hstring : HasOnly (0x4 : UInt32).toBitVec 2 := hword ▸ hasOnly_twoPow (by decide)
  have hmentions := (description_determines_declared ⟨0x8⟩ Flags.none).2.2 0x20000000 hunnamed
    ("STRING", 0x4) (by decide) 2 hstring
  refine ⟨hsame, hlike, (description_determines_declared ⟨0x20000004⟩ ⟨0x40000004⟩).1 hsame,
    hnone, mt hmentions.mp ?_⟩
  rw [HasBit]
  decide

end TypeFlags

end TreeQuery
