import Mathlib.Data.Finset.Card
import Mathlib.Data.Finset.Dedup
import TreeQuery.Proofs.History

/-!
# Sets of directives by their insertions

A set of directives can be looked at in many ways: its kinds, its entries, its size,
the directive of a kind, whether there is one. All of them are answered by the list of
insertions that made the set, and so they agree with each other.

The place of an entry and its content come from different insertions, the first and
the last of its kind. An insertion therefore changes at most one entry, and moves none.

Two sets are equal if they hold the same directives, and the places do not count. That
they are compared by their sizes and by a look-up of the entries of one in the other is
enough, because neither has two entries for a kind.

## Main definitions

* `DirectiveSet.LeftBy`: A set is what a list of insertions leaves.
* `DirectiveSet.Changes`: What one insertion does to a set.

## Theorems

* `mem_entries_iff`, `contains_eq_isSome_find?`: The entries of a map and its look-up.
* `getElem?_put`: An insertion moves no entry.
* `sameEntries_iff`: Maps hold the same if they answer every look-up alike.
* `leftBy_ofList`: What a set of directives is, by its insertions.
* `changes_insert`: What one more insertion changes.
* `beq_ofList_iff`: When two sets of directives are equal.
* `insertions_determine_set`: All of it together.
-/

namespace TreeQuery

namespace OrderedMap

variable {κ : Type u} {α : Type v} [DecidableEq κ]

theorem mem_of_find?_eq_some {map : OrderedMap κ α} {key : κ} {value : α}
    (h : map.find? key = some value) : (key, value) ∈ map.entries := by
  rcases Option.map_eq_some_iff.mp h with ⟨entry, hentry, rfl⟩
  have hkey := List.find?_some hentry
  rw [← of_decide_eq_true hkey]
  exact List.mem_of_find?_eq_some hentry

-- Of a key with two entries only the first would be found, hence the hypothesis.
theorem mem_entries_iff {map : OrderedMap κ α} (h : map.keys.Nodup) {key : κ} {value : α} :
    (key, value) ∈ map.entries ↔ map.find? key = some value := by
  refine ⟨fun hmem => ?_, mem_of_find?_eq_some⟩
  cases hfind : map.find? key with
  | none =>
      have hnone := List.find?_eq_none.mp (Option.map_eq_none_iff.mp hfind) (key, value) hmem
      exact absurd (decide_eq_true rfl) hnone
  | some found =>
      have hfound := mem_of_find?_eq_some hfind
      have hsame := List.inj_on_of_nodup_map h hfound hmem rfl
      rw [(Prod.mk.inj hsame).2]

theorem contains_eq_isSome_find? (map : OrderedMap κ α) (key : κ) :
    map.contains key = (map.find? key).isSome := by
  rw [Bool.eq_iff_iff, contains, find?, Option.isSome_map, List.find?_isSome, List.any_eq_true]

theorem mem_keys_iff {map : OrderedMap κ α} {key : κ} :
    key ∈ map.keys ↔ (map.find? key).isSome := by
  rw [find?, Option.isSome_map, List.find?_isSome, keys, List.mem_map]
  simp only [decide_eq_true_eq]

-- The entry of the key takes its new value where it stands, and every other entry stays.
theorem getElem?_put {key : κ} (value : α) {entries : List (κ × α)}
    (h : (entries.map (·.1)).Nodup) {place : Nat} {entry : κ × α}
    (hplace : entries[place]? = some entry) :
    (put key value entries).2[place]? = some (if entry.1 = key then (key, value) else entry) := by
  induction entries generalizing place with
  | nil => exact absurd hplace (by simp only [List.getElem?_nil, reduceCtorEq, not_false_eq_true])
  | cons first rest ih =>
      rcases List.nodup_cons.mp h with ⟨hnew, hrest⟩
      cases place with
      | zero =>
          rw [List.getElem?_cons_zero, Option.some.injEq] at hplace
          rw [hplace, put]
          by_cases hkey : entry.1 = key
          · rw [if_pos hkey, if_pos hkey, List.getElem?_cons_zero]
          · rw [if_neg hkey, if_neg hkey, List.getElem?_cons_zero]
      | succ place =>
          rw [List.getElem?_cons_succ] at hplace
          rw [put]
          by_cases hfirst : first.1 = key
          · -- The key has its entry here, so it is not the key of an entry behind it.
            have hother : entry.1 ≠ key := fun hentry => hnew <| List.mem_map.mpr
              ⟨entry, List.mem_of_getElem? hplace, hentry.trans hfirst.symm⟩
            rw [if_pos hfirst, if_neg hother, List.getElem?_cons_succ]
            exact hplace
          · rw [if_neg hfirst, List.getElem?_cons_succ]
            exact ih hrest hplace

/-- Two maps in which no key has two entries hold the same if they answer every look-up alike. -/
theorem sameEntries_iff [DecidableEq α] {left right : OrderedMap κ α} (hleft : left.keys.Nodup)
    (hright : right.keys.Nodup) :
    left.sameEntries right = true ↔ ∀ key, left.find? key = right.find? key := by
  simp only [sameEntries, Bool.and_eq_true, decide_eq_true_eq, List.all_eq_true]
  constructor
  · intro hsame key
    rcases hsame with ⟨hsize, hentries⟩
    have hfound : ∀ other value, left.find? other = some value →
        right.find? other = some value := fun other value hvalue =>
      hentries (other, value) (mem_of_find?_eq_some hvalue)
    have hsubset : left.keys ⊆ right.keys := by
      intro other hother
      rcases Option.isSome_iff_exists.mp (mem_keys_iff.mp hother) with ⟨value, hvalue⟩
      exact mem_keys_iff.mpr (Option.isSome_iff_exists.mpr ⟨value, hfound other value hvalue⟩)
    -- There are as many keys on the right, so those on the left are all of them.
    have hlength : right.keys.length ≤ left.keys.length := by
      rw [keys, keys, List.length_map, List.length_map]
      exact Nat.le_of_eq hsize.symm
    have hperm := (List.subperm_of_subset hleft hsubset).perm_of_length_le hlength
    cases hvalue : left.find? key with
    | some value => exact (hfound key value hvalue).symm
    | none =>
        have hnot : key ∉ left.keys := by
          rw [mem_keys_iff, hvalue]
          exact Bool.false_ne_true
        rw [hperm.mem_iff, mem_keys_iff, Option.not_isSome_iff_eq_none] at hnot
        exact hnot.symm
  · intro hfind
    have hperm : left.keys.Perm right.keys := by
      rw [List.perm_ext_iff_of_nodup hleft hright]
      intro key
      rw [mem_keys_iff, mem_keys_iff, hfind]
    have hlength := hperm.length_eq
    rw [keys, keys, List.length_map, List.length_map] at hlength
    refine ⟨hlength, fun entry hentry => ?_⟩
    rw [← hfind]
    exact (mem_entries_iff hleft).mp hentry

end OrderedMap

namespace DirectiveSet

/-- A set is what a list of insertions leaves, in every way of looking at it. -/
structure LeftBy (history : List Directive) (set : DirectiveSet) : Prop where
  kinds_eq : set.kinds = (history.map Directive.kind).eraseDups
  nodup_kinds : set.kinds.Nodup
  size_eq : set.size = (history.map Directive.kind).toFinset.card
  get?_eq : ∀ kind, set.get? kind =
    (history.filter fun directive => decide (directive.kind = kind)).getLast?
  has_eq : ∀ kind, set.has kind = (set.get? kind).isSome
  map_toList : set.toList.map (·.1) = set.kinds
  mem_toList_iff : ∀ kind directive, (kind, directive) ∈ set.toList ↔
    set.get? kind = some directive
  kind_of_mem : ∀ kind directive, (kind, directive) ∈ set.toList → directive.kind = kind

/-- What the insertion of a directive does to a set: it hands back what the set held of that kind,
    changes no other kind, and leaves the kinds that the set had where they are. -/
structure Changes (set : DirectiveSet) (directive : Directive) : Prop where
  fst_eq : (set.insert directive).1 = set.get? directive.kind
  get?_self : (set.insert directive).2.get? directive.kind = some directive
  get?_other : ∀ kind, kind ≠ directive.kind → (set.insert directive).2.get? kind = set.get? kind
  getElem?_eq : ∀ (place : Nat) (entry : Directive.Kind × Directive),
    set.toList[place]? = some entry → (set.insert directive).2.toList[place]? =
      some (if entry.1 = directive.kind then (directive.kind, directive) else entry)

theorem leftBy_ofList (history : List Directive) : LeftBy history (ofList history) where
  kinds_eq := kinds_ofList history
  nodup_kinds := nodup_kinds_ofList history
  size_eq := by
    have hkinds : (ofList history).kinds.toFinset = (history.map Directive.kind).toFinset := by
      rw [kinds_ofList]
      refine Finset.ext fun kind => ?_
      rw [List.mem_toFinset, List.mem_toFinset, List.mem_eraseDups]
    rw [← hkinds, List.toFinset_card_of_nodup (nodup_kinds_ofList history)]
    exact (List.length_map _).symm
  get?_eq := get?_ofList history
  has_eq := OrderedMap.contains_eq_isSome_find? _
  map_toList := rfl
  mem_toList_iff := fun _ _ => OrderedMap.mem_entries_iff (nodup_kinds_ofList history)
  kind_of_mem := by
    intro kind directive hmem
    rw [toList_ofList] at hmem
    rcases List.mem_map.mp hmem with ⟨held, -, hheld⟩
    rcases Prod.mk.inj hheld with ⟨rfl, rfl⟩
    rfl

theorem changes_insert {set : DirectiveSet} (h : set.kinds.Nodup) (directive : Directive) :
    Changes set directive where
  fst_eq := OrderedMap.fst_insert set.entries directive.kind directive
  get?_self := by
    rw [get?, insert, OrderedMap.find?_insert, if_pos rfl]
  get?_other := by
    intro kind hkind
    rw [get?, insert, OrderedMap.find?_insert, if_neg hkind.symm]
    rfl
  getElem?_eq := fun _ _ => OrderedMap.getElem?_put directive h

theorem ofList_concat (history : List Directive) (directive : Directive) :
    ofList (history ++ [directive]) = ((ofList history).insert directive).2 := by
  rw [ofList, List.foldl_append]
  rfl

theorem beq_ofList_iff (left right : List Directive) :
    (ofList left == ofList right) = true ↔ ∀ kind,
      (left.filter fun directive => decide (directive.kind = kind)).getLast? =
        (right.filter fun directive => decide (directive.kind = kind)).getLast? := by
  have hsame := OrderedMap.sameEntries_iff (nodup_kinds_ofList left) (nodup_kinds_ofList right)
  refine hsame.trans (forall_congr' fun kind => ?_)
  rw [← get?_ofList, ← get?_ofList]
  rfl

end DirectiveSet

/-- A set of directives is determined by the insertions that made it: its kinds stand in the order
    of their first insertion, and of each kind it holds the directive inserted last. One more
    insertion hands back what it replaces and changes nothing else. Two sets are equal if the last
    insertions of every kind are, in whatever order the kinds stand. -/
theorem insertions_determine_set (history : List Directive) :
    DirectiveSet.LeftBy history (.ofList history) ∧
      (∀ directive, ((DirectiveSet.ofList history).insert directive).2 =
        .ofList (history ++ [directive]) ∧ (DirectiveSet.ofList history).Changes directive) ∧
      ∀ others : List Directive,
        (DirectiveSet.ofList history == DirectiveSet.ofList others) = true ↔
          ∀ kind, (history.filter fun directive => decide (directive.kind = kind)).getLast? =
            (others.filter fun directive => decide (directive.kind = kind)).getLast? := by
  refine ⟨DirectiveSet.leftBy_ofList history, fun directive => ⟨?_, ?_⟩,
    DirectiveSet.beq_ofList_iff history⟩
  · exact (DirectiveSet.ofList_concat history directive).symm
  · exact DirectiveSet.changes_insert (DirectiveSet.nodup_kinds_ofList history) directive

end TreeQuery
