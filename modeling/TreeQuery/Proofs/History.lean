import Mathlib.Data.List.Induction
import Mathlib.Data.List.Nodup
import TreeQuery.Directive.Basic

/-!
# Maps as histories of insertions

A map that remembers the order of insertion is known completely from the list of
insertions that made it. Its keys are the inserted keys, each at the place of its
first insertion, and a key holds what was inserted under it last.

The list is taken apart at its end, because that is where the map grows: one more
insertion adds the key at the end or finds it already there.

What a history overwrites leaves no trace, so the entries of a map are themselves a
history of it, and one in which no key comes twice.

A set of directives is such a map, with the kind of a directive as its key.

## Main definitions

* `LastUnder`: What a history has last under a key.

## Theorems

* `keys_insert`: The keys after an insertion.
* `keys_ofList`: The keys of a map, from its history.
* `find?_ofList`, `find?_ofList_eq_some_iff`: What a key holds, from the history.
* `mem_of_mem_ofList`, `nodup_keys_ofList`: Entries are insertions, with different keys.
* `entries_ofList_of_nodup`: A history in which no key comes twice is the map.
* `has_iff_mem_kinds`: Which kinds a set has.
* `kinds_ofList`, `get?_ofList`, `toList_ofList`, `nodup_kinds_ofList`,
  `toList_ofList_of_nodup`: The same for sets of directives.
-/

namespace TreeQuery

namespace OrderedMap

variable {κ : Type u} {α : Type v} [DecidableEq κ]

theorem keys_put (key : κ) (value : α) (entries : List (κ × α)) :
    (put key value entries).2.map (·.1) =
      if key ∈ entries.map (·.1) then entries.map (·.1) else entries.map (·.1) ++ [key] := by
  induction entries with
  | nil => rfl
  | cons entry rest ih =>
      by_cases hentry : entry.1 = key
      · simp only [put, List.map_cons, hentry, List.mem_cons, true_or, if_true]
      · simp only [put, if_neg hentry, List.map_cons, ih, List.mem_cons, Ne.symm hentry, false_or]
        by_cases hrest : key ∈ rest.map (·.1)
        · rw [if_pos hrest, if_pos hrest]
        · rw [if_neg hrest, if_neg hrest, List.cons_append]

-- An insertion leaves the keys where they are, and adds its own at the end if it is new.
theorem keys_insert (map : OrderedMap κ α) (key : κ) (value : α) :
    (map.insert key value).2.keys = if key ∈ map.keys then map.keys else map.keys ++ [key] :=
  keys_put key value map.entries

theorem ofList_concat (insertions : List (κ × α)) (last : κ × α) :
    ofList (insertions ++ [last]) = ((ofList insertions).insert last.1 last.2).2 := by
  simp only [ofList, List.foldl_append, List.foldl_cons, List.foldl_nil]

/-- The keys are the inserted ones, in the order of their first insertion. -/
theorem keys_ofList (insertions : List (κ × α)) :
    (ofList insertions).keys = (insertions.map (·.1)).eraseDups := by
  induction insertions using List.reverseRec with
  | nil => rfl
  | append_singleton earlier last ih =>
      rw [ofList_concat, keys_insert, ih, List.map_append, List.eraseDups_append]
      by_cases hold : last.1 ∈ earlier.map (·.1)
      · have hrest : ([last].map (·.1)).removeAll (earlier.map (·.1)) = [] := by
          simp only [List.map_cons, List.map_nil, List.cons_removeAll, List.contains_eq_mem, hold,
            decide_true, Bool.true_eq_false, if_false, List.nil_removeAll]
        rw [if_pos (List.mem_eraseDups.mpr hold), hrest, List.eraseDups_nil, List.append_nil]
      · have hrest : ([last].map (·.1)).removeAll (earlier.map (·.1)) = [last.1] := by
          simp only [List.map_cons, List.map_nil, List.cons_removeAll, List.contains_eq_mem, hold,
            decide_false, if_true, List.nil_removeAll]
        rw [if_neg (fun h => hold (List.mem_eraseDups.mp h)), hrest]
        rfl

/-- A key holds what was inserted under it last. -/
theorem find?_ofList (insertions : List (κ × α)) (key : κ) :
    (ofList insertions).find? key =
      (insertions.filter fun entry => decide (entry.1 = key)).getLast?.map (·.2) := by
  induction insertions using List.reverseRec with
  | nil => rfl
  | append_singleton earlier last ih =>
      rw [ofList_concat, find?_insert, ih, List.filter_append]
      by_cases hkey : last.1 = key
      · simp [hkey]
      · simp [hkey]

/-- The history has the value last under the key: the key does not come again after it. -/
def LastUnder (history : List (κ × α)) (key : κ) (value : α) : Prop :=
  ∃ earlier later, history = earlier ++ (key, value) :: later ∧ ∀ entry ∈ later, entry.1 ≠ key

theorem find?_ofList_eq_some_iff (insertions : List (κ × α)) (key : κ) (value : α) :
    (ofList insertions).find? key = some value ↔ LastUnder insertions key value := by
  rw [find?_ofList, Option.map_eq_some_iff]
  constructor
  · rintro ⟨⟨_, _⟩, hlast, rfl⟩
    rcases List.getLast?_eq_some_iff.mp hlast with ⟨earlier, hfilter⟩
    rcases List.filter_eq_append_iff.mp hfilter with ⟨before, after, rfl, _, hafter⟩
    rcases List.filter_eq_cons_iff.mp hafter with ⟨between, later, rfl, _, hkey, hlater⟩
    rw [decide_eq_true_eq] at hkey
    rw [List.filter_eq_nil_iff] at hlater
    refine ⟨before ++ between, later, ?_, fun entry hentry => ?_⟩
    · rw [← hkey, List.append_assoc]
    · exact fun h => hlater entry hentry (decide_eq_true h)
  · rintro ⟨earlier, later, rfl, hlater⟩
    refine ⟨(key, value), ?_, rfl⟩
    have hnone : later.filter (fun entry => decide (entry.1 = key)) = [] :=
      List.filter_eq_nil_iff.mpr fun entry hentry h => hlater entry hentry (of_decide_eq_true h)
    rw [List.filter_append, List.filter_cons, if_pos (decide_eq_true rfl), hnone,
      List.getLast?_concat]

theorem LastUnder.unique {history : List (κ × α)} {key : κ} {value other : α}
    (h : LastUnder history key value) (h' : LastUnder history key other) : value = other := by
  rw [← find?_ofList_eq_some_iff] at h h'
  exact Option.some.inj (h.symm.trans h')

theorem mem_of_mem_put {key : κ} {value : α} {entries : List (κ × α)} {entry : κ × α}
    (h : entry ∈ (put key value entries).2) : entry = (key, value) ∨ entry ∈ entries := by
  induction entries with
  | nil => exact Or.inl (List.mem_singleton.mp h)
  | cons first rest ih =>
      by_cases hfirst : first.1 = key
      · simp only [put, if_pos hfirst] at h
        exact (List.mem_cons.mp h).imp_right (List.mem_cons_of_mem first)
      · simp only [put, if_neg hfirst] at h
        rcases List.mem_cons.mp h with rfl | hrest
        · exact Or.inr List.mem_cons_self
        · exact (ih hrest).imp_right (List.mem_cons_of_mem first)

/-- Every entry of a map has been inserted. -/
theorem mem_of_mem_ofList {insertions : List (κ × α)} {entry : κ × α}
    (h : entry ∈ (ofList insertions).entries) : entry ∈ insertions := by
  induction insertions using List.reverseRec with
  | nil => exact h
  | append_singleton earlier last ih =>
      rw [ofList_concat] at h
      rcases mem_of_mem_put h with hlast | hearlier
      · exact hlast ▸ List.mem_concat_self
      · exact List.mem_append_left _ (ih hearlier)

/-- No key has two entries. -/
theorem nodup_keys_ofList (insertions : List (κ × α)) : (ofList insertions).keys.Nodup := by
  induction insertions using List.reverseRec with
  | nil => exact List.nodup_nil
  | append_singleton earlier last ih =>
      rw [ofList_concat, keys_insert]
      by_cases hold : last.1 ∈ (ofList earlier).keys
      · rw [if_pos hold]
        exact ih
      · rw [if_neg hold]
        rw [← List.concat_eq_append, List.nodup_concat]
        exact ⟨hold, ih⟩

theorem put_of_not_mem {key : κ} (value : α) {entries : List (κ × α)}
    (h : key ∉ entries.map (·.1)) : (put key value entries).2 = entries ++ [(key, value)] := by
  induction entries with
  | nil => rfl
  | cons first rest ih =>
      rcases List.ne_and_not_mem_of_not_mem_cons h with ⟨hfirst, hrest⟩
      simp only [put, if_neg hfirst.symm, ih hrest, List.cons_append]

/-- A history in which no key comes twice is what the map holds. -/
theorem entries_ofList_of_nodup (insertions : List (κ × α)) (h : (insertions.map (·.1)).Nodup) :
    (ofList insertions).entries = insertions := by
  induction insertions using List.reverseRec with
  | nil => rfl
  | append_singleton earlier last ih =>
      rw [List.map_append, List.map_singleton, ← List.concat_eq_append, List.nodup_concat] at h
      rcases h with ⟨hnew, hearlier⟩
      rw [← ih hearlier] at hnew
      rw [ofList_concat, insert, put_of_not_mem last.2 hnew, ih hearlier]

end OrderedMap

namespace DirectiveSet

theorem entries_ofList (directives : List Directive) :
    (ofList directives).entries =
      .ofList (directives.map fun directive => (directive.kind, directive)) := by
  induction directives using List.reverseRec with
  | nil => rfl
  | append_singleton earlier last ih =>
      rw [List.map_append, List.map_cons, List.map_nil, OrderedMap.ofList_concat, ← ih]
      simp only [ofList, List.foldl_append, List.foldl_cons, List.foldl_nil, insert]

theorem kinds_ofList (directives : List Directive) :
    (ofList directives).kinds = (directives.map Directive.kind).eraseDups := by
  rw [kinds, entries_ofList, OrderedMap.keys_ofList, List.map_map]
  rfl

-- Whether a set has a directive of a kind is whether the kind is among its entries.
theorem has_iff_mem_kinds (set : DirectiveSet) (kind : Directive.Kind) :
    set.has kind = true ↔ kind ∈ set.kinds := by
  rw [has, OrderedMap.contains, List.any_eq_true, kinds, OrderedMap.keys, List.mem_map]
  simp only [decide_eq_true_eq]

theorem get?_ofList (directives : List Directive) (kind : Directive.Kind) :
    (ofList directives).get? kind =
      (directives.filter fun directive => decide (directive.kind = kind)).getLast? := by
  rw [get?, entries_ofList, OrderedMap.find?_ofList, List.filter_map, List.getLast?_map,
    Option.map_map]
  exact Option.map_id' ..

theorem mem_of_mem_values_ofList {directives : List Directive} {directive : Directive}
    (h : directive ∈ (ofList directives).entries.values) : directive ∈ directives := by
  rcases List.mem_map.mp h with ⟨entry, hentry, rfl⟩
  rw [entries_ofList] at hentry
  rcases List.mem_map.mp (OrderedMap.mem_of_mem_ofList hentry) with ⟨found, hfound, rfl⟩
  exact hfound

-- Every directive of a set is held under its own kind.
theorem toList_ofList (directives : List Directive) :
    (ofList directives).toList =
      (ofList directives).entries.values.map fun directive => (directive.kind, directive) := by
  have hentries : ∀ entry ∈ (ofList directives).entries.entries,
      (entry.2.kind, entry.2) = entry := by
    intro entry hentry
    rw [entries_ofList] at hentry
    rcases List.mem_map.mp (OrderedMap.mem_of_mem_ofList hentry) with ⟨_, _, rfl⟩
    rfl
  rw [toList, OrderedMap.values, List.map_map]
  exact ((List.map_congr_left hentries).trans (List.map_id _)).symm

theorem nodup_kinds_ofList (directives : List Directive) : (ofList directives).kinds.Nodup := by
  rw [kinds, entries_ofList]
  exact OrderedMap.nodup_keys_ofList _

theorem toList_ofList_of_nodup {directives : List Directive}
    (h : (directives.map Directive.kind).Nodup) :
    (ofList directives).toList = directives.map fun directive => (directive.kind, directive) := by
  rw [toList, entries_ofList, OrderedMap.entries_ofList_of_nodup]
  rw [List.map_map]
  exact h

end DirectiveSet

end TreeQuery
